import SelectorClauses.Catalogue.Basic
import SelectorClauses.CommandLine.Report
import SelectorClauses.CommandLine.Settings
import SelectorClauses.CommandLine.Usage
import SelectorClauses.Text.Lines

/-!
A run of the program: from the arguments and the standard input to the exit code and the two
outputs. Nothing is written about any selector unless all are accepted.
-/
namespace SelectorClauses

namespace CommandLine

structure Outcome where
  exitCode : Nat
  stdout : Text
  stderr : Text
  -- What the journal shows, before anything else on the error output.
  journal : List Entry
deriving DecidableEq, Repr

/-- The selector argument that stands for the lines of the standard input. -/
def inputMark : Text := ['-']

def sources (selector stdin : Text) : List Text :=
  if selector = inputMark then stdin.lines.filter fun l => !l.isAllBlank else [selector]

def report (s : Settings) (ss : List Selector) : Text :=
  if s.attributesOnly then namesReport ss
  else match s.format with
    | .text => textReport ss
    | .json => jsonReport ss

/-- Looks up every source in one registry and reports all selectors or the first error. -/
def runSelectors (s : Settings) (selector stdin : Text) : Outcome :=
  let (found, journal) := Catalogue.getAll [] (.own 0) (sources selector stdin)
  let shown := if s.verbose then journal else []
  match found with
  | .ok handles => ⟨0, report s (handles.map Handle.selector), [], shown⟩
  | .error e => ⟨2, [], e.message ++ ['\n'], shown⟩

def Stop.outcome : Stop → Outcome
  | .help => ⟨0, CommandLine.help, [], []⟩
  | .version => ⟨0, versionText, [], []⟩
  | .misuse m => ⟨2, [], m.report, []⟩

/-- The selector that the settings name; an empty one counts as none. -/
def Settings.selector? (s : Settings) : Option Text :=
  s.selector.filter fun t => !t.isEmpty

def run (arguments : List Text) (stdin : Text) : Outcome :=
  match Settings.ofArguments arguments with
  | .error stop => stop.outcome
  | .ok s =>
    match s.selector? with
    | none => ⟨1, [], help, []⟩
    | some selector => runSelectors s selector stdin

def readsInput (arguments : List Text) : Bool :=
  match Settings.ofArguments arguments with
  | .error _ => false
  | .ok s => s.selector? == some inputMark

def journalLine (stamp : Text) (e : Entry) : Text :=
  stamp ++ " | DEBUG    | ".toList ++ e.channel ++ " | ".toList ++ e.message ++ ['\n']

/-- The whole error output, given the time stamp of each place in the journal. -/
def Outcome.errorOutput (o : Outcome) (stamp : Nat → Text) : Text :=
  (o.journal.mapIdx fun place e => journalLine (stamp place) e).flatten ++ o.stderr

end CommandLine

end SelectorClauses
