import SelectorClauses.Proofs.Catalogue.FirstAppearances
import SelectorClauses.Proofs.CommandLine.AllOrNothing
import SelectorClauses.Proofs.CommandLine.Insertion

/-!
Showing the journal. Main statement: `verbose_only_adds` compares a run with the run that has the option
for the journal as well: only lines in front of the error output are added, and they are those of the
parses, each of a key that was not there.
-/
namespace SelectorClauses

namespace CommandLine

open Catalogue

def parsingLine (key : Text) : Text × Text :=
  Entry.selectorLine ("Parsing selector ".toList ++ key.quoted)

/-- What a run shows, given its settings and sources, and what it shows with the journal. -/
structure OnlyAddsRecords (s : Settings) (sources : List Text) (plain loud : Outcome) : Prop where
  exitCode : loud.exitCode = plain.exitCode
  stdout : loud.stdout = plain.stdout
  errorOutput : s.verbose = false → ∀ stamp stamp', loud.errorOutput stamp =
    (loud.journal.mapIdx fun place e => stamp place ++ " | DEBUG    | ".toList ++ e.channel ++
      " | ".toList ++ e.message ++ ['\n']).flatten ++ plain.errorOutput stamp'
  again : s.verbose = true → loud = plain
  accepted : (∀ t ∈ sources, Accepted t.trim) →
    loud.journal.map Entry.line = (firstKeys sources).map parsingLine
  rejected : ∀ before t behind f, sources = before ++ t :: behind →
    (∀ u ∈ before, Accepted u.trim) → tokenize t.trim = .error f →
    ∃ block, Entry.Block t.trim block ∧
      loud.journal.map Entry.line = (firstKeys before).map parsingLine ++ block
  exhaustive : (∀ t ∈ sources, Accepted t.trim) ∨ ∃ before t behind f,
    sources = before ++ t :: behind ∧ (∀ u ∈ before, Accepted u.trim) ∧
      tokenize t.trim = .error f

theorem runSelectors_withJournal (s : Settings) (selector stdin : Text) :
    runSelectors s.withJournal selector stdin =
      { runSelectors s selector stdin with
        journal := (getAll [] (.own 0) (sources selector stdin)).2 } := by
  rw [runSelectors_eq, runSelectors_eq]
  cases (getAll [] (.own 0) (sources selector stdin)).1 <;> rfl

theorem map_line_parsing (keys : List Text) :
    (keys.map Entry.parsing).map Entry.line = keys.map parsingLine := by
  rw [List.map_map]
  rfl

theorem onlyAddsRecords_withJournal (s : Settings) (selector stdin : Text) :
    OnlyAddsRecords s (sources selector stdin) (runSelectors s selector stdin)
      (runSelectors s.withJournal selector stdin) where
  exitCode := by rw [runSelectors_withJournal]
  stdout := by rw [runSelectors_withJournal]
  errorOutput quiet stamp stamp' := by
    rw [errorOutput_of_quiet quiet, runSelectors_withJournal]
    rfl
  again shown := by
    have same : s.withJournal = s := by
      obtain ⟨selector, format, only, verbose⟩ := s
      obtain rfl : verbose = true := shown
      rfl
    rw [same]
  accepted accepted := by
    rw [runSelectors_withJournal, journal_getAll_of_accepted (.own 0) accepted, map_line_parsing]
  rejected before t behind f split accepted fault := by
    refine ⟨_, block_parseJournal t.trim, ?_⟩
    rw [runSelectors_withJournal, split, journal_getAll_of_first (.own 0) accepted fault, fault,
      List.map_append, map_line_parsing]
  exhaustive := all_accepted_or_first (sources selector stdin)

/-- The option among arguments: in front, behind all if there is no divider, and wherever else the
arguments still come to settings. -/
structure CanShowJournal (arguments : List Text) (s : Settings) (selector : Text) : Prop where
  front : Settings.ofArguments (Flag.verbose.long :: arguments) = .ok s.withJournal
  back : dividerText ∉ arguments →
    Settings.ofArguments (arguments ++ [Flag.verbose.long]) = .ok s.withJournal
  anywhere : ∀ pre post s', arguments = pre ++ post →
    Settings.ofArguments (pre ++ Flag.verbose.long :: post) = .ok s' →
    s' = s.withJournal ∧ ∀ stdin, OnlyAddsRecords s (sources selector stdin) (run arguments stdin)
      (run (pre ++ Flag.verbose.long :: post) stdin)

theorem verbose_only_adds {arguments : List Text} {s : Settings} {selector : Text}
    (parsed : Settings.ofArguments arguments = .ok s) (given : s.selector = some selector)
    (nonempty : selector ≠ []) : CanShowJournal arguments s selector where
  front := Settings.ofArguments_cons_verbose parsed
  back noDivider := Settings.ofArguments_concat_verbose noDivider parsed
  anywhere pre post s' split parsed' := by
    subst split
    have same : s' = s.withJournal :=
      Settings.eq_of_ofArguments_insert parsed (by simp [given]) parsed'
    subst same
    refine ⟨rfl, fun stdin => ?_⟩
    rw [run_eq_runSelectors parsed given nonempty, run_eq_runSelectors parsed' given nonempty]
    exact onlyAddsRecords_withJournal s selector stdin

/-- A key that comes again, another one between, and a line that is rejected before a line that would
be: with the option behind the mark for the input. -/
theorem verbose_only_adds_rejected :
    let arguments : List Text := [['-'], "--attributes".toList]
    let louder : List Text := [['-'], "--verbose".toList, "--attributes".toList]
    let stdin : Text := ".a\n #b\n.a \n\nx\\\n:not(c\n".toList
    let s : Settings := { selector := some ['-'], attributesOnly := true }
    Settings.ofArguments arguments = .ok s ∧ CanShowJournal arguments s ['-'] ∧
      OnlyAddsRecords s (sources ['-'] stdin) (run arguments stdin) (run louder stdin) ∧
      (run louder stdin).journal =
        [.parsing ".a".toList, .parsing "#b".toList, .parsing "x\\".toList,
         .noToken 1 "x\\".toList,
         .rejected "x\\".toList (.fault (.unrecognizedSyntax ['\\'] 1))] ∧
      (run louder stdin).errorOutput Text.ofNat =
        "0 | DEBUG    | simplesel.selector | Parsing selector '.a'\n".toList ++
        "1 | DEBUG    | simplesel.selector | Parsing selector '#b'\n".toList ++
        "2 | DEBUG    | simplesel.selector | Parsing selector 'x\\\\'\n".toList ++
        "3 | DEBUG    | simplesel.tokenizer | No token matches at offset 1 of 'x\\\\'\n".toList ++
        "4 | DEBUG    | simplesel.selector | Rejected selector 'x\\\\': ".toList ++
        "Invalid or unsupported syntax near '\\'\n".toList ++
        "Error in selector 'x\\': Invalid or unsupported syntax near '\\'\n".toList := by
  intro arguments louder stdin s
  have parsed : Settings.ofArguments arguments = .ok s := by decide +kernel
  have parsed' : Settings.ofArguments louder = .ok s.withJournal := by decide +kernel
  have whole : CanShowJournal arguments s ['-'] := verbose_only_adds parsed rfl (by decide)
  obtain ⟨-, records⟩ := whole.anywhere [['-']] ["--attributes".toList] _ rfl parsed'
  have journal : (run louder stdin).journal =
      [.parsing ".a".toList, .parsing "#b".toList, .parsing "x\\".toList, .noToken 1 "x\\".toList,
       .rejected "x\\".toList (.fault (.unrecognizedSyntax ['\\'] 1))] := by decide +kernel
  have stderr : (run louder stdin).stderr =
      "Error in selector 'x\\': Invalid or unsupported syntax near '\\'\n".toList := by
    decide +kernel
  refine ⟨parsed, whole, records stdin, journal, ?_⟩
  rw [Outcome.errorOutput, journal, stderr]
  decide +kernel

end CommandLine

end SelectorClauses
