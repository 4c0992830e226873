import SelectorClauses.CommandLine.Item

/-!
Reading the arguments of the command line. Items take effect from left to right, so the first
request for help or misuse decides. The first word is the selector, and a divider next to it
belongs to it; what is left over is reported at the end.
-/
namespace SelectorClauses

namespace CommandLine

structure Settings where
  selector : Option Text := none
  format : Format := .text
  attributesOnly : Bool := false
  verbose : Bool := false
deriving DecidableEq, Repr

inductive Stop
  | help
  | version
  | misuse (m : Misuse)
deriving DecidableEq, Repr

namespace Settings

/-- The settings so far, whether a selector may still come, and the arguments left over. -/
structure Progress where
  settings : Settings := {}
  awaiting : Bool := true
  leftOver : List Text := []
deriving DecidableEq, Repr

namespace Progress

def withSelector (p : Progress) (t : Option Text) : Progress :=
  { p with settings := { p.settings with selector := t }, awaiting := false }

def leave (p : Progress) (t : Text) : Progress := { p with leftOver := p.leftOver ++ [t] }

def withFormat (p : Progress) (f : Format) : Progress :=
  { p with settings := { p.settings with format := f } }

end Progress

/-- The format that a value names. A divider is dropped from the value of an option as it is
elsewhere; a format left without a value is the text format. -/
def formatOf (value : Text) : Except Stop Format :=
  if value = dividerText then .ok .text
  else match Format.ofLabel? value with
    | some f => .ok f
    | none => .error (.misuse (.invalidChoice value))

/-- The short form of the help option may be repeated in one argument, also behind an equals sign.
Anything else there is a value that it does not take, and so is the empty text behind an equals
sign. -/
def shortHelpStop (behind : Text) : Stop :=
  let attached := if behind.head? = some '=' then behind.drop 1 else behind
  let value := attached.dropWhile (· == 'h')
  if value.isEmpty && behind != ['='] then .help else .misuse (.valueIgnored .help value)

def take (p : Progress) (f : Flag) : Except Stop Progress :=
  match f with
  | .help => .error .help
  | .version => .error .version
  | .attributes => .ok { p with settings := { p.settings with attributesOnly := true } }
  | .verbose => .ok { p with settings := { p.settings with verbose := true } }
  | .format => .error (.misuse (.valueMissing .format))

def readItems (p : Progress) : List Item → Except Stop Progress
  | [] => .ok p
  | .option .format (some value) :: items => do
    readItems (p.withFormat (← formatOf value)) items
  | .option .format none :: .word value :: items => do
    readItems (p.withFormat (← formatOf value)) items
  | .option f (some value) :: _ => .error (.misuse (.valueIgnored f value))
  | .option f none :: items => do readItems (← take p f) items
  | .shortHelp behind :: _ => .error (shortHelpStop behind)
  | .unknown t :: items => readItems (p.leave t) items
  | .word t :: .divider :: items =>
    if p.awaiting then readItems (p.withSelector (some t)) items
    else readItems ((p.leave t).leave dividerText) items
  | .word t :: items =>
    readItems (if p.awaiting then p.withSelector (some t) else p.leave t) items
  | .divider :: .word t :: items =>
    if p.awaiting then readItems (p.withSelector (some t)) items
    else readItems ((p.leave dividerText).leave t) items
  | .divider :: items =>
    readItems (if p.awaiting then p.withSelector none else p.leave dividerText) items

def ofArguments (ts : List Text) : Except Stop Settings := do
  let items ← (Item.ofArguments ts).mapError Stop.misuse
  let p ← readItems {} items
  if p.leftOver.isEmpty then return p.settings
  else .error (.misuse (.unrecognized p.leftOver))

end Settings

end CommandLine

end SelectorClauses
