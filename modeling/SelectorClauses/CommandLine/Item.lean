import SelectorClauses.CommandLine.Flag
import SelectorClauses.Text.DecimalDigit

/-!
What each argument is: a plain word, the divider behind which all are plain words, an option with
or without an attached value, or something that looks like an option and is none.
-/
namespace SelectorClauses

namespace CommandLine

inductive Item
  | word (t : Text)
  | divider
  | option (flag : Flag) (attached : Option Text)
  -- The short form of the help option, with what stands behind it in the same argument.
  | shortHelp (behind : Text)
  | unknown (t : Text)
deriving DecidableEq, Repr

def dividerText : Text := ['-', '-']

def dropLineFeed (t : Text) : Text := if t.getLast? = some '\n' then t.dropLast else t

/-- A hyphen with digits, or with a point among or before digits. -/
def isNegativeNumber : Text → Bool
  | '-' :: t =>
    let t := dropLineFeed t
    let rest := t.dropWhile isDecimalDigit
    match rest with
    | [] => !t.isEmpty
    | '.' :: fraction => !fraction.isEmpty && fraction.all isDecimalDigit
    | _ => false
  | _ => false

namespace Item

/-- An argument that begins with a hyphen and names no option. -/
def ofStranger (t : Text) : Item :=
  if isNegativeNumber t || t.contains ' ' then .word t else .unknown t

def ofLongName (t : Text) : Except Misuse Item :=
  let (name, attached) := match t.cutAt? '=' with
    | some (name, value) => (name, some value)
    | none => (t, none)
  match Flag.ofLong? name with
  | some f => .ok (.option f attached)
  | none =>
    match Flag.beginningWith name with
    | [] => .ok (ofStranger t)
    | [f] => .ok (.option f attached)
    | fs => .error (.ambiguous t fs)

def ofText (t : Text) : Except Misuse Item :=
  match t with
  | '-' :: 'h' :: behind => .ok (.shortHelp behind)
  | '-' :: '-' :: _ => ofLongName t
  | '-' :: _ :: _ => .ok (ofStranger t)
  | _ => .ok (.word t)

/-- The items of a list of arguments. An abbreviation of more than one option is an error before
anything else takes effect. -/
def ofArguments : List Text → Except Misuse (List Item)
  | [] => .ok []
  | t :: ts =>
    if t = dividerText then .ok (.divider :: ts.map .word)
    else do
      let item ← ofText t
      let items ← ofArguments ts
      return item :: items

end Item

end CommandLine

end SelectorClauses
