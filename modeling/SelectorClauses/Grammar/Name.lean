import SelectorClauses.Grammar.Automaton
import SelectorClauses.Text.Hex

/-!
Names and identifiers. A name is one or more name characters: letters, digits, the underscore,
the hyphen, everything beyond ASCII, and escapes. An identifier is a name that begins, after an
optional hyphen, with neither a digit nor a hyphen.

An escape is a backslash with one character that is no hexadecimal digit and ends no line, or
with one to six hexadecimal digits; the digits may be followed by one space, tab, line feed, form
feed or carriage return, or by a carriage return and a line feed, which belong to the escape.
The automaton takes every escape as long as it goes.
-/
namespace SelectorClauses

def isNameStart (c : Char) : Bool :=
  c == '_' || ('a' ≤ c && c ≤ 'z') || ('A' ≤ c && c ≤ 'Z') || 0x7f < c.toNat

def isNameChar (c : Char) : Bool := isNameStart c || ('0' ≤ c && c ≤ '9') || c == '-'

/-- The characters, other than the hexadecimal digits, that a backslash does not escape in a name. -/
def isEscapeStop (c : Char) : Bool := c == '\n' || c == '\r' || c == '\x0c'

def isEscapeEnd (c : Char) : Bool := c == ' ' || c == '\n' || c == '\r' || c == '\t' || c == '\x0c'

namespace Name

inductive State
  | identifierStart
  | afterHyphen
  | nameStart
  | inside
  | backslash
  -- In an escape that `left` more digits may continue.
  | hex (left : Nat)
  | hexReturn
deriving DecidableEq, Repr

def stepInside (c : Char) : Option State :=
  if c = '\\' then some .backslash else if isNameChar c then some .inside else none

def step : State → Char → Option State
  | .identifierStart, c =>
    if c = '-' then some .afterHyphen
    else if c = '\\' then some .backslash
    else if isNameStart c then some .inside
    else none
  | .afterHyphen, c =>
    if c = '\\' then some .backslash else if isNameStart c then some .inside else none
  | .nameStart, c => stepInside c
  | .inside, c => stepInside c
  | .backslash, c =>
    if isHexDigit c then some (.hex 5) else if isEscapeStop c then none else some .inside
  | .hex left, c =>
    if isHexDigit c && 0 < left then some (.hex (left - 1))
    else if c = '\r' then some .hexReturn
    else if isEscapeEnd c then some .inside
    else stepInside c
  | .hexReturn, c => if c = '\n' then some .inside else stepInside c

def final : State → Bool
  | .inside | .hex _ | .hexReturn => true
  | .identifierStart | .afterHyphen | .nameStart | .backslash => false

def automaton : Automaton State := ⟨step, final⟩

def identifier? (t : Text) : Option (Text × Text) := automaton.longest? .identifierStart t

def name? (t : Text) : Option (Text × Text) := automaton.longest? .nameStart t

theorem identifier?_append {t w rest : Text} (h : identifier? t = some (w, rest)) :
    t = w ++ rest := automaton.longest?_append h

theorem name?_append {t w rest : Text} (h : name? t = some (w, rest)) : t = w ++ rest :=
  automaton.longest?_append h

theorem identifier?_ne_nil {t w rest : Text} (h : identifier? t = some (w, rest)) : w ≠ [] :=
  automaton.longest?_ne_nil rfl h

end Name

end SelectorClauses
