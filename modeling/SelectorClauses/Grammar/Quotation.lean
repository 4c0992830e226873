import SelectorClauses.Grammar.Name

/-!
Quotations: a quote, then anything but line ends and the quote itself, then the quote again. A
backslash takes the next character, a line end or hexadecimal digits with it, so an escaped
quote ends nothing and an escaped line end is allowed.
-/
namespace SelectorClauses

namespace Quotation

inductive State
  | inside
  | backslash
  -- After an escaped carriage return, to which a line feed belongs.
  | escapedReturn
  | hex (left : Nat)
  | hexReturn
  | closed
deriving DecidableEq, Repr

variable (quote : Char)

def stepInside (c : Char) : Option State :=
  if c = quote then some .closed
  else if c = '\\' then some .backslash
  else if isEscapeStop c then none
  else some .inside

def step : State → Char → Option State
  | .inside, c => stepInside quote c
  | .backslash, c =>
    if isHexDigit c then some (.hex 5)
    else if c = '\r' then some .escapedReturn
    else some .inside
  | .escapedReturn, c => if c = '\n' then some .inside else stepInside quote c
  | .hex left, c =>
    if isHexDigit c && 0 < left then some (.hex (left - 1))
    else if c = '\r' then some .hexReturn
    else if isEscapeEnd c then some .inside
    else stepInside quote c
  | .hexReturn, c => if c = '\n' then some .inside else stepInside quote c
  | .closed, _ => none

def final : State → Bool
  | .closed => true
  | .inside | .backslash | .escapedReturn | .hex _ | .hexReturn => false

def automaton : Automaton State := ⟨step quote, final⟩

def quotation? : Text → Option (Text × Text)
  | c :: t =>
    if c = '"' ∨ c = '\'' then
      ((automaton c).longest? .inside t).map fun (w, rest) => (c :: w, rest)
    else none
  | [] => none

theorem quotation?_append {t w rest : Text} (h : quotation? t = some (w, rest)) :
    t = w ++ rest := by
  cases t with
  | nil => simp [quotation?] at h
  | cons c t =>
    simp only [quotation?, Option.ite_none_right_eq_some, Option.map_eq_some_iff, Prod.exists,
      Prod.mk.injEq] at h
    obtain ⟨-, w', rest', hw, rfl, rfl⟩ := h
    simp [(automaton c).longest?_append hw]

end Quotation

end SelectorClauses
