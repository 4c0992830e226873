import SelectorClauses.Grammar.Kind
import SelectorClauses.Grammar.Quotation

/-!
Clauses: a tag, an id behind a hash sign, a class behind a full stop, or an attribute in brackets
with an optional test of its value. `print` writes a clause and `read?` reads the longest one of
a kind at the start of a text. Main statement: what was read and the rest make up the text.
-/
namespace SelectorClauses

def negationOpen : Text := [':', 'n', 'o', 't', '(']

def negationClose : Char := ')'

inductive Operator
  | equal
  | includes
  | dashMatch
  | startsWith
  | endsWith
  | contains
deriving DecidableEq, Repr

namespace Operator

def all : List Operator := [.equal, .includes, .dashMatch, .startsWith, .endsWith, .contains]

def print : Operator → Text
  | .equal => ['=']
  | .includes => ['~', '=']
  | .dashMatch => ['|', '=']
  | .startsWith => ['^', '=']
  | .endsWith => ['$', '=']
  | .contains => ['*', '=']

def read? : Text → Option (Operator × Text)
  | '=' :: r => some (.equal, r)
  | '~' :: '=' :: r => some (.includes, r)
  | '|' :: '=' :: r => some (.dashMatch, r)
  | '^' :: '=' :: r => some (.startsWith, r)
  | '$' :: '=' :: r => some (.endsWith, r)
  | '*' :: '=' :: r => some (.contains, r)
  | _ => none

theorem read?_print (o : Operator) (r : Text) : read? (o.print ++ r) = some (o, r) := by
  cases o <;> rfl

theorem eq_print_of_read? {t r : Text} {o : Operator} (h : read? t = some (o, r)) :
    t = o.print ++ r := by
  unfold read? at h
  split at h <;> simp_all <;> obtain ⟨rfl, rfl⟩ := h <;> simp [print]

end Operator

structure Test where
  operator : Operator
  operand : Text
deriving DecidableEq, Repr

namespace Test

def print (t : Test) : Text := t.operator.print ++ t.operand

def operand? (t : Text) : Option (Text × Text) :=
  match Name.name? t with
  | some found => some found
  | none => Quotation.quotation? t

def read? (t : Text) : Option (Test × Text) := do
  let (operator, r) ← Operator.read? t
  let (operand, rest) ← operand? r
  return (⟨operator, operand⟩, rest)

theorem eq_print_of_read? {t r : Text} {s : Test} (h : read? t = some (s, r)) :
    t = s.print ++ r := by
  simp only [read?, Option.bind_eq_bind, Option.bind_eq_some_iff, Prod.exists, Option.pure_def,
    Option.some.injEq, Prod.mk.injEq] at h
  obtain ⟨o, u, ho, v, w, hv, rfl, rfl⟩ := h
  have hu : u = v ++ w := by
    unfold operand? at hv
    split at hv
    · next hn => exact Name.name?_append (hn.trans hv)
    · exact Quotation.quotation?_append hv
  simp [Operator.eq_print_of_read? ho, hu, print]

end Test

inductive Clause
  | tag (name : Text)
  | id (name : Text)
  | cls (name : Text)
  | attr (name : Text) (test : Option Test)
deriving DecidableEq, Repr

namespace Clause

def kind : Clause → Kind
  | .tag _ => .tag
  | .id _ => .id
  | .cls _ => .cls
  | .attr _ _ => .attr

def name : Clause → Text
  | .tag n | .id n | .cls n | .attr n _ => n

def test? : Clause → Option Test
  | .attr _ t => t
  | _ => none

def print : Clause → Text
  | .tag n => n
  | .id n => '#' :: n
  | .cls n => '.' :: n
  | .attr n none => '[' :: n ++ [']']
  | .attr n (some t) => '[' :: n ++ t.print ++ [']']

def attr? (t : Text) : Option (Clause × Text) := do
  let (n, r) ← Name.identifier? t
  match r with
  | ']' :: rest => return (.attr n none, rest)
  | _ =>
    let (s, u) ← Test.read? r
    match u with
    | ']' :: rest => return (.attr n (some s), rest)
    | _ => none

def read? : Kind → Text → Option (Clause × Text)
  | .tag, t => (Name.identifier? t).map fun (n, r) => (.tag n, r)
  | .id, '#' :: t => (Name.identifier? t).map fun (n, r) => (.id n, r)
  | .cls, '.' :: t => (Name.identifier? t).map fun (n, r) => (.cls n, r)
  | .attr, '[' :: t => attr? t
  | _, _ => none

theorem eq_print_of_attr? {t r : Text} {c : Clause} (h : attr? t = some (c, r)) :
    '[' :: t = c.print ++ r := by
  simp only [attr?, Option.bind_eq_bind, Option.bind_eq_some_iff, Prod.exists] at h
  obtain ⟨n, u, hn, h⟩ := h
  rw [Name.identifier?_append hn]
  split at h
  · simp only [Option.pure_def, Option.some.injEq, Prod.mk.injEq] at h
    obtain ⟨rfl, rfl⟩ := h
    simp [print]
  · simp only [Option.bind_eq_some_iff, Prod.exists] at h
    obtain ⟨s, v, hs, h⟩ := h
    split at h
    · simp only [Option.pure_def, Option.some.injEq, Prod.mk.injEq] at h
      obtain ⟨rfl, rfl⟩ := h
      simp [print, Test.eq_print_of_read? hs]
    · simp at h

theorem eq_print_of_read? {k : Kind} {t r : Text} {c : Clause} (h : read? k t = some (c, r)) :
    t = c.print ++ r := by
  unfold read? at h
  split at h <;> try
    (obtain ⟨⟨n, u⟩, hn, hc⟩ := Option.map_eq_some_iff.1 h
     obtain ⟨rfl, rfl⟩ := by simpa using hc
     simp [print, Name.identifier?_append hn])
  · exact eq_print_of_attr? h
  · simp at h

theorem kind_of_attr? {t r : Text} {c : Clause} (h : attr? t = some (c, r)) : c.kind = .attr := by
  simp only [attr?, Option.bind_eq_bind, Option.bind_eq_some_iff, Prod.exists] at h
  obtain ⟨n, u, -, h⟩ := h
  split at h
  · simp only [Option.pure_def, Option.some.injEq, Prod.mk.injEq] at h
    rw [← h.1]; rfl
  · simp only [Option.bind_eq_some_iff, Prod.exists] at h
    obtain ⟨s, v, -, h⟩ := h
    split at h
    · simp only [Option.pure_def, Option.some.injEq, Prod.mk.injEq] at h
      rw [← h.1]; rfl
    · simp at h

theorem kind_of_read? {k : Kind} {t r : Text} {c : Clause} (h : read? k t = some (c, r)) :
    c.kind = k := by
  unfold read? at h
  split at h <;> try
    (obtain ⟨⟨n, u⟩, hn, hc⟩ := Option.map_eq_some_iff.1 h
     obtain ⟨rfl, rfl⟩ := by simpa using hc
     rfl)
  · exact kind_of_attr? h
  · simp at h

theorem print_ne_nil_of_read? {k : Kind} {t r : Text} {c : Clause}
    (h : read? k t = some (c, r)) : c.print ≠ [] := by
  unfold read? at h
  split at h
  · obtain ⟨⟨n, u⟩, hn, hc⟩ := Option.map_eq_some_iff.1 h
    obtain ⟨rfl, rfl⟩ := by simpa using hc
    exact Name.identifier?_ne_nil hn
  · obtain ⟨⟨n, u⟩, -, hc⟩ := Option.map_eq_some_iff.1 h
    obtain ⟨rfl, rfl⟩ := by simpa using hc
    simp [print]
  · obtain ⟨⟨n, u⟩, -, hc⟩ := Option.map_eq_some_iff.1 h
    obtain ⟨rfl, rfl⟩ := by simpa using hc
    simp [print]
  · have hk := kind_of_attr? h
    cases c with
    | attr n test => cases test <;> simp [print]
    | _ => simp [kind] at hk
  · simp at h

end Clause

end SelectorClauses
