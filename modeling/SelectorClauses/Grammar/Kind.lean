import SelectorClauses.Text.Basic

/-!
The four kinds of clause, in the order in which they are tried, and their labels.
-/
namespace SelectorClauses

inductive Kind
  | tag
  | id
  | cls
  | attr
deriving DecidableEq, Repr

namespace Kind

def all : List Kind := [.tag, .id, .cls, .attr]

def label : Kind → Text
  | .tag => ['T', 'A', 'G']
  | .id => ['I', 'D']
  | .cls => ['C', 'L', 'A', 'S', 'S']
  | .attr => ['A', 'T', 'T', 'R']

def ofLabel? (t : Text) : Option Kind := all.find? fun k => k.label == t

theorem ofLabel?_label (k : Kind) : ofLabel? k.label = some k := by cases k <;> rfl

theorem label_injective {j k : Kind} (h : j.label = k.label) : j = k := by
  have := ofLabel?_label j
  rw [h, ofLabel?_label k] at this
  exact (Option.some.inj this).symm

end Kind

end SelectorClauses
