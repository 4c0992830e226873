import SelectorClauses.Grammar.Clause
import SelectorClauses.Text.Quoted

/-!
Tokens: a clause as it stood in a text, plain or under a negation. `Token.ofClause` is the token
of a clause; its value is exactly the text that the clause took up.
-/
namespace SelectorClauses

structure Token where
  kind : Kind
  value : Text
  data : Text
  negated : Bool
  operator : Option Text
  operand : Option Text
deriving DecidableEq, Repr

namespace Token

def ofClause (negated : Bool) (c : Clause) : Token where
  kind := c.kind
  value := if negated then negationOpen ++ c.print ++ [negationClose] else c.print
  data := c.name
  negated := negated
  operator := c.test?.map fun t => t.operator.print
  operand := c.test?.map Test.operand

def length (t : Token) : Nat := t.value.length

/-- The attribute of an element that a clause depends on, given its kind and data. -/
def attributeOf (data : Text) : Kind → Option Text
  | .tag => none
  | .id => some ['i', 'd']
  | .cls => some ['c', 'l', 'a', 's', 's']
  | .attr => some data

def attribute? (t : Token) : Option Text := attributeOf t.data t.kind

def alike (s t : Token) : Bool :=
  s.kind == t.kind && s.value == t.value && s.negated == t.negated

def describeAs (label value : Text) (negated : Bool) : Text :=
  "Token(".toList ++ label ++ ", ".toList ++ value.quoted
    ++ (if negated then ", negated=True)".toList else ")".toList)

def describe (t : Token) : Text := describeAs t.kind.label t.value t.negated

theorem length_ofClause_pos {c : Clause} {negated : Bool} (h : c.print ≠ []) :
    0 < (ofClause negated c).length := by
  have := List.length_pos_iff.2 h
  cases negated with
  | false => simpa [ofClause, length] using this
  | true => simp [ofClause, length, negationOpen]

end Token

end SelectorClauses
