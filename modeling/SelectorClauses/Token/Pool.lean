import SelectorClauses.Selector
import SelectorClauses.Token.Labelled

/-!
A pool of tokens that callers make, compare and describe. The label of a pooled token can be
overwritten by any text; its attribute is then unknown unless the text is the label of a kind.
-/
namespace SelectorClauses

namespace Token

/-- Makes a token of any value and data; only the kind is checked. -/
def make (kind : Value) (value data : Text) (negated : Value) (operator operand : Option Text) :
    Except Refusal Token :=
  match Kind.ofValue? kind with
  | some k => .ok ⟨k, value, data, negated.truthy, operator, operand⟩
  | none => .error (.unknownKind kind)

end Token

structure Pooled where
  label : Text
  token : Token

namespace Pooled

def ofToken (t : Token) : Pooled := ⟨t.kind.label, t⟩

def attribute? (p : Pooled) : Except Refusal (Option Text) :=
  match Kind.ofLabel? p.label with
  | some k => .ok (Token.attributeOf p.token.data k)
  | none => .error (.unknownKind (.text p.label))

def identity (p : Pooled) : Text × Text × Bool := (p.label, p.token.value, p.token.negated)

def alike (p q : Pooled) : Bool := p.identity == q.identity

def describe (p : Pooled) : Text := Token.describeAs p.label p.token.value p.token.negated

end Pooled

abbrev Pool := List Pooled

namespace Pool

def add (pool : Pool) (ts : List Token) : Pool := pool ++ ts.map Pooled.ofToken

def relabel (pool : Pool) (i : Nat) (label : Text) : Pool :=
  pool.modify i fun p => { p with label }

def distinct (pool : Pool) : Nat := (pool.map Pooled.identity).eraseDups.length

def indexOf (pool : Pool) (p : Pooled) : Nat := pool.findIdx fun q => q.alike p

def attributes (pool : Pool) : Except Refusal NameSet :=
  (pool.mapM Pooled.attribute?).map fun names => NameSet.ofList (names.filterMap id)

end Pool

end SelectorClauses
