import SelectorClauses.Text.Basic

/-!
Values that a caller may hand over in place of a text: the values of a data format.
-/
namespace SelectorClauses

inductive Value
  | null
  | bool (b : Bool)
  | int (n : Int)
  | real (x : Float)
  | text (t : Text)
  | list (vs : List Value)
  | record (fields : List (Text × Value))

namespace Value

def truthy : Value → Bool
  | .null => false
  | .bool b => b
  | .int n => n != 0
  | .real x => x != 0
  | .text t => !t.isEmpty
  | .list vs => !vs.isEmpty
  | .record fields => !fields.isEmpty

end Value

end SelectorClauses
