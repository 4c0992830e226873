import SelectorClauses.Decimal.Layout
import SelectorClauses.Text.Quoted
import SelectorClauses.Value.Basic

/-!
The display of a value. A text on its own displays as itself; inside a list or a record, and
wherever `quoted` is asked for, it is quoted.
-/
namespace SelectorClauses

namespace Value

mutual

def quoted : Value → Text
  | .null => "None".toList
  | .bool true => "True".toList
  | .bool false => "False".toList
  | .int n => Text.ofInt n
  | .real x => Decimal.text Decimal.standardLayout x
  | .text t => t.quoted
  | .list vs => '[' :: Text.join [',', ' '] (quotedItems vs) ++ [']']
  | .record fields => '\x7b' :: Text.join [',', ' '] (quotedFields fields) ++ ['\x7d']

def quotedItems : List Value → List Text
  | [] => []
  | v :: vs => quoted v :: quotedItems vs

def quotedFields : List (Text × Value) → List Text
  | [] => []
  | (k, v) :: fields => (k.quoted ++ [':', ' '] ++ quoted v) :: quotedFields fields

end

def display : Value → Text
  | .text t => t
  | v => v.quoted

end Value

end SelectorClauses
