import SelectorClauses.Value.Display

/-!
Refusals: what a caller can ask for and cannot have.
-/
namespace SelectorClauses

inductive Refusal
  | unknownKind (kind : Value)
  | noPattern (kind : Value)
  | immutable (what : Text)

namespace Refusal

def message : Refusal → Text
  | .unknownKind kind => "Unknown token kind: ".toList ++ kind.quoted
  | .noPattern kind => kind.quoted
  | .immutable what => what ++ " is immutable".toList

/-- Fields of tokens and selectors cannot be set or deleted, whatever their name. -/
def ofTokenChange : Refusal := .immutable "Token".toList

def ofSelectorChange : Refusal := .immutable "Selector".toList

end Refusal

end SelectorClauses
