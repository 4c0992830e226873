import SelectorClauses.Fault
import SelectorClauses.Text.Quoted

/-!
The journal: what is noted while selectors are looked up and texts are split.
-/
namespace SelectorClauses

inductive Entry
  | parsing (key : Text)
  | rejected (key : Text) (reason : SelectorError)
  | noToken (position : Int) (source : Text)
deriving DecidableEq, Repr

namespace Entry

def channel : Entry → Text
  | .parsing _ | .rejected _ _ => "simplesel.selector".toList
  | .noToken _ _ => "simplesel.tokenizer".toList

def message : Entry → Text
  | .parsing key => "Parsing selector ".toList ++ key.quoted
  | .rejected key reason =>
    "Rejected selector ".toList ++ key.quoted ++ ": ".toList ++ reason.message
  | .noToken position source =>
    "No token matches at offset ".toList ++ Text.ofInt position ++ " of ".toList ++ source.quoted

/-- Splitting a text notes where nothing could be read; an unclosed negation is not noted. -/
def ofFault (source : Text) : Fault → List Entry
  | .unrecognizedSyntax _ position => [.noToken position source]
  | .unterminatedNegation _ _ => []

end Entry

end SelectorClauses
