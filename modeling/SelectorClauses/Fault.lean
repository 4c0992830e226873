import SelectorClauses.Text.Basic

/-!
What can go wrong while a text is split into tokens, and the errors built around it. Each cause
has a code and a wording.
-/
namespace SelectorClauses

inductive Fault
  | unterminatedNegation (construct : Text) (position : Int)
  | unrecognizedSyntax (remainder : Text) (position : Int)
deriving DecidableEq, Repr

structure Unsearchable where
  position : Int
deriving DecidableEq, Repr

/-- What keeps a token from being read at a position: what stands there, or the position itself. -/
inductive ReadError
  | fault (fault : Fault)
  | unsearchable (refused : Unsearchable)
deriving DecidableEq, Repr

inductive SelectorError
  | plain (text : Text)
  | fault (fault : Fault)
  | construction (source : Text) (inner : SelectorError)
deriving DecidableEq, Repr, Inhabited

namespace Code

def unterminatedNegation : Text := "unterminated-negation".toList

def unrecognizedSyntax : Text := "unrecognized-syntax".toList

def constructionFailed : Text := "selector-construction-failed".toList

def selectorError : Text := "selector-error".toList

end Code

structure Particulars where
  construct : Text := []
  remainder : Text := []
  source : Text := []
  reason : Text := []
deriving DecidableEq, Repr

/-- The message of a code. A code without a wording of its own is its own message. -/
def wording (code : Text) (p : Particulars) : Text :=
  if code = Code.unterminatedNegation then
    "Expected close-parenthesis after '".toList ++ p.construct ++ ['\'']
  else if code = Code.unrecognizedSyntax then
    "Invalid or unsupported syntax near '".toList ++ p.remainder ++ ['\'']
  else if code = Code.constructionFailed then
    "Error in selector '".toList ++ p.source ++ "': ".toList ++ p.reason
  else code

namespace Fault

def code : Fault → Text
  | .unterminatedNegation _ _ => Code.unterminatedNegation
  | .unrecognizedSyntax _ _ => Code.unrecognizedSyntax

def message : Fault → Text
  | f@(.unterminatedNegation construct _) => wording f.code { construct }
  | f@(.unrecognizedSyntax remainder _) => wording f.code { remainder }

def position : Fault → Int
  | .unterminatedNegation _ p | .unrecognizedSyntax _ p => p

end Fault

namespace SelectorError

def code : SelectorError → Text
  | .plain _ => Code.selectorError
  | .fault f => f.code
  | .construction _ _ => Code.constructionFailed

def message : SelectorError → Text
  | .plain text => text
  | .fault f => f.message
  | .construction source inner =>
    wording Code.constructionFailed { source, reason := inner.message }

end SelectorError

end SelectorClauses
