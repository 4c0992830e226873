import SelectorClauses.Refusal
import SelectorClauses.Token.Reader

/-!
Reading for callers that name a kind by its label. Anything but the label of a kind is refused.
-/
namespace SelectorClauses

def Kind.ofValue? : Value → Option Kind
  | .text t => ofLabel? t
  | _ => none

def Clause.findLabelled (kind : Value) (source : Text) (position : Int) :
    Except Refusal (Except Unsearchable (Option Found)) :=
  match Kind.ofValue? kind with
  | some k => .ok (Clause.search k source position)
  | none => .error (.noPattern kind)

def Token.readLabelled (kind : Value) (source : Text) (position : Int) :
    Except Refusal (Except ReadError (Option Token)) :=
  match Kind.ofValue? kind with
  | some k => .ok (Token.readAt source position k)
  | none => .error (.noPattern kind)

end SelectorClauses
