import SelectorClauses.Cursor
import SelectorClauses.Text.NameSet

/-!
Selectors: a source text that splits into tokens, with the names of the attributes it depends on.
-/
namespace SelectorClauses

def attributesOf (ts : List Token) : NameSet := NameSet.ofList (ts.filterMap Token.attribute?)

structure Selector where
  source : Text
  tokens : List Token
deriving DecidableEq, Repr

namespace Selector

def attributes (s : Selector) : NameSet := attributesOf s.tokens

def ofTokens (source : Text) : Except Fault (List Token) → Except SelectorError Selector
  | .ok tokens => .ok ⟨source, tokens⟩
  | .error f => .error (.construction source (.fault f))

def parse (source : Text) : Except SelectorError Selector := ofTokens source (tokenize source)

theorem parse_eq_ok_iff {source : Text} {s : Selector} :
    parse source = .ok s ↔ s.source = source ∧ tokenize source = .ok s.tokens := by
  rw [parse]
  cases tokenize source with
  | ok ts =>
    obtain ⟨source', ts'⟩ := s
    simp [ofTokens, eq_comm]
  | error f => simp [ofTokens]

theorem parse_eq_error_iff {source : Text} {e : SelectorError} :
    parse source = .error e ↔
      ∃ f, tokenize source = .error f ∧ e = .construction source (.fault f) := by
  rw [parse]
  cases tokenize source with
  | ok ts => simp [ofTokens]
  | error f => simp [ofTokens, eq_comm]

theorem parse_of_tokenize_ok {source : Text} {ts : List Token} (read : tokenize source = .ok ts) :
    parse source = .ok ⟨source, ts⟩ := parse_eq_ok_iff.mpr ⟨rfl, read⟩

theorem parse_of_tokenize_error {source : Text} {f : Fault} (fault : tokenize source = .error f) :
    parse source = .error (.construction source (.fault f)) :=
  parse_eq_error_iff.mpr ⟨f, fault, rfl⟩

def describe (s : Selector) : Text := "Selector(".toList ++ s.source.quoted ++ [')']

/-- Asks a host element whether it matches: the host sees the source text, and its answer is the
answer. -/
def matchesHost {m : Type → Type} {Answer : Type} (s : Selector) (host : Text → m Answer) :
    m Answer :=
  host s.source

end Selector

end SelectorClauses
