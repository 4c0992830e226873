import SelectorClauses.Proofs.Catalogue.Operations
import SelectorClauses.Proofs.Tokenizing.Acceptance

/-!
Keeping selectors is not seen in the answers. Main statement: `lookups_are_fresh` says that every
look-up of a run, however it is asked for and whatever came before it, has the answer that parsing
its key gives on its own.
-/
namespace SelectorClauses

structure Lookup.IsFresh (l : Lookup) : Prop where
  parse_eq : l.result.map Handle.selector = Selector.parse l.key
  ok_iff : (∃ h, l.result = .ok h) ↔ Accepted l.key
  selector : ∀ h, l.result = .ok h → h.selector.source = l.key ∧
    tokenize l.key = .ok h.selector.tokens ∧
    h.selector.attributes = attributesOf h.selector.tokens
  error : ∀ e, l.result = .error e → ∃ f, tokenize l.key = .error f ∧
    e = .construction l.key (.fault f) ∧
    e.message = "Error in selector '".toList ++ l.key ++ "': ".toList ++ f.message

theorem Lookup.isFresh_of_parse_eq {l : Lookup}
    (same : l.result.map Handle.selector = Selector.parse l.key) : l.IsFresh := by
  have parse_ok : ∀ h, l.result = .ok h →
      h.selector.source = l.key ∧ tokenize l.key = .ok h.selector.tokens := by
    intro h ok
    rw [ok] at same
    exact Selector.parse_eq_ok_iff.mp same.symm
  have parse_error : ∀ e, l.result = .error e →
      ∃ f, tokenize l.key = .error f ∧ e = .construction l.key (.fault f) := by
    intro e error
    rw [error] at same
    exact Selector.parse_eq_error_iff.mp same.symm
  constructor
  · exact same
  · constructor
    · intro succeeds
      obtain ⟨h, ok⟩ := succeeds
      exact ⟨h.selector.tokens, (parse_ok h ok).2⟩
    · intro accepted
      obtain ⟨ts, read⟩ := accepted
      cases result : l.result with
      | ok h => exact ⟨h, rfl⟩
      | error e =>
        obtain ⟨f, fault, -⟩ := parse_error e result
        rw [read] at fault
        cases fault
  · intro h ok
    exact ⟨(parse_ok h ok).1, (parse_ok h ok).2, rfl⟩
  · intro e error
    obtain ⟨f, fault, rfl⟩ := parse_error e error
    exact ⟨f, fault, rfl, rfl⟩

namespace Catalogue

/-- In every state that a run leads to every look-up has the answer that parsing its key gives, and
so has every look-up that the run itself answered; the run answered all that it was asked. -/
theorem lookups_are_fresh (os : List Operation) :
    (∀ r source, (Lookup.mk r source ((runAfter [] os).get r source).result).IsFresh) ∧
      (answeredIn [] os).map Lookup.request = askedIn [] os ∧
      ∀ l ∈ answeredIn [] os, l.IsFresh := by
  refine ⟨?_, ?_, ?_⟩
  · intro r source
    apply Lookup.isFresh_of_parse_eq
    exact (gets_get (runAfter [] os) r source).result_eq (sound_runAfter os)
  · rw [answeredIn_eq, map_request_lookups]
  · intro l mem
    rw [answeredIn_eq] at mem
    exact Lookup.isFresh_of_parse_eq (sound_nil.result_eq_of_mem_lookups mem)

end Catalogue

end SelectorClauses
