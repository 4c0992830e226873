import SelectorClauses.Proofs.Catalogue.Operations

/-!
The identity of selectors. Main statement: `run_is_canonical` says that in every run a registry has
one selector for each trimmed key that succeeded, the same at every later moment, and that its keys
are listed in the order in which they first succeeded.
-/
namespace SelectorClauses

namespace Catalogue

/-- The catalogue that look-ups leave, from the start. An operation is its look-ups, so the moments
of a run are those behind the first so many of the look-ups that it answers. -/
def afterLookups (ls : List Lookup) : Catalogue := (getEach [] (ls.map Lookup.request)).1

/-- What holds of the selectors at the end of a run and at each moment before. -/
structure Canonical (os : List Operation) : Prop where
  same_iff : ∀ l ∈ answeredIn [] os, ∀ m ∈ answeredIn [] os, ∀ g h,
    l.result = .ok g → m.result = .ok h →
      (g.serial = h.serial ↔ l.registry = m.registry ∧ l.key = m.key) ∧
      (g.serial = h.serial → g = h)
  again : ∀ l ∈ answeredIn [] os, ∀ h, l.result = .ok h → ∀ source : Value,
    (source.display = h.selector.source ∨ ∃ pre post, Text.AllBlank pre ∧ Text.AllBlank post ∧
      source.display = pre ++ l.source.display ++ post) →
      (runAfter [] os).get l.registry source = ⟨.ok h, runAfter [] os, []⟩
  end_eq : runAfter [] os = afterLookups (answeredIn [] os)
  keys_eq : ∀ past, past <+: answeredIn [] os → ∀ r,
    (afterLookups past).keys r = (successes r past).eraseDups
  contains_iff : ∀ past, past <+: answeredIn [] os → ∀ r source,
    (afterLookups past).contains r source = true ↔
      ∃ l ∈ past, l.registry = r ∧ l.key = keyOf source ∧ ∃ h, l.result = .ok h
  kept : ∀ past, past <+: answeredIn [] os →
    afterLookups past <+: runAfter [] os ∧
      ∀ r, (afterLookups past).keys r <+: (runAfter [] os).keys r
  stored_iff : ∀ i r s, (runAfter [] os)[i]? = some (r, s) ↔
    ∃ l ∈ answeredIn [] os, l.registry = r ∧ l.result = .ok ⟨i, s⟩

section Run

variable {os : List Operation}

theorem find?_runAfter {l : Lookup} (mem : l ∈ answeredIn [] os) {h : Handle}
    (ok : l.result = .ok h) : (runAfter [] os).find? l.registry l.key = some h := by
  rw [answeredIn_eq] at mem
  rw [runAfter_eq]
  exact find?_of_mem_lookups mem ok

theorem get_runAfter_again {l : Lookup} (mem : l ∈ answeredIn [] os) {h : Handle}
    (ok : l.result = .ok h) {source : Value} (same : keyOf source = l.key) :
    (runAfter [] os).get l.registry source = ⟨.ok h, runAfter [] os, []⟩ := by
  rw [answeredIn_eq] at mem
  rw [runAfter_eq]
  exact get_after_success mem ok same

theorem source_of_mem_answeredIn {l : Lookup} (mem : l ∈ answeredIn [] os) {h : Handle}
    (ok : l.result = .ok h) :
    h.selector.source = l.key ∧ h.selector.source.trim = h.selector.source := by
  obtain ⟨place, key⟩ := find?_eq_some (find?_runAfter mem ok)
  exact ⟨key, (sound_runAfter os).trimmed _ _ (List.mem_of_getElem? place)⟩

theorem runAfter_eq_afterLookups (os : List Operation) :
    runAfter [] os = afterLookups (answeredIn [] os) := by
  rw [runAfter_eq, afterLookups, answeredIn_eq, map_request_lookups]

theorem longer_afterLookups {past : List Lookup} (moment : past <+: answeredIn [] os) :
    afterLookups past <+: runAfter [] os := by
  obtain ⟨rest, all⟩ := moment
  rw [runAfter_eq_afterLookups, ← all, afterLookups, afterLookups, List.map_append, getEach_append]
  exact longer_getEach _ _

theorem keys_afterLookups {past : List Lookup} (moment : past <+: answeredIn [] os)
    (r : Registry) : (afterLookups past).keys r = (successes r past).eraseDups := by
  have answers : lookups [] (past.map Lookup.request) = past := by
    rw [answeredIn_eq] at moment
    exact lookups_of_prefix moment
  have start : keys [] r = ([] : List Text).eraseDups := rfl
  have keys := keys_getEach start (past.map Lookup.request)
  rwa [answers] at keys

theorem contains_afterLookups_iff {past : List Lookup} (moment : past <+: answeredIn [] os)
    {r : Registry} {source : Value} :
    (afterLookups past).contains r source = true ↔
      ∃ l ∈ past, l.registry = r ∧ l.key = keyOf source ∧ ∃ h, l.result = .ok h := by
  rw [contains_iff, keys_afterLookups moment, List.mem_eraseDups, mem_successes_iff]

theorem getElem?_runAfter_iff {i : Nat} {r : Registry} {s : Selector} :
    (runAfter [] os)[i]? = some (r, s) ↔
      ∃ l ∈ answeredIn [] os, l.registry = r ∧ l.result = .ok ⟨i, s⟩ := by
  constructor
  · intro place
    -- the key of an entry was looked up with success, and what was found is the entry itself
    have key_stored : s.source ∈ (runAfter [] os).keys r :=
      mem_keys_iff.mpr ⟨s, List.mem_of_getElem? place, rfl⟩
    rw [runAfter_eq_afterLookups, keys_afterLookups (List.prefix_refl _), List.mem_eraseDups,
      mem_successes_iff] at key_stored
    obtain ⟨l, mem, rfl, key, h, ok⟩ := key_stored
    have found := find?_runAfter mem ok
    rw [key, (sound_runAfter os).find?_of_getElem? place] at found
    exact ⟨l, mem, rfl, ok.trans (congrArg Except.ok (Option.some.inj found).symm)⟩
  · intro returned
    obtain ⟨l, mem, rfl, ok⟩ := returned
    exact (find?_eq_some (find?_runAfter mem ok)).1

end Run

/-- In every run, through whatever entry points, the identity of a selector is a matter of its
registry and its trimmed key. -/
theorem run_is_canonical (os : List Operation) : Canonical os where
  same_iff l mem m mem' g h ok ok' :=
    handle_eq_iff (find?_runAfter mem ok) (find?_runAfter mem' ok')
  again l mem h ok source asked := by
    obtain ⟨key, trimmed⟩ := source_of_mem_answeredIn mem ok
    apply get_runAfter_again mem ok
    rcases asked with shown | ⟨pre, post, blank, blank', padded⟩
    · exact (keyOf_eq_of_shown trimmed shown).trans key
    · exact keyOf_eq_of_padded blank blank' padded
  end_eq := runAfter_eq_afterLookups os
  keys_eq past moment r := keys_afterLookups moment r
  contains_iff past moment r source := contains_afterLookups_iff moment
  kept past moment := ⟨longer_afterLookups moment, keys_mono (longer_afterLookups moment)⟩
  stored_iff i r s := getElem?_runAfter_iff

end Catalogue

end SelectorClauses
