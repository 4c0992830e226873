import Mathlib.Data.List.Nodup
import SelectorClauses.Catalogue.Basic
import SelectorClauses.Proofs.Text.Trimming

/-!
What is found in a catalogue. A catalogue is sound if each entry is the parsed selector of a trimmed
key and no registry has a key twice. Main statements: what is found stands at its place under its
key (`find?_eq_some`), in a sound catalogue each entry is found by its key
(`Sound.find?_of_getElem?`), and later entries do not change that (`find?_mono`).
-/
namespace SelectorClauses

namespace Catalogue

structure Sound (c : Catalogue) : Prop where
  parsed : ∀ r s, (r, s) ∈ c → tokenize s.source = .ok s.tokens
  trimmed : ∀ r s, (r, s) ∈ c → s.source.trim = s.source
  distinct : (c.map fun e => (e.1, e.2.source)).Nodup

theorem sound_nil : Sound [] := ⟨by simp, by simp, by simp⟩

theorem find?_eq_some {all : Catalogue} {r : Registry} {key : Text} {h : Handle}
    (found : all.find? r key = some h) :
    all[h.serial]? = some (r, h.selector) ∧ h.selector.source = key := by
  obtain ⟨⟨⟨r', s⟩, i⟩, first, same⟩ := Option.map_eq_some_iff.mp found
  have holds := List.find?_some first
  have place := List.mk_mem_zipIdx_iff_getElem?.mp (List.mem_of_find?_eq_some first)
  simp only [Bool.and_eq_true, beq_iff_eq] at holds
  obtain ⟨rfl, rfl⟩ := holds
  subst same
  exact ⟨place, rfl⟩

theorem find?_eq_none_iff {c : Catalogue} {r : Registry} {key : Text} :
    c.find? r key = none ↔ ∀ s, (r, s) ∈ c → s.source ≠ key := by
  rw [find?, Option.map_eq_none_iff, List.find?_eq_none]
  constructor
  · intro absent s mem same
    obtain ⟨i, place⟩ := List.getElem?_of_mem mem
    exact absent ((r, s), i) (List.mk_mem_zipIdx_iff_getElem?.mpr place) (by simp [same])
  · intro absent e mem holds
    obtain ⟨⟨r', s⟩, i⟩ := e
    simp only [Bool.and_eq_true, beq_iff_eq] at holds
    obtain ⟨rfl, same⟩ := holds
    have place := List.mk_mem_zipIdx_iff_getElem?.mp mem
    exact absent s (List.mem_of_getElem? place) same

theorem find?_append {c : Catalogue} {r : Registry} {key : Text} {h : Handle}
    (found : c.find? r key = some h) (more : Catalogue) : (c ++ more).find? r key = some h := by
  obtain ⟨e, first, same⟩ := Option.map_eq_some_iff.mp found
  rw [find?, List.zipIdx_append, List.find?_append, first]
  simpa using same

theorem find?_mono {c d : Catalogue} {r : Registry} {key : Text} {h : Handle}
    (found : c.find? r key = some h) (longer : c <+: d) : d.find? r key = some h := by
  obtain ⟨more, rfl⟩ := longer
  exact find?_append found more

theorem Sound.find?_of_getElem? {all : Catalogue} (sound : all.Sound) {r : Registry}
    {s : Selector} {i : Nat} (place : all[i]? = some (r, s)) :
    all.find? r s.source = some ⟨i, s⟩ := by
  cases found : all.find? r s.source with
  | none => exact absurd rfl (find?_eq_none_iff.mp found s (List.mem_of_getElem? place))
  | some h =>
    obtain ⟨place', key⟩ := find?_eq_some found
    have inside : i < (all.map fun e => (e.1, e.2.source)).length := by
      simpa using (List.getElem?_eq_some_iff.mp place).1
    have same : i = h.serial := by
      apply (List.getElem?_inj inside sound.distinct).mp
      simp [place, place', key]
    subst same
    have equal : s = h.selector := by
      rw [place] at place'
      exact (Prod.mk.inj (Option.some.inj place')).2
    rw [equal]

theorem Sound.parse_eq {c : Catalogue} (sound : c.Sound) {r : Registry} {key : Text} {h : Handle}
    (found : c.find? r key = some h) : Selector.parse key = .ok h.selector := by
  obtain ⟨place, rfl⟩ := find?_eq_some found
  rw [Selector.parse, sound.parsed r h.selector (List.mem_of_getElem? place)]
  rfl

theorem handle_eq_iff {c : Catalogue} {r r' : Registry} {key key' : Text} {g h : Handle}
    (first : c.find? r key = some g) (second : c.find? r' key' = some h) :
    (g.serial = h.serial ↔ r = r' ∧ key = key') ∧ (g.serial = h.serial → g = h) := by
  obtain ⟨place, rfl⟩ := find?_eq_some first
  obtain ⟨place', rfl⟩ := find?_eq_some second
  have equal : g.serial = h.serial → r = r' ∧ g = h := by
    intro same
    rw [same, place'] at place
    obtain ⟨registry, selector⟩ := Prod.mk.inj (Option.some.inj place)
    obtain ⟨serial, _⟩ := g
    obtain ⟨serial', _⟩ := h
    simp_all
  refine ⟨⟨?_, ?_⟩, fun same => (equal same).2⟩
  · intro same
    exact ⟨(equal same).1, congrArg (fun g => g.selector.source) (equal same).2⟩
  · intro same
    obtain ⟨rfl, key⟩ := same
    rw [key, second] at first
    rw [Option.some.inj first]

/- Keys. -/

theorem keys_append (c d : Catalogue) (r : Registry) : (c ++ d).keys r = c.keys r ++ d.keys r := by
  simp [keys, selectors]

theorem keys_singleton (r r' : Registry) (s : Selector) :
    keys [(r, s)] r' = if r = r' then [s.source] else [] := by
  by_cases same : r = r' <;> simp [keys, selectors, same]

theorem mem_keys_iff {c : Catalogue} {r : Registry} {key : Text} :
    key ∈ c.keys r ↔ ∃ s, (r, s) ∈ c ∧ s.source = key := by
  simp only [keys, selectors, List.mem_map, List.mem_filterMap, Prod.exists,
    Option.ite_none_right_eq_some, Option.some.injEq]
  constructor
  · intro h
    obtain ⟨s, ⟨r', s', mem, rfl, rfl⟩, key⟩ := h
    exact ⟨s', mem, key⟩
  · intro h
    obtain ⟨s, mem, key⟩ := h
    exact ⟨s, ⟨r, s, mem, rfl, rfl⟩, key⟩

theorem find?_eq_none_iff_keys {c : Catalogue} {r : Registry} {key : Text} :
    c.find? r key = none ↔ key ∉ c.keys r := by
  rw [find?_eq_none_iff, mem_keys_iff]
  simp

theorem contains_iff {c : Catalogue} {r : Registry} {source : Value} :
    c.contains r source = true ↔ keyOf source ∈ c.keys r := by
  rw [contains, Option.isSome_iff_ne_none, ne_eq, find?_eq_none_iff_keys, not_not]

theorem contains_eq_false_iff {c : Catalogue} {r : Registry} {source : Value} :
    c.contains r source = false ↔ c.find? r (keyOf source) = none := by simp [contains]

theorem keys_mono {c d : Catalogue} (longer : c <+: d) (r : Registry) : c.keys r <+: d.keys r := by
  obtain ⟨more, rfl⟩ := longer
  rw [keys_append]
  exact List.prefix_append _ _

theorem Sound.nodup_keys {c : Catalogue} (sound : c.Sound) (r : Registry) : (c.keys r).Nodup := by
  have pairs : c.keys r = (c.map fun e => (e.1, e.2.source)).filterMap
      fun e => if e.1 = r then some e.2 else none := by
    rw [keys, selectors, List.map_filterMap, List.filterMap_map]
    congr 1
    funext e
    by_cases same : e.1 = r <;> simp [same]
  rw [pairs]
  apply sound.distinct.filterMap
  intro e e' key mem mem'
  simp only [Option.mem_def, Option.ite_none_right_eq_some, Option.some.injEq] at mem mem'
  exact Prod.ext (mem.1.trans mem'.1.symm) (mem.2.trans mem'.2.symm)

end Catalogue

end SelectorClauses
