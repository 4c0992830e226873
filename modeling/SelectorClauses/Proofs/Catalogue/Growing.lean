import SelectorClauses.Proofs.Catalogue.Frame

/-!
Looking up every key of a registry with a suffix, which puts keys behind those that are gone over. Main
statement: `growing_is_safe` says that the look-ups are those of the keys at the start and no others, that
each is answered as if it stood alone, and which keys are there afterwards.
-/
namespace SelectorClauses

namespace Catalogue

def getsOf (r : Registry) (suffix : Text) (ks : List Text) : List Operation :=
  ks.map fun key => .get r (.text (key ++ suffix))

structure SafeGrowth (c : Catalogue) (r : Registry) (suffix : Text) : Prop where
  asked : (c.grow r suffix).1.map Prod.fst = c.keys r
  gets : (c.run (getsOf r suffix (c.keys r))).map Step.reply =
      (c.grow r suffix).1.map (fun p => .handle p.2) ∧
    c.runAfter (getsOf r suffix (c.keys r)) = (c.grow r suffix).2.1 ∧
    (c.run (getsOf r suffix (c.keys r))).flatMap Step.journal = (c.grow r suffix).2.2
  answers : ∀ p ∈ (c.grow r suffix).1,
    p.2.map Handle.selector = Selector.parse (p.1 ++ suffix).trim
  keys_eq : (c.grow r suffix).2.1.keys r = c.keys r ++
    (((c.keys r).map fun key => (key ++ suffix).trim).filter fun t =>
      (tokenize t).isOk && !(c.keys r).contains t).eraseDups
  blank : Text.AllBlank suffix → (c.grow r suffix).2 = (c, []) ∧
    ∀ p ∈ (c.grow r suffix).1, ∃ h, c.find? r p.1 = some h ∧ p.2 = .ok h

/- The look-ups. -/

theorem map_fst_growFrom (c : Catalogue) (r : Registry) (suffix : Text) (ks : List Text) :
    (c.growFrom r suffix ks).1.map Prod.fst = ks := by
  induction ks generalizing c with
  | nil => rfl
  | cons key ks ih => simp only [growFrom, List.map_cons, ih]

theorem run_getsOf (c : Catalogue) (r : Registry) (suffix : Text) (ks : List Text) :
    (c.run (getsOf r suffix ks)).map Step.reply =
        (c.growFrom r suffix ks).1.map (fun p => .handle p.2) ∧
      c.runAfter (getsOf r suffix ks) = (c.growFrom r suffix ks).2.1 ∧
      (c.run (getsOf r suffix ks)).flatMap Step.journal = (c.growFrom r suffix ks).2.2 := by
  induction ks generalizing c with
  | nil => exact ⟨rfl, rfl, rfl⟩
  | cons key ks ih =>
    -- the first look-up is a step, and the others go on from what it leaves
    have first : c.step (.get r (.text (key ++ suffix))) = stepOf (c.get r (.text (key ++ suffix))) := rfl
    obtain ⟨replies, after, journal⟩ := ih (c.get r (.text (key ++ suffix))).after
    refine ⟨?_, after, ?_⟩
    · rw [getsOf, List.map_cons, run_cons, List.map_cons, first]
      exact congrArg (List.cons _) replies
    · rw [getsOf, List.map_cons, run_cons, List.flatMap_cons, first]
      exact congrArg (_ ++ ·) journal

/- Answers and keys. -/

theorem Sound.succeeded_eq {c : Catalogue} (sound : c.Sound) {xs : List Request} {l : Lookup}
    (mem : l ∈ c.lookups xs) : l.succeeded = (tokenize l.key).isOk :=
  calc l.succeeded
    _ = (l.result.map Handle.selector).isOk := by
      unfold Lookup.succeeded
      cases l.result <;> rfl
    _ = (Selector.parse l.key).isOk := by rw [sound.result_eq_of_mem_lookups mem]
    _ = (tokenize l.key).isOk := by
      rw [Selector.parse]
      cases tokenize l.key <;> rfl

theorem Sound.successes_eq {c : Catalogue} (sound : c.Sound) {r : Registry} {xs : List Request}
    (same : ∀ x ∈ xs, x.1 = r) :
    successes r (c.lookups xs) = (xs.map fun x => keyOf x.2).filter fun key => (tokenize key).isOk := by
  have keys : xs.map (fun x => keyOf x.2) = (c.lookups xs).map Lookup.key := by
    conv => lhs; rw [← map_request_lookups c xs, List.map_map]
    rfl
  have succeeds : ∀ l ∈ c.lookups xs,
      (decide (l.registry = r) && l.succeeded) = (tokenize l.key).isOk := by
    intro l mem
    have request : l.request ∈ xs := by
      rw [← map_request_lookups c xs]
      exact List.mem_map_of_mem mem
    have registry : l.registry = r := same _ request
    simp [sound.succeeded_eq mem, registry]
  rw [successes, keys, List.filter_map, List.filter_congr succeeds]
  rfl

theorem eraseDups_of_nodup {ts : List Text} (distinct : ts.Nodup) : ts.eraseDups = ts := by
  induction ts with
  | nil => rfl
  | cons t ts ih =>
    obtain ⟨new, others⟩ := List.nodup_cons.mp distinct
    have kept : ∀ u ∈ ts, (!u == t) = true := by
      intro u mem
      simpa using ne_of_mem_of_not_mem mem new
    rw [List.eraseDups_cons, List.filter_eq_self.mpr kept, ih others]

theorem Sound.keys_getEach_eq {c : Catalogue} (sound : c.Sound) {r : Registry} {xs : List Request}
    (same : ∀ x ∈ xs, x.1 = r) :
    (c.getEach xs).1.keys r = c.keys r ++ ((xs.map fun x => keyOf x.2).filter fun key =>
      (tokenize key).isOk && !(c.keys r).contains key).eraseDups := by
  have distinct : (c.keys r).eraseDups = c.keys r := eraseDups_of_nodup (sound.nodup_keys r)
  rw [keys_getEach distinct.symm xs, List.eraseDups_append, distinct, sound.successes_eq same,
    List.removeAll, List.filter_filter]
  simp only [List.elem_eq_contains, Bool.and_comm]

/- A suffix of blanks. -/

theorem growFrom_of_found {c : Catalogue} {r : Registry} {suffix : Text} {ks : List Text}
    (found : ∀ key ∈ ks, ∃ h, c.find? r key = some h)
    (same : ∀ key ∈ ks, keyOf (.text (key ++ suffix)) = key) :
    (c.growFrom r suffix ks).2 = (c, []) ∧
      ∀ p ∈ (c.growFrom r suffix ks).1, ∃ h, c.find? r p.1 = some h ∧ p.2 = .ok h := by
  induction ks with
  | nil => exact ⟨rfl, by simp [growFrom]⟩
  | cons key ks ih =>
    obtain ⟨⟨h, there⟩, others⟩ := List.forall_mem_cons.mp found
    obtain ⟨key_eq, others_eq⟩ := List.forall_mem_cons.mp same
    obtain ⟨after, answers⟩ := ih others others_eq
    have hit : c.get r (.text (key ++ suffix)) = ⟨.ok h, c, []⟩ := by
      apply get_of_find?
      rw [key_eq, there]
    simp only [growFrom, hit, after, List.append_nil, true_and]
    exact List.forall_mem_cons.mpr ⟨⟨h, there, rfl⟩, answers⟩

theorem Sound.keyOf_append_blank {c : Catalogue} (sound : c.Sound) {r : Registry} {key suffix : Text}
    (mem : key ∈ c.keys r) (blank : Text.AllBlank suffix) : keyOf (.text (key ++ suffix)) = key := by
  obtain ⟨s, stored, rfl⟩ := mem_keys_iff.mp mem
  have padded := Text.trim_pad Text.allBlank_nil blank s.source
  exact padded.trans (sound.trimmed r s stored)

theorem exists_find?_of_mem_keys {c : Catalogue} {r : Registry} {key : Text} (mem : key ∈ c.keys r) :
    ∃ h, c.find? r key = some h := by
  rw [← Option.isSome_iff_exists, Option.isSome_iff_ne_none]
  intro absent
  exact find?_eq_none_iff_keys.mp absent mem

theorem growing_is_safe (os : List Operation) (r : Registry) (suffix : Text) :
    SafeGrowth (runAfter [] os) r suffix := by
  have sound := sound_runAfter os
  generalize runAfter [] os = c at sound ⊢
  obtain ⟨after, answers⟩ := growFrom_eq c r suffix (c.keys r)
  constructor
  · exact map_fst_growFrom c r suffix (c.keys r)
  · exact run_getsOf c r suffix (c.keys r)
  · intro p mem
    have answered : (⟨r, .text (p.1 ++ suffix), p.2⟩ : Lookup) ∈ c.lookups _ :=
      answers ▸ List.mem_map_of_mem mem
    exact sound.result_eq_of_mem_lookups answered
  · rw [grow, after, sound.keys_getEach_eq (by simp), List.map_map]
    rfl
  · intro blank
    apply growFrom_of_found
    · intro key mem
      exact exists_find?_of_mem_keys mem
    · intro key mem
      exact sound.keyOf_append_blank mem blank

end Catalogue

end SelectorClauses
