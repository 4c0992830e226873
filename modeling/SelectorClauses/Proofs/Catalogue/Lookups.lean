import SelectorClauses.Proofs.Catalogue.Get

/-!
Look-ups one after another. Main statements: each of them is a single look-up in what the ones
before it left (`exists_of_mem_lookups`), what succeeded is returned again and what failed fails
again (`get_after_success`, `Sound.get_after_failure`), and the keys of a registry are those that
succeeded, each at its first success (`keys_getEach`).
-/
namespace SelectorClauses

structure Lookup where
  registry : Registry
  source : Value
  result : Except SelectorError Handle

namespace Lookup

def request (l : Lookup) : Catalogue.Request := (l.registry, l.source)

def key (l : Lookup) : Text := keyOf l.source

def succeeded (l : Lookup) : Bool :=
  match l.result with
  | .ok _ => true
  | .error _ => false

theorem succeeded_iff {l : Lookup} : l.succeeded = true ↔ ∃ h, l.result = .ok h := by
  unfold succeeded
  cases l.result <;> simp

end Lookup

namespace Catalogue

def lookups (c : Catalogue) : List Request → List Lookup
  | [] => []
  | (r, source) :: others =>
    ⟨r, source, (c.get r source).result⟩ :: (c.get r source).after.lookups others

def successes (r : Registry) (ls : List Lookup) : List Text :=
  (ls.filter fun l => l.registry = r && l.succeeded).map Lookup.key

theorem getEach_append (c : Catalogue) (xs ys : List Request) :
    c.getEach (xs ++ ys) =
      (((c.getEach xs).1.getEach ys).1, (c.getEach xs).2 ++ ((c.getEach xs).1.getEach ys).2) := by
  induction xs generalizing c with
  | nil => rfl
  | cons x xs ih =>
    obtain ⟨r, source⟩ := x
    simp only [List.cons_append, getEach, ih, List.append_assoc]

theorem getEach_concat (c : Catalogue) (others : List Request) (r : Registry) (source : Value) :
    c.getEach (others ++ [(r, source)]) =
      (((c.getEach others).1.get r source).after,
        (c.getEach others).2 ++ ((c.getEach others).1.get r source).journal) := by
  rw [getEach_append]
  simp only [getEach, List.append_nil]

theorem lookups_append (c : Catalogue) (xs ys : List Request) :
    c.lookups (xs ++ ys) = c.lookups xs ++ (c.getEach xs).1.lookups ys := by
  induction xs generalizing c with
  | nil => rfl
  | cons x xs ih =>
    obtain ⟨r, source⟩ := x
    simp only [List.cons_append, lookups, getEach, ih]

theorem map_request_lookups (c : Catalogue) (xs : List Request) :
    (c.lookups xs).map Lookup.request = xs := by
  induction xs generalizing c with
  | nil => rfl
  | cons x xs ih =>
    obtain ⟨r, source⟩ := x
    simp only [lookups, List.map_cons, ih, Lookup.request]

theorem longer_getEach (c : Catalogue) (xs : List Request) : c <+: (c.getEach xs).1 := by
  induction xs generalizing c with
  | nil => exact List.prefix_refl c
  | cons x xs ih =>
    obtain ⟨r, source⟩ := x
    exact (gets_get c r source).longer.trans (ih (c.get r source).after)

theorem Sound.getEach {c : Catalogue} (sound : c.Sound) (xs : List Request) :
    (c.getEach xs).1.Sound := by
  induction xs generalizing c with
  | nil => exact sound
  | cons x xs ih =>
    obtain ⟨r, source⟩ := x
    exact ih ((gets_get c r source).sound sound (trim_keyOf source))

theorem exists_of_mem_lookups {c : Catalogue} {xs : List Request} {l : Lookup}
    (mem : l ∈ c.lookups xs) :
    ∃ before behind, xs = before ++ l.request :: behind ∧
      l.result = ((c.getEach before).1.get l.registry l.source).result := by
  induction xs generalizing c with
  | nil => simp [lookups] at mem
  | cons x xs ih =>
    obtain ⟨r, source⟩ := x
    rcases List.mem_cons.mp mem with rfl | later
    · exact ⟨[], xs, rfl, rfl⟩
    · obtain ⟨before, behind, rfl, result⟩ := ih later
      exact ⟨(r, source) :: before, behind, rfl, result⟩

theorem Sound.result_eq_of_mem_lookups {c : Catalogue} (sound : c.Sound) {xs : List Request}
    {l : Lookup} (mem : l ∈ c.lookups xs) :
    l.result.map Handle.selector = Selector.parse l.key := by
  obtain ⟨before, -, -, result⟩ := exists_of_mem_lookups mem
  rw [result]
  exact (gets_get _ l.registry l.source).result_eq (sound.getEach before)

theorem find?_of_mem_lookups {c : Catalogue} {xs : List Request} {l : Lookup}
    (mem : l ∈ c.lookups xs) {h : Handle} (ok : l.result = .ok h) :
    (c.getEach xs).1.find? l.registry l.key = some h := by
  obtain ⟨before, behind, rfl, result⟩ := exists_of_mem_lookups mem
  have gets := gets_get (c.getEach before).1 l.registry l.source
  have found := gets.find?_after (result.symm.trans ok)
  rw [getEach_append]
  exact find?_mono found (longer_getEach _ behind)

theorem get_after_success {c : Catalogue} {xs : List Request} {l : Lookup}
    (mem : l ∈ c.lookups xs) {h : Handle} (ok : l.result = .ok h) {source : Value}
    (same : keyOf source = l.key) :
    (c.getEach xs).1.get l.registry source = ⟨.ok h, (c.getEach xs).1, []⟩ := by
  apply get_of_find?
  rw [same]
  exact find?_of_mem_lookups mem ok

theorem Sound.get_after_failure {c : Catalogue} (sound : c.Sound) {xs : List Request} {l : Lookup}
    (mem : l ∈ c.lookups xs) {e : SelectorError} (error : l.result = .error e) {source : Value}
    (same : keyOf source = l.key) :
    ∃ f, tokenize (keyOf source) = .error f ∧ (c.getEach xs).1.get l.registry source =
      ⟨.error e, (c.getEach xs).1, .parsing (keyOf source) :: Entry.ofFault (keyOf source) f ++
        [.rejected (keyOf source) (.fault f)]⟩ := by
  apply (sound.getEach xs).get_of_error
  have rejects := sound.result_eq_of_mem_lookups mem
  rw [error] at rejects
  rw [same]
  exact rejects.symm

theorem lookups_of_prefix {c : Catalogue} {xs : List Request} {past : List Lookup}
    (first : past <+: c.lookups xs) : c.lookups (past.map Lookup.request) = past := by
  obtain ⟨rest, all⟩ := first
  have requests : xs = past.map Lookup.request ++ rest.map Lookup.request := by
    rw [← List.map_append, all, map_request_lookups]
  have parts := lookups_append c (past.map Lookup.request) (rest.map Lookup.request)
  rw [← requests, ← all] at parts
  have long : past.length = (c.lookups (past.map Lookup.request)).length := by
    have := congrArg List.length (map_request_lookups c (past.map Lookup.request))
    simpa using this.symm
  exact (List.append_inj parts long).1.symm

/- Keys. -/

theorem successes_cons (r : Registry) (l : Lookup) (ls : List Lookup) :
    successes r (l :: ls) = successes r [l] ++ successes r ls := by
  rw [successes, ← List.singleton_append, List.filter_append, List.map_append]
  rfl

theorem mem_successes_iff {r : Registry} {ls : List Lookup} {key : Text} :
    key ∈ successes r ls ↔ ∃ l ∈ ls, l.registry = r ∧ l.key = key ∧ ∃ h, l.result = .ok h := by
  simp only [successes, List.mem_map, List.mem_filter, Bool.and_eq_true, decide_eq_true_eq,
    Lookup.succeeded_iff]
  constructor
  · intro there
    obtain ⟨l, ⟨mem, registry, ok⟩, key⟩ := there
    exact ⟨l, mem, registry, key, ok⟩
  · intro there
    obtain ⟨l, mem, registry, key, ok⟩ := there
    exact ⟨l, ⟨mem, registry, ok⟩, key⟩

theorem eraseDups_concat (ts : List Text) (t : Text) :
    (ts ++ [t]).eraseDups = if t ∈ ts then ts.eraseDups else ts.eraseDups ++ [t] := by
  rw [List.eraseDups_append]
  by_cases mem : t ∈ ts
  · simp [List.removeAll, mem]
  · simp [List.removeAll, mem, List.eraseDups_cons]

theorem keys_after_get {c : Catalogue} {r r' : Registry} {past : List Text}
    (before : c.keys r' = past.eraseDups) (source : Value) :
    (c.get r source).after.keys r' =
      (past ++ successes r' [⟨r, source, (c.get r source).result⟩]).eraseDups := by
  have gets := gets_get c r source
  generalize c.get r source = a at gets ⊢
  by_cases same : r = r'
  · subst same
    have absent_iff : c.find? r (keyOf source) = none ↔ keyOf source ∉ past := by
      rw [find?_eq_none_iff_keys, before, List.mem_eraseDups]
    cases gets with
    | found h there =>
      have mem : keyOf source ∈ past := by
        by_contra notMem
        rw [absent_iff.mpr notMem] at there
        cases there
      simp [successes, Lookup.key, Lookup.succeeded, eraseDups_concat, mem, before]
    | built ts absent read =>
      have notMem := absent_iff.mp absent
      simp [successes, Lookup.key, Lookup.succeeded, eraseDups_concat, notMem,
        keys_append, keys_singleton, before]
    | rejected f absent fault => simp [successes, Lookup.succeeded, before]
  · -- a look-up in another registry leaves the keys of this one as they are
    have other : a.after.keys r' = c.keys r' := by
      cases gets with
      | found h there => rfl
      | rejected f absent fault => rfl
      | built ts absent read => simp [keys_append, keys_singleton, same]
    simp [successes, same, other, before]

theorem keys_getEach {c : Catalogue} {r : Registry} {past : List Text}
    (before : c.keys r = past.eraseDups) (xs : List Request) :
    (c.getEach xs).1.keys r = (past ++ successes r (c.lookups xs)).eraseDups := by
  induction xs generalizing c past with
  | nil => simpa [getEach, lookups, successes] using before
  | cons x xs ih =>
    obtain ⟨r', source⟩ := x
    have first := keys_after_get (r := r') before source
    rw [lookups, successes_cons, ← List.append_assoc]
    exact ih first

end Catalogue

end SelectorClauses
