import SelectorClauses.Proofs.Catalogue.Operations
import SelectorClauses.Proofs.Tokenizing.Acceptance

/-!
What an operation leaves alone. Main statement: `operations_are_framed` says that an operation changes
at most the registry that it addresses, and that one only by putting new keys behind the others; that
a look-up which fails changes nothing, so that neither itself nor anything later can tell that it was
made; and which registry a look-up through the class of selectors goes to.
-/
namespace SelectorClauses

/-- The registry that an operation addresses. A change of a selector addresses none. -/
def Operation.addressed? : Operation → Option Registry
  | .get r _ | .contendedGet r _ | .contains r _ | .size r | .keys r | .describe r | .grow r _ =>
    some r
  | .sharedGet _ => some .shared
  | .classGet r _ => some (r.getD .shared)
  | .change _ => none

inductive Operation.LooksUpShared (source : Value) : Operation → Prop
  | registry : LooksUpShared source (.get .shared source)
  | direct : LooksUpShared source (.sharedGet source)
  | throughClass : LooksUpShared source (.classGet none source)

/-- The same operation, or the same source looked up in the shared registry in another way. -/
def Operation.Interchangeable (o o' : Operation) : Prop :=
  o = o' ∨ ∃ source, o.LooksUpShared source ∧ o'.LooksUpShared source

namespace Catalogue

structure SameIn (r : Registry) (c d : Catalogue) : Prop where
  keys_eq : d.keys r = c.keys r
  find?_eq : ∀ key, d.find? r key = c.find? r key
  contains_eq : ∀ source, d.contains r source = c.contains r source

/-- A registry has one more key, a new one that splits into tokens and has no blanks at its ends;
the objects that it had are still there. -/
structure Appends (r : Registry) (key : Text) (c d : Catalogue) : Prop where
  absent : key ∉ c.keys r
  trimmed : key.trim = key
  accepted : Accepted key
  keys_eq : d.keys r = c.keys r ++ [key]
  kept : ∀ key' h, c.find? r key' = some h → d.find? r key' = some h

structure FramedGet (c : Catalogue) (r : Registry) (source : Value) : Prop where
  others : ∀ r', r' ≠ r → SameIn r' c (c.get r source).after
  added : c.contains r source = false → Accepted (keyOf source) →
    Appends r (keyOf source) c (c.get r source).after
  unchanged : c.contains r source = true ∨ ¬ Accepted (keyOf source) → (c.get r source).after = c
  failed : ∀ e, (c.get r source).result = .error e → (c.get r source).after = c

/-- What an operation changes in a catalogue, and what a failure leaves behind. -/
structure Framed (c : Catalogue) : Prop where
  others : ∀ o r, o.addressed? ≠ some r → SameIn r c (c.step o).after
  -- An operation comes to look-ups in the registry that it addresses, one at most unless it goes over
  -- all keys, and each of them changes what a look-up changes.
  asked : ∀ o, (c.step o).after = (c.getEach (c.asked o)).1 ∧
    ((∀ r suffix, o ≠ .grow r suffix) → (c.asked o).length ≤ 1) ∧
    ∀ before r source behind, c.asked o = before ++ (r, source) :: behind →
      o.addressed? = some r ∧ FramedGet (c.getEach before).1 r source
  -- What fails leaves everything as it was. Made again it fails again in the same way, however often,
  -- and whatever comes later goes as if it had never been made.
  failed : ∀ o e, (c.step o).reply = .handle (.error e) → (c.step o).after = c ∧
    (∀ n, c.run (List.replicate n o) = List.replicate n (c.step o)) ∧
    ∀ os, c.run (o :: os) = c.step o :: c.run os
  named : ∀ r source, c.step (.classGet (some r) source) = c.step (.get r source) ∧
    (r ≠ .shared → SameIn .shared c (c.step (.classGet (some r) source)).after) ∧
    (c.keys r = [] → Accepted (keyOf source) →
      (c.step (.classGet (some r) source)).after.keys r = [keyOf source])
  shared : ∀ os os', List.Forall₂ Operation.Interchangeable os os' → c.run os = c.run os'

/- Catalogues that agree on a registry. -/

theorem SameIn.refl (r : Registry) (c : Catalogue) : SameIn r c c :=
  ⟨rfl, fun _ => rfl, fun _ => rfl⟩

theorem SameIn.trans {r : Registry} {c d e : Catalogue} (first : SameIn r c d)
    (second : SameIn r d e) : SameIn r c e where
  keys_eq := second.keys_eq.trans first.keys_eq
  find?_eq key := (second.find?_eq key).trans (first.find?_eq key)
  contains_eq source := (second.contains_eq source).trans (first.contains_eq source)

theorem sameIn_append_other {r r' : Registry} (different : r' ≠ r) (c : Catalogue) (s : Selector) :
    SameIn r' c (c ++ [(r, s)]) := by
  have found : ∀ key, (c ++ [(r, s)]).find? r' key = c.find? r' key := by
    intro key
    simp [find?, List.zipIdx_append, List.find?_append, different.symm]
  constructor
  · simp [keys_append, keys_singleton, different.symm]
  · exact found
  · intro source
    rw [contains, contains, found]

/- One look-up. -/

theorem Gets.sameIn_other {c : Catalogue} {r r' : Registry} {key : Text} {a : Answer}
    (gets : Gets c r key a) (different : r' ≠ r) : SameIn r' c a.after := by
  cases gets with
  | found h there => exact SameIn.refl r' c
  | built ts absent read => exact sameIn_append_other different c _
  | rejected f absent fault => exact SameIn.refl r' c

theorem Gets.appends {c : Catalogue} {r : Registry} {key : Text} {a : Answer}
    (gets : Gets c r key a) (absent : c.find? r key = none) (trimmed : key.trim = key)
    (accepted : Accepted key) : Appends r key c a.after := by
  cases gets with
  | found h there =>
    rw [absent] at there
    cases there
  | built ts _ read =>
    constructor
    · exact find?_eq_none_iff_keys.mp absent
    · exact trimmed
    · exact accepted
    · simp [keys_append, keys_singleton]
    · intro key' h there
      exact find?_append there _
  | rejected f _ fault =>
    obtain ⟨ts, read⟩ := accepted
    rw [fault] at read
    cases read

theorem Gets.after_eq {c : Catalogue} {r : Registry} {key : Text} {a : Answer}
    (gets : Gets c r key a) (idle : c.find? r key ≠ none ∨ ¬ Accepted key) : a.after = c := by
  cases gets with
  | found h there => rfl
  | built ts absent read =>
    rcases idle with there | refused
    · exact absurd absent there
    · exact absurd ⟨ts, read⟩ refused
  | rejected f absent fault => rfl

theorem framedGet (c : Catalogue) (r : Registry) (source : Value) : FramedGet c r source := by
  have gets := gets_get c r source
  constructor
  · intro r' different
    exact gets.sameIn_other different
  · intro absent accepted
    exact gets.appends (contains_eq_false_iff.mp absent) (trim_keyOf source) accepted
  · intro idle
    apply gets.after_eq
    rcases idle with there | refused
    · exact Or.inl (Option.isSome_iff_ne_none.mp there)
    · exact Or.inr refused
  · intro e error
    exact gets.after_of_error error

/- Operations. -/

theorem addressed?_of_mem_asked {c : Catalogue} {o : Operation} {x : Request}
    (mem : x ∈ c.asked o) : o.addressed? = some x.1 := by
  cases o with
  | get _ _ | sharedGet _ | classGet _ _ | contendedGet _ _ =>
    rw [List.mem_singleton.mp mem]
    rfl
  | grow r suffix =>
    obtain ⟨key, -, rfl⟩ := List.mem_map.mp mem
    rfl
  | contains _ _ | size _ | keys _ | describe _ | change _ => cases mem

theorem sameIn_getEach {r : Registry} {xs : List Request} (elsewhere : ∀ x ∈ xs, x.1 ≠ r)
    (c : Catalogue) : SameIn r c (c.getEach xs).1 := by
  induction xs generalizing c with
  | nil => exact SameIn.refl r c
  | cons x xs ih =>
    obtain ⟨r', source⟩ := x
    have different : r ≠ r' := (elsewhere (r', source) (by simp)).symm
    have first : SameIn r c (c.get r' source).after :=
      (framedGet c r' source).others r different
    exact first.trans (ih (fun x mem => elsewhere x (by simp [mem])) _)

theorem sameIn_step {o : Operation} {r : Registry} (elsewhere : o.addressed? ≠ some r)
    (c : Catalogue) : SameIn r c (c.step o).after := by
  rw [after_step]
  apply sameIn_getEach
  intro x mem same
  rw [addressed?_of_mem_asked mem, same] at elsewhere
  exact elsewhere rfl

theorem length_asked_le_one (c : Catalogue) {o : Operation}
    (single : ∀ r suffix, o ≠ .grow r suffix) : (c.asked o).length ≤ 1 := by
  cases o with
  | grow r suffix => exact absurd rfl (single r suffix)
  | _ => simp [asked]

theorem after_step_of_error {c : Catalogue} {o : Operation} {e : SelectorError}
    (error : (c.step o).reply = .handle (.error e)) : (c.step o).after = c := by
  have get_error : ∀ r source, Reply.handle (c.get r source).result = .handle (.error e) →
      (c.get r source).after = c := by
    intro r source same
    exact (framedGet c r source).failed e (Reply.handle.inj same)
  cases o with
  | get r source => exact get_error r source error
  | sharedGet source => exact get_error .shared source error
  | classGet r source => exact get_error (r.getD .shared) source error
  | contendedGet r source =>
    obtain ⟨result, after⟩ := getContended_eq c r source
    have plain : Reply.handle (c.get r source).result = .handle (.error e) := by
      rw [← result]
      exact error
    exact after.trans (get_error r source plain)
  | contains _ _ | size _ | keys _ | describe _ | grow _ _ | change _ => cases error

theorem run_cons (c : Catalogue) (o : Operation) (os : List Operation) :
    c.run (o :: os) = c.step o :: (c.step o).after.run os := rfl

theorem run_replicate {c : Catalogue} {o : Operation} (idle : (c.step o).after = c) (n : Nat) :
    c.run (List.replicate n o) = List.replicate n (c.step o) := by
  induction n with
  | zero => rfl
  | succ n ih => rw [List.replicate_succ, run_cons, idle, ih, ← List.replicate_succ]

theorem step_of_looksUpShared {source : Value} {o : Operation} (h : o.LooksUpShared source)
    (c : Catalogue) : c.step o = c.step (.get .shared source) := by
  cases h with
  | registry => rfl
  | direct => rfl
  | throughClass => rfl

theorem step_of_interchangeable {o o' : Operation} (h : o.Interchangeable o') (c : Catalogue) :
    c.step o = c.step o' := by
  rcases h with same | ⟨source, first, second⟩
  · rw [same]
  · rw [step_of_looksUpShared first, step_of_looksUpShared second]

theorem run_of_interchangeable {os os' : List Operation}
    (h : List.Forall₂ Operation.Interchangeable os os') (c : Catalogue) : c.run os = c.run os' := by
  induction h generalizing c with
  | nil => rfl
  | cons first rest ih => rw [run_cons, run_cons, step_of_interchangeable first, ih]

theorem keys_step_named {c : Catalogue} {r : Registry} {source : Value} (empty : c.keys r = [])
    (accepted : Accepted (keyOf source)) :
    (c.step (.classGet (some r) source)).after.keys r = [keyOf source] := by
  have absent : c.contains r source = false := by
    rw [contains_eq_false_iff, find?_eq_none_iff_keys, empty]
    simp
  have keys := ((framedGet c r source).added absent accepted).keys_eq
  rw [empty] at keys
  exact keys

/-- In every catalogue, whatever run led to it. -/
theorem operations_are_framed (c : Catalogue) : Framed c where
  others o r elsewhere := sameIn_step elsewhere c
  asked o := by
    refine ⟨after_step c o, length_asked_le_one c, ?_⟩
    intro before r source behind split
    have mem : (r, source) ∈ c.asked o := by simp [split]
    exact ⟨addressed?_of_mem_asked mem, framedGet _ r source⟩
  failed o e error := by
    have idle := after_step_of_error error
    refine ⟨idle, run_replicate idle, ?_⟩
    intro os
    rw [run_cons, idle]
  named r source := by
    refine ⟨rfl, ?_, keys_step_named⟩
    intro notShared
    exact (framedGet c r source).others .shared notShared.symm
  shared os os' same := run_of_interchangeable same c

end Catalogue

end SelectorClauses
