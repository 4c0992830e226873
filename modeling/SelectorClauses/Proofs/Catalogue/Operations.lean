import SelectorClauses.Catalogue.Operation
import SelectorClauses.Proofs.Catalogue.Lookups

/-!
Operations as look-ups. Main statements: whatever its entry point, an operation leaves what the
look-ups that it asks for leave, and its reply has their answers (`after_step`, `answered_step`), so
that a run of operations is a run of look-ups (`runAfter_eq`, `answeredIn_eq`). This holds of a
contended look-up too: the other caller's is the first, and its own finds or rejects the key again.
-/
namespace SelectorClauses

def Operation.answered : Operation → Reply → List Lookup
  | .get r source, .handle result => [⟨r, source, result⟩]
  | .sharedGet source, .handle result => [⟨.shared, source, result⟩]
  | .classGet r source, .handle result => [⟨r.getD .shared, source, result⟩]
  | .contendedGet r source, .handle result => [⟨r, source, result⟩]
  | .grow r suffix, .grown results =>
    results.map fun (key, result) => ⟨r, .text (key ++ suffix), result⟩
  | _, _ => []

namespace Catalogue

def asked (c : Catalogue) : Operation → List Request
  | .get r source => [(r, source)]
  | .sharedGet source => [(.shared, source)]
  | .classGet r source => [(r.getD .shared, source)]
  | .contendedGet r source => [(r, source)]
  | .grow r suffix => (c.keys r).map fun key => (r, .text (key ++ suffix))
  | .contains _ _ | .size _ | .keys _ | .describe _ | .change _ => []

def answeredIn (c : Catalogue) (os : List Operation) : List Lookup :=
  (os.zip (c.run os)).flatMap fun (o, s) => o.answered s.reply

def askedIn (c : Catalogue) : List Operation → List Request
  | [] => []
  | o :: os => c.asked o ++ (c.step o).after.askedIn os

theorem getInterrupted_of_find?_eq_none {c : Catalogue} {r : Registry} {source : Value}
    (absent : c.find? r (keyOf source) = none) (others : List Request) :
    c.getInterrupted r source others =
      ⟨((c.getEach others).1.get r source).result, ((c.getEach others).1.get r source).after,
        (c.getEach others).2 ++ ((c.getEach others).1.get r source).journal⟩ := by
  simp only [getInterrupted, absent, get_eq_lockedGet]

theorem getContended_eq (c : Catalogue) (r : Registry) (source : Value) :
    (c.getContended r source).result = (c.get r source).result ∧
      (c.getContended r source).after = (c.get r source).after := by
  cases found : c.find? r (keyOf source) with
  | some h =>
    rw [get_of_find? found]
    simp only [getContended, getInterrupted, found, and_self]
  | none =>
    rw [getContended, getInterrupted_of_find?_eq_none found]
    exact get_again rfl

theorem growFrom_eq (c : Catalogue) (r : Registry) (suffix : Text) (ks : List Text) :
    let requests : List Request := ks.map fun key => (r, .text (key ++ suffix))
    (c.growFrom r suffix ks).2 = c.getEach requests ∧
      ((c.growFrom r suffix ks).1.map fun (key, result) =>
        (⟨r, .text (key ++ suffix), result⟩ : Lookup)) = c.lookups requests := by
  induction ks generalizing c with
  | nil => exact ⟨rfl, rfl⟩
  | cons key ks ih =>
    obtain ⟨after, answers⟩ := ih (c.get r (.text (key ++ suffix))).after
    simp only [growFrom, List.map_cons, getEach, lookups, after, answers, and_self]

theorem after_step (c : Catalogue) (o : Operation) :
    (c.step o).after = (c.getEach (c.asked o)).1 := by
  cases o with
  | get _ _ | sharedGet _ | classGet _ _ => rfl
  | contendedGet r source => exact (getContended_eq c r source).2
  | grow r suffix => exact congrArg Prod.fst (growFrom_eq c r suffix (c.keys r)).1
  | contains _ _ | size _ | keys _ | describe _ | change _ => rfl

theorem answered_step (c : Catalogue) (o : Operation) :
    o.answered (c.step o).reply = c.lookups (c.asked o) := by
  cases o with
  | get _ _ | sharedGet _ | classGet _ _ => rfl
  | contendedGet r source =>
    simp only [step, stepOf, Operation.answered, asked, lookups, (getContended_eq c r source).1]
  | grow r suffix => exact (growFrom_eq c r suffix (c.keys r)).2
  | contains _ _ | size _ | keys _ | describe _ | change _ => rfl

/- Runs. -/

theorem runAfter_eq (c : Catalogue) (os : List Operation) :
    c.runAfter os = (c.getEach (c.askedIn os)).1 := by
  induction os generalizing c with
  | nil => rfl
  | cons o os ih =>
    have later : c.runAfter (o :: os) = (c.step o).after.runAfter os := rfl
    rw [later, ih, askedIn, getEach_append, ← after_step]

theorem answeredIn_eq (c : Catalogue) (os : List Operation) :
    c.answeredIn os = c.lookups (c.askedIn os) := by
  induction os generalizing c with
  | nil => rfl
  | cons o os ih =>
    have later : c.answeredIn (o :: os) =
        o.answered (c.step o).reply ++ (c.step o).after.answeredIn os := rfl
    rw [later, ih, answered_step, askedIn, lookups_append, ← after_step]

theorem sound_runAfter (os : List Operation) : (runAfter [] os).Sound := by
  rw [runAfter_eq]
  exact sound_nil.getEach _

end Catalogue

end SelectorClauses
