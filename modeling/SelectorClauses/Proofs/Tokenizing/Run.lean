import SelectorClauses.Proofs.Token.Next

/-!
Runs over a text. A run reads tokens off the start of the text and stops at the first place where
none is read. Main statement: `Cursor.run_atIndex` says that a run from inside a text is the run
over the rest of the text, moved, so that whatever is shown of runs from the start carries over.
-/
namespace SelectorClauses

namespace Run

def moved (n : Nat) (run : Run) : Run := ⟨run.result.mapError (ReadError.moved n), n + run.position⟩

def cons (t : Token) (run : Run) : Run := { run with result := run.result.map (t :: ·) }

end Run

theorem Run.moved_moved (m n : Nat) (run : Run) : (run.moved n).moved m = run.moved (m + n) := by
  obtain ⟨result, position⟩ := run
  cases result <;> simp [Run.moved, Except.mapError, ReadError.moved_moved, Int.add_assoc]

theorem Run.moved_cons (n : Nat) (t : Token) (run : Run) :
    (run.cons t).moved n = (run.moved n).cons t := by
  obtain ⟨result, position⟩ := run
  cases result <;> rfl

namespace Cursor

def atIndex (source : Text) (n : Nat) : Cursor := ⟨source, n, source.length⟩

theorem ofText_eq_atIndex (source : Text) : ofText source = atIndex source 0 := rfl

theorem remainder_atIndex (source : Text) (n : Nat) :
    (atIndex source n).remainder = source.drop n := by
  simp [remainder, atIndex, Text.countedIndex_ofNat]

theorem next_atIndex {source : Text} {n : Nat} (inside : n ≤ source.length) :
    (atIndex source n).next = (ofText (source.drop n)).next.mapError (ReadError.moved n) :=
  Token.readFirst_drop (Text.isSearchable_ofNat inside) Kind.all

theorem moved_atIndex (source : Text) (n : Nat) (t : Token) :
    (atIndex source n).moved t = atIndex source (n + t.length) := by
  simp [moved, atIndex]

/- One step of a run, with the kinds tried in any order and in their own. -/

theorem runOf_eq_of_not_lt {kinds : List Kind} {c : Cursor} (finished : ¬ c.position < c.length) :
    c.runOf kinds = ⟨.ok [], c.position⟩ := by
  rw [runOf, if_neg finished]

theorem runOf_eq_of_nextOf_some {kinds : List Kind} {c : Cursor} {t : Token}
    (unfinished : c.position < c.length) (h : c.nextOf kinds = .ok (some t)) :
    c.runOf kinds = ((c.moved t).runOf kinds).cons t := by
  rw [runOf, if_pos unfinished]
  split
  · next t' found =>
    rw [h] at found
    have equal : t = t' := by simpa using found
    subst equal
    rfl
  · next found => simp [h] at found
  · next found => simp [h] at found

theorem runOf_eq_of_nextOf_none {kinds : List Kind} {c : Cursor}
    (unfinished : c.position < c.length) (h : c.nextOf kinds = .ok none) :
    c.runOf kinds = ⟨.error (.fault (.unrecognizedSyntax c.remainder c.position)), c.position⟩ := by
  rw [runOf, if_pos unfinished]
  split
  · next found => simp [h] at found
  · rfl
  · next found => simp [h] at found

theorem runOf_eq_of_nextOf_error {kinds : List Kind} {c : Cursor} {e : ReadError}
    (unfinished : c.position < c.length) (h : c.nextOf kinds = .error e) :
    c.runOf kinds = ⟨.error e, c.position⟩ := by
  rw [runOf, if_pos unfinished]
  split
  · next found => simp [h] at found
  · next found => simp [h] at found
  · next e' found =>
    rw [h] at found
    have equal : e = e' := by simpa using found
    subst equal
    rfl

theorem run_eq_of_not_lt {c : Cursor} (finished : ¬ c.position < c.length) :
    c.run = ⟨.ok [], c.position⟩ := runOf_eq_of_not_lt finished

theorem run_eq_of_next_some {c : Cursor} {t : Token} (unfinished : c.position < c.length)
    (h : c.next = .ok (some t)) : c.run = (c.moved t).run.cons t :=
  runOf_eq_of_nextOf_some unfinished h

theorem run_eq_of_next_none {c : Cursor} (unfinished : c.position < c.length)
    (h : c.next = .ok none) :
    c.run = ⟨.error (.fault (.unrecognizedSyntax c.remainder c.position)), c.position⟩ :=
  runOf_eq_of_nextOf_none unfinished h

theorem run_eq_of_next_error {c : Cursor} {e : ReadError} (unfinished : c.position < c.length)
    (h : c.next = .error e) : c.run = ⟨.error e, c.position⟩ :=
  runOf_eq_of_nextOf_error unfinished h

theorem run_atIndex_length (source : Text) :
    (atIndex source source.length).run = ⟨.ok [], source.length⟩ := by
  have finished : ¬ (atIndex source source.length).position <
      (atIndex source source.length).length := by simp [atIndex]
  rw [run_eq_of_not_lt finished]
  rfl

theorem run_ofText_nil : (ofText []).run = ⟨.ok [], 0⟩ := run_atIndex_length []

theorem unfinished_atIndex {source : Text} {n : Nat} (inside : n < source.length) :
    (atIndex source n).position < (atIndex source n).length := by
  simp only [atIndex]
  omega

theorem run_atIndex {source : Text} {n : Nat} (inside : n ≤ source.length) :
    (atIndex source n).run = (ofText (source.drop n)).run.moved n := by
  -- the induction is on what is left to read, since the rest is a text of its own
  induction left : source.length - n using Nat.strongRecOn generalizing source n with
  | ind left ih =>
    by_cases finished : n = source.length
    · subst finished
      rw [run_atIndex_length, List.drop_length, run_ofText_nil]
      simp [Run.moved, Except.mapError]
    · have goHere : (atIndex source n).position < (atIndex source n).length :=
        unfinished_atIndex (by omega)
      have some_left : 0 < (source.drop n).length := by
        rw [List.length_drop]
        omega
      have goThere : (ofText (source.drop n)).position < (ofText (source.drop n)).length :=
        unfinished_atIndex some_left
      have here := next_atIndex inside
      cases there : (ofText (source.drop n)).next with
      | error f =>
        rw [there] at here
        rw [run_eq_of_next_error goHere here, run_eq_of_next_error goThere there]
        simp [Run.moved, ofText, atIndex, Except.mapError]
      | ok found =>
        rw [there] at here
        cases found with
        | none =>
          rw [run_eq_of_next_none goHere here, run_eq_of_next_none goThere there,
            ofText_eq_atIndex, remainder_atIndex, remainder_atIndex]
          simp [Run.moved, atIndex, Except.mapError, ReadError.moved, Fault.moved]
        | some t =>
          obtain ⟨r, -, split⟩ := Token.next_eq_some_iff.mp there
          have some_character : 0 < t.length := length_pos_of_nextOf there
          have short : t.length ≤ (source.drop n).length := by
            rw [split, List.length_append]
            exact Nat.le_add_right _ _
          have short' := short
          rw [List.length_drop] at short'
          rw [run_eq_of_next_some goHere here, run_eq_of_next_some goThere there,
            ofText_eq_atIndex, moved_atIndex, moved_atIndex, Nat.zero_add, Run.moved_cons]
          -- both runs go on from the same place, each over the text it started with
          have ihHere : (atIndex source (n + t.length)).run =
              (ofText (source.drop (n + t.length))).run.moved ↑(n + t.length) :=
            ih (source.length - (n + t.length)) (by omega) (by omega) rfl
          have ihThere : (atIndex (source.drop n) t.length).run =
              (ofText ((source.drop n).drop t.length)).run.moved ↑t.length :=
            ih ((source.drop n).length - t.length) (by rw [List.length_drop]; omega) short rfl
          rw [ihHere, ihThere, Run.moved_moved, List.drop_drop]

end Cursor

end SelectorClauses
