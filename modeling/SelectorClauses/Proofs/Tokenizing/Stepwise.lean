import SelectorClauses.Proofs.Tokenizing.Acceptance

/-!
A cursor that is moved by hand. Between runs a caller can look at the next token and can move over it.
Main statement: `run_resumes` says that after any mix of looks, moves and runs a run gives what is left
of the run over the whole text, and that a fault comes up again as often as it is asked for.
-/
namespace SelectorClauses

namespace Run

def behind (ts : List Token) (run : Run) : Run := { run with result := run.result.map (ts ++ ·) }

/-- What is left when the tokens of a run are taken: nothing to read, or its fault. -/
def spent (run : Run) : Run := { run with result := run.result.map fun _ => [] }

theorem behind_nil (run : Run) : run.behind [] = run := by
  obtain ⟨result, position⟩ := run
  cases result <;> rfl

theorem behind_append (ss ts : List Token) (run : Run) :
    run.behind (ss ++ ts) = (run.behind ts).behind ss := by
  obtain ⟨result, position⟩ := run
  cases result <;> simp [behind, Except.map]

theorem behind_eq_ok {ss ts : List Token} {run : Run} {p : Int}
    (h : run.behind ss = ⟨.ok ts, p⟩) : ∃ us, run = ⟨.ok us, p⟩ ∧ ss ++ us = ts := by
  obtain ⟨result, position⟩ := run
  cases result with
  | error f => simp [behind, Except.map] at h
  | ok us =>
    obtain ⟨same, rfl⟩ := by simpa [behind, Except.map] using h
    exact ⟨us, rfl, same⟩

theorem behind_eq_error {ss : List Token} {run : Run} {e : ReadError} {p : Int}
    (h : run.behind ss = ⟨.error e, p⟩) : run = ⟨.error e, p⟩ := by
  obtain ⟨result, position⟩ := run
  cases result with
  | error e' => simpa [behind, Except.map] using h
  | ok us => simp [behind, Except.map] at h

theorem cons_eq_behind (t : Token) (run : Run) : run.cons t = run.behind [t] := rfl

theorem spent_cons (t : Token) (run : Run) : (run.cons t).spent = run.spent := by
  obtain ⟨result, position⟩ := run
  cases result <;> rfl

end Run

namespace Cursor

def stopped (c : Cursor) : Cursor := { c with position := c.run.position }

inductive Step
  | look
  | advance
  | run
deriving DecidableEq, Repr

def step (c : Cursor) : Step → Except ReadError (List Token) × Cursor
  | .look => (c.next.map Option.toList, c)
  | .advance => (c.advance.1.map Option.toList, c.advance.2)
  | .run => (c.run.result, c.stopped)

/-- The tokens of an answer that the step has moved over. A look moves over none. -/
def Step.taken : Step → Except ReadError (List Token) → List Token
  | .look, _ => []
  | _, .ok ts => ts
  | _, .error _ => []

def steps (c : Cursor) : List Step → List Token × Cursor
  | [] => ([], c)
  | s :: ss =>
    let (answer, after) := c.step s
    let (more, last) := after.steps ss
    (s.taken answer ++ more, last)

/- Where a run stops. -/

theorem position_le_position_run (c : Cursor) : c.position ≤ c.run.position := by
  induction c using runOf.induct Kind.all with
  | case1 c unfinished t found ih =>
    have some_character : 0 < t.length := length_pos_of_nextOf found
    rw [run_eq_of_next_some unfinished found]
    simp only [moved, Run.cons] at ih ⊢
    omega
  | case2 c unfinished found => simp [run_eq_of_next_none unfinished found]
  | case3 c unfinished e found => simp [run_eq_of_next_error unfinished found]
  | case4 c finished => simp [run_eq_of_not_lt finished]

theorem stopped_eq_self {c : Cursor} (still : c.run.position = c.position) : c.stopped = c := by
  rw [stopped, still]

/-- Where a run has stopped, the next one finds nothing to read or the same fault. -/
theorem run_stopped (c : Cursor) : c.stopped.run = c.run.spent := by
  induction c using runOf.induct Kind.all with
  | case1 c unfinished t found ih =>
    have whole : c.run = (c.moved t).run.cons t := run_eq_of_next_some unfinished found
    have same : c.stopped = (c.moved t).stopped := by simp [stopped, whole, Run.cons, moved]
    rw [same, ih, whole, Run.spent_cons]
  | case2 c unfinished found =>
    have whole := run_eq_of_next_none unfinished found
    rw [stopped_eq_self (by rw [whole]), whole]
    rfl
  | case3 c unfinished e found =>
    have whole := run_eq_of_next_error unfinished found
    rw [stopped_eq_self (by rw [whole]), whole]
    rfl
  | case4 c finished =>
    have whole := run_eq_of_not_lt finished
    rw [stopped_eq_self (by rw [whole]), whole]
    rfl

/- What a step leaves. -/

/-- A cursor in the middle of a text: the tokens `ts` and what a run gives from here on are what a run
over the whole text gives. -/
structure Midway (source : Text) (ts : List Token) (c : Cursor) : Prop where
  inside : ∃ n ≤ source.length, c = atIndex source n
  run_eq : (ofText source).run = c.run.behind ts

theorem midway_ofText (source : Text) : Midway source [] (ofText source) where
  inside := ⟨0, Nat.zero_le _, rfl⟩
  run_eq := (Run.behind_nil _).symm

theorem inside_moved {source : Text} {n : Nat} {t : Token} (inside : n ≤ source.length)
    (found : (atIndex source n).next = .ok (some t)) : n + t.length ≤ source.length := by
  rw [next_atIndex inside, mapError_eq_ok_iff] at found
  obtain ⟨r, -, split⟩ := Token.next_eq_some_iff.mp found
  have short := congrArg List.length split
  rw [List.length_drop, List.length_append] at short
  unfold Token.length
  omega

theorem Midway.unfinished {source : Text} {ts : List Token} {c : Cursor} {t : Token}
    (h : Midway source ts c) (found : c.next = .ok (some t)) : c.position < c.length := by
  obtain ⟨n, inside, rfl⟩ := h.inside
  have further := inside_moved inside found
  have some_character : 0 < t.length := length_pos_of_nextOf found
  exact unfinished_atIndex (by omega)

theorem Midway.moved {source : Text} {ts : List Token} {c : Cursor} {t : Token}
    (h : Midway source ts c) (found : c.next = .ok (some t)) :
    Midway source (ts ++ [t]) (c.moved t) := by
  have whole := run_eq_of_next_some (h.unfinished found) found
  obtain ⟨n, inside, rfl⟩ := h.inside
  refine ⟨⟨n + t.length, inside_moved inside found, moved_atIndex source n t⟩, ?_⟩
  rw [h.run_eq, whole, Run.cons_eq_behind, ← Run.behind_append]

theorem Midway.stopped {source : Text} {ts us : List Token} {c : Cursor} (h : Midway source ts c)
    (taken : c.run.spent.behind us = c.run) : Midway source (ts ++ us) c.stopped := by
  obtain ⟨p, position, inside, -⟩ := exists_position_run source
  have same : c.run.position = p := by
    rw [h.run_eq] at position
    exact position
  constructor
  · obtain ⟨n, -, rfl⟩ := h.inside
    exact ⟨p, inside, by rw [Cursor.stopped, same, atIndex, atIndex]⟩
  · rw [run_stopped, Run.behind_append, taken, h.run_eq]

theorem Midway.step {source : Text} {ts : List Token} {c : Cursor} (h : Midway source ts c)
    (s : Step) : Midway source (ts ++ s.taken (c.step s).1) (c.step s).2 := by
  cases s with
  | look => simpa [Cursor.step, Step.taken] using h
  | advance =>
    cases found : c.next with
    | error f => simpa [Cursor.step, advance, found, Step.taken, Except.map] using h
    | ok t? =>
      cases t? with
      | none => simpa [Cursor.step, advance, found, Step.taken, Except.map] using h
      | some t =>
        simpa [Cursor.step, advance, found, Step.taken, Except.map] using h.moved found
  | run =>
    have taken : c.run.spent.behind (Step.run.taken c.run.result) = c.run := by
      generalize c.run = run
      obtain ⟨result, position⟩ := run
      cases result <;> simp [Run.spent, Run.behind, Step.taken, Except.map]
    exact h.stopped taken

theorem Midway.steps {source : Text} {ts : List Token} {c : Cursor} (h : Midway source ts c)
    (ss : List Step) : Midway source (ts ++ (c.steps ss).1) (c.steps ss).2 := by
  induction ss generalizing ts c with
  | nil => simpa [Cursor.steps] using h
  | cons s ss ih =>
    have later := ih (h.step s)
    rwa [List.append_assoc] at later

/- A cursor that a run has stopped stays where it is. -/

theorem Midway.step_of_stopped {source : Text} {ts : List Token} {c : Cursor}
    (h : Midway source ts c) (still : c.stopped = c) (s : Step) : (c.step s).2 = c := by
  cases s with
  | look => rfl
  | advance =>
    cases found : c.next with
    | error f => simp [Cursor.step, advance, found]
    | ok t? =>
      cases t? with
      | none => simp [Cursor.step, advance, found]
      | some t =>
        -- the run would have gone on over the token
        have some_character : 0 < t.length := length_pos_of_nextOf found
        have whole := congrArg Run.position (run_eq_of_next_some (h.unfinished found) found)
        have further := position_le_position_run (c.moved t)
        have stays : c.run.position = c.position := congrArg Cursor.position still
        simp only [Cursor.moved, Run.cons] at whole further
        omega
  | run => exact still

theorem Midway.steps_of_stopped {source : Text} {ts : List Token} {c : Cursor}
    (h : Midway source ts c) (still : c.stopped = c) (ss : List Step) : (c.steps ss).2 = c := by
  induction ss generalizing ts with
  | nil => rfl
  | cons s ss ih =>
    have same := h.step_of_stopped still s
    have later := h.step s
    rw [same] at later
    simp only [Cursor.steps, same]
    exact ih later

theorem Midway.stopped_steps {source : Text} {ts : List Token} {c : Cursor}
    (h : Midway source ts c) {ss : List Step} (ran : .run ∈ ss) :
    (c.steps ss).2.stopped = (c.steps ss).2 := by
  induction ss generalizing ts c with
  | nil => simp at ran
  | cons s ss ih =>
    rcases List.mem_cons.mp ran with here | later
    · subst here
      have still : c.stopped.stopped = c.stopped := stopped_eq_self (by rw [run_stopped]; rfl)
      have same : (c.stopped.steps ss).2 = c.stopped := (h.step .run).steps_of_stopped still ss
      simp only [Cursor.steps, Cursor.step, same, still]
    · exact ih (h.step s) later

theorem run_of_tokenize_ok {source : Text} {ts : List Token} (read : tokenize source = .ok ts) :
    (ofText source).run = ⟨.ok ts, source.length⟩ := by
  have reads := tokenize_eq_ok_iff_reads.mp read
  obtain ⟨-, whole⟩ := reads_nil_iff.mp reads
  rw [run_of_reads reads, run_ofText_nil, whole]
  simp [Run.after, Except.mapError, Except.map]

end Cursor

/-- What a run gives at a cursor that was moved over the tokens `taken` of a text, and where the cursor
stands if it ran before. -/
structure Resumes (source : Text) (taken : List Token) (c : Cursor) (ran : Prop) : Prop where
  accepted : ∀ ts, tokenize source = .ok ts →
    ∃ us, c.run = ⟨.ok us, source.length⟩ ∧ taken ++ us = ts ∧
      (ran → us = [] ∧ c.position = source.length)
  refused : ∀ f, tokenize source = .error f →
    c.run = ⟨.error (.fault f), (Cursor.ofText source).run.position⟩ ∧
      (ran → c.position = (Cursor.ofText source).run.position)

/-- Steps by hand lead to the borders of tokens, and a run goes on from there: the tokens taken so far
and those that it gives are the tokens of the text. Behind a run there is nothing left to read; a fault
is found again where it was, however often it has been found before. -/
theorem run_resumes (source : Text) (steps : List Cursor.Step) :
    Resumes source ((Cursor.ofText source).steps steps).1 ((Cursor.ofText source).steps steps).2
      (.run ∈ steps) := by
  have start := Cursor.midway_ofText source
  have midway := start.steps steps
  have still : .run ∈ steps → ((Cursor.ofText source).steps steps).2.stopped =
      ((Cursor.ofText source).steps steps).2 := start.stopped_steps
  rw [List.nil_append] at midway
  generalize ((Cursor.ofText source).steps steps).1 = taken at midway ⊢
  generalize ((Cursor.ofText source).steps steps).2 = c at midway still ⊢
  have stays : .run ∈ steps → c.run.spent = c.run ∧ c.position = c.run.position := by
    intro ran
    constructor
    · rw [← Cursor.run_stopped, still ran]
    · exact (congrArg Cursor.position (still ran)).symm
  constructor
  · intro ts read
    obtain ⟨us, run, same⟩ := Run.behind_eq_ok (midway.run_eq.symm.trans
      (Cursor.run_of_tokenize_ok read))
    refine ⟨us, run, same, ?_⟩
    intro ran
    obtain ⟨spent, position⟩ := stays ran
    rw [run] at spent position
    exact ⟨by simpa [Run.spent, Except.map] using spent.symm, position⟩
  · intro f fault
    have whole : (Cursor.ofText source).run =
        ⟨.error (.fault f), (Cursor.ofText source).run.position⟩ := by
      have result := tokenize_eq_iff.mp fault
      generalize (Cursor.ofText source).run = run at result ⊢
      exact congrArg (Run.mk · run.position) result
    have run := Run.behind_eq_error (midway.run_eq.symm.trans whole)
    refine ⟨run, ?_⟩
    intro ran
    rw [(stays ran).2, run]

end SelectorClauses
