import SelectorClauses.Proofs.Tokenizing.Run

/-!
What a run reads. `Reads t ts rest` says that the tokens `ts` stand one after another at the start
of `t` and that `rest` is behind them. Main statements: `reads_iff` says which lists of tokens are
read, `run_of_reads` that a run begins by reading them, and `exists_reads_stops` how it ends.
-/
namespace SelectorClauses

open Token

inductive Reads : Text → List Token → Text → Prop
  | nothing (t : Text) : Reads t [] t
  | token {t : Token} {r : Text} {ts : List Token} {rest : Text} (stands : t.Stands r)
      (behind : Reads r ts rest) : Reads (t.value ++ r) (t :: ts) rest

theorem continuesName_head_of_not_isPlainTag {t : Token} (h : t.WellFormed)
    (notPlain : t.isPlainTag = false) (u : Text) :
    ∀ c ∈ (t.value ++ u).head?, continuesName c = false := by
  obtain ⟨c, -, same⟩ := h.exists_ofClause
  rw [same] at notPlain ⊢
  cases sign : t.negated with
  | true =>
    rw [value_ofClause_true]
    simp [negationOpen]
    decide
  | false =>
    rw [sign] at notPlain
    rw [value_ofClause_false]
    cases c with
    | tag n => simp [isPlainTag, ofClause, Clause.kind] at notPlain
    | id n => simp [Clause.print]; decide
    | cls n => simp [Clause.print]; decide
    | attr n test => cases test <;> (simp [Clause.print]; decide)

theorem apart_of_stands {s t : Token} {u : Text} (first : s.Stands (t.value ++ u))
    (second : t.WellFormed) : Apart s t := by
  intro both
  -- otherwise the name of the tag carries the identifier before it on
  have same := value_eq_of_isPlainTag second both.2
  have longer : IsIdentifier (s.data ++ t.value) := by
    rw [same]
    exact first.wellFormed.data.append second.data
  exact second.value_ne_nil (first.ends both.1 t.value u rfl longer)

theorem stands_of_apart {s t : Token} (first : s.WellFormed) (second : t.WellFormed)
    (apart : Apart s t) (u : Text) : s.Stands (t.value ++ u) := by
  cases isOpen : s.isOpen with
  | false => exact stands_of_not_isOpen first isOpen
  | true =>
    have notPlain : t.isPlainTag = false := by
      cases plain : t.isPlainTag with
      | false => rfl
      | true => exact absurd ⟨isOpen, plain⟩ apart
    exact stands_of_head first (continuesName_head_of_not_isPlainTag second notPlain u)

theorem Reads.text_eq {t : Text} {ts : List Token} {rest : Text} (h : Reads t ts rest) :
    t = textOf ts ++ rest := by
  induction h with
  | nothing t => rfl
  | token stands behind ih => rw [textOf_cons, List.append_assoc, ← ih]

theorem Reads.stands_last {t : Text} {ts : List Token} {rest : Text} (h : Reads t ts rest) :
    ∀ s ∈ ts.getLast?, s.Stands rest := by
  induction h with
  | nothing t => simp
  | @token s r ts rest stands behind ih =>
    cases behind with
    | nothing t => simpa using stands
    | token stands' behind' => simpa using ih

theorem Reads.normalForm {t : Text} {ts : List Token} {rest : Text} (h : Reads t ts rest) :
    NormalForm ts := by
  induction h with
  | nothing t => exact ⟨by simp, .nil⟩
  | @token s r ts rest stands behind ih =>
    constructor
    · intro u mem
      rcases List.mem_cons.mp mem with rfl | mem
      · exact stands.wellFormed
      · exact ih.wellFormed u mem
    · apply ih.apart.cons
      intro u mem
      cases behind with
      | nothing t => simp at mem
      | @token v r' ts' rest' stands' behind' =>
        have equal : v = u := by simpa using mem
        subst equal
        exact apart_of_stands stands stands'.wellFormed

theorem reads_of_normalForm {ts : List Token} {rest : Text} (normal : NormalForm ts)
    (last : ∀ s ∈ ts.getLast?, s.Stands rest) : Reads (textOf ts ++ rest) ts rest := by
  induction ts with
  | nil => exact .nothing rest
  | cons s ts ih =>
    rw [textOf_cons, List.append_assoc]
    cases ts with
    | nil => exact .token (last s (by simp)) (.nothing rest)
    | cons v ts =>
      have stands : s.Stands (v.value ++ (textOf ts ++ rest)) :=
        stands_of_apart (normal.wellFormed s (by simp)) (normal.wellFormed v (by simp))
          (List.isChain_cons_cons.mp normal.apart).1 _
      rw [← List.append_assoc, ← textOf_cons] at stands
      exact .token stands (ih normal.tail (by simpa using last))

theorem reads_iff {t : Text} {ts : List Token} {rest : Text} :
    Reads t ts rest ↔
      NormalForm ts ∧ t = textOf ts ++ rest ∧ ∀ s ∈ ts.getLast?, s.Stands rest := by
  constructor
  · intro h
    exact ⟨h.normalForm, h.text_eq, h.stands_last⟩
  · intro h
    obtain ⟨normal, rfl, last⟩ := h
    exact reads_of_normalForm normal last

theorem Reads.append {t r rest : Text} {ss ts : List Token} (first : Reads t ss r)
    (second : Reads r ts rest) : Reads t (ss ++ ts) rest := by
  induction first with
  | nothing t => exact second
  | token stands behind ih => exact .token stands (ih second)

theorem reads_of_next {t : Text} {s : Token} {r : Text} (split : t = s.value ++ r)
    (h : (Cursor.ofText t).next = .ok (some s)) : Reads t [s] r := by
  obtain ⟨r', stands, same⟩ := next_eq_some_iff.mp h
  have equal : r = r' := List.append_cancel_left (split.symm.trans same)
  subst equal
  rw [split]
  exact .token stands (.nothing r)

namespace Run

def after (ts : List Token) (run : Run) : Run :=
  ⟨(run.result.mapError (ReadError.moved (textOf ts).length)).map (ts ++ ·),
    (textOf ts).length + run.position⟩

theorem after_nil (run : Run) : run.after [] = run := by
  obtain ⟨result, position⟩ := run
  cases result with
  | ok ts => simp [after, Except.mapError, Except.map]
  | error e => simp [after, Except.mapError, Except.map, ReadError.moved_zero]

theorem after_cons (t : Token) (ts : List Token) (run : Run) :
    run.after (t :: ts) = ((run.after ts).moved t.length).cons t := by
  obtain ⟨result, position⟩ := run
  cases result <;>
    simp [after, moved, cons, Except.mapError, Except.map, ReadError.moved_moved, Token.length,
      Int.add_assoc]

end Run

theorem run_of_stands {t : Token} {r : Text} (h : t.Stands r) :
    (Cursor.ofText (t.value ++ r)).run = ((Cursor.ofText r).run.moved t.length).cons t := by
  have found := next_of_stands h
  have some_character : 0 < t.length := Cursor.length_pos_of_nextOf found
  have some_left : 0 < (t.value ++ r).length := by
    rw [List.length_append]
    unfold Token.length at some_character
    omega
  have unfinished : (Cursor.ofText (t.value ++ r)).position <
      (Cursor.ofText (t.value ++ r)).length := Cursor.unfinished_atIndex some_left
  rw [Cursor.run_eq_of_next_some unfinished found, Cursor.ofText_eq_atIndex, Cursor.moved_atIndex,
    Cursor.run_atIndex (by simp [Token.length])]
  simp [Token.length]

theorem run_of_reads {t : Text} {ts : List Token} {rest : Text} (h : Reads t ts rest) :
    (Cursor.ofText t).run = (Cursor.ofText rest).run.after ts := by
  induction h with
  | nothing t => rw [Run.after_nil]
  | token stands behind ih => rw [run_of_stands stands, ih, Run.after_cons]

inductive Stops (rest : Text) : Run → Prop
  | finished : rest = [] → Stops rest ⟨.ok [], 0⟩
  | unrecognized : rest ≠ [] → (Cursor.ofText rest).next = .ok none →
      Stops rest ⟨.error (.fault (.unrecognizedSyntax rest 0)), 0⟩
  | unterminated (f : Fault) : (Cursor.ofText rest).next = .error (.fault f) →
      Stops rest ⟨.error (.fault f), 0⟩

theorem stops_of_next {rest : Text} (h : ∀ t, (Cursor.ofText rest).next ≠ .ok (some t)) :
    Stops rest (Cursor.ofText rest).run := by
  cases rest with
  | nil =>
    rw [Cursor.run_ofText_nil]
    exact .finished rfl
  | cons c r =>
    have unfinished : (Cursor.ofText (c :: r)).position < (Cursor.ofText (c :: r)).length :=
      Cursor.unfinished_atIndex (Nat.succ_pos _)
    cases found : (Cursor.ofText (c :: r)).next with
    | error e =>
      obtain ⟨_, _, -, -, -, rfl⟩ := next_eq_error_iff.mp found
      rw [Cursor.run_eq_of_next_error unfinished found]
      exact .unterminated _ found
    | ok t? =>
      cases t? with
      | none =>
        rw [Cursor.run_eq_of_next_none unfinished found, Cursor.ofText_eq_atIndex,
          Cursor.remainder_atIndex]
        exact .unrecognized (by simp) found
      | some t => exact absurd found (h t)

theorem exists_reads_stops (t : Text) :
    ∃ ts rest, Reads t ts rest ∧ Stops rest (Cursor.ofText rest).run := by
  induction long : t.length using Nat.strongRecOn generalizing t with
  | ind n ih =>
    by_cases reading : ∃ s, (Cursor.ofText t).next = .ok (some s)
    · obtain ⟨s, found⟩ := reading
      obtain ⟨r, stands, rfl⟩ := next_eq_some_iff.mp found
      have some_character : 0 < s.length := Cursor.length_pos_of_nextOf found
      have shorter : r.length < n := by
        rw [List.length_append] at long
        unfold Token.length at some_character
        omega
      obtain ⟨ts, rest, behind, stops⟩ := ih r.length shorter r rfl
      exact ⟨s :: ts, rest, .token stands behind, stops⟩
    · exact ⟨[], t, .nothing t, stops_of_next fun s found => reading ⟨s, found⟩⟩

theorem tokenize_of_reads {t : Text} {ts : List Token} {rest : Text} (h : Reads t ts rest) :
    tokenize t =
      ((tokenize rest).mapError (Fault.moved (textOf ts).length)).map (ts ++ ·) := by
  rw [tokenize_eq_iff, run_of_reads h, Run.after, result_run_ofText]
  cases tokenize rest <;> rfl

theorem tokenize_nil : tokenize [] = .ok [] := by
  rw [tokenize_eq_iff, Cursor.run_ofText_nil]
  rfl

theorem tokenize_eq_ok_iff_reads {t : Text} {ts : List Token} :
    tokenize t = .ok ts ↔ Reads t ts [] := by
  constructor
  · intro h
    obtain ⟨us, rest, reads, stops⟩ := exists_reads_stops t
    rw [tokenize_eq_iff, run_of_reads reads] at h
    generalize (Cursor.ofText rest).run = last at stops h
    cases stops with
    | finished empty =>
      have equal : us = ts := by simpa [Run.after, Except.mapError, Except.map] using h
      subst equal
      rwa [empty] at reads
    | unrecognized => simp [Run.after, Except.mapError, Except.map] at h
    | unterminated => simp [Run.after, Except.mapError, Except.map] at h
  · intro h
    rw [tokenize_of_reads h, tokenize_nil]
    simp [Except.mapError, Except.map]

/-- A fault is the one at the place where the run stops, moved there. -/
theorem exists_reads_of_tokenize_eq_error {t : Text} {f : Fault} (h : tokenize t = .error f) :
    ∃ ts rest g, Reads t ts rest ∧ Stops rest (Cursor.ofText rest).run ∧
      f = g.moved (textOf ts).length ∧
      (rest ≠ [] ∧ (Cursor.ofText rest).next = .ok none ∧ g = .unrecognizedSyntax rest 0 ∨
        (Cursor.ofText rest).next = .error (.fault g)) := by
  obtain ⟨ts, rest, reads, stops⟩ := exists_reads_stops t
  have stopped := stops
  rw [tokenize_eq_iff, run_of_reads reads] at h
  generalize (Cursor.ofText rest).run = last at stopped h
  cases stopped with
  | finished empty => simp [Run.after, Except.mapError, Except.map] at h
  | unrecognized nonempty found =>
    refine ⟨ts, rest, _, reads, stops, ?_, Or.inl ⟨nonempty, found, rfl⟩⟩
    simpa [Run.after, Except.mapError, Except.map, ReadError.moved] using h.symm
  | unterminated g found =>
    refine ⟨ts, rest, g, reads, stops, ?_, Or.inr found⟩
    simpa [Run.after, Except.mapError, Except.map, ReadError.moved] using h.symm

end SelectorClauses
