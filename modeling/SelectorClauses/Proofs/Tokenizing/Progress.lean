import SelectorClauses.Proofs.Tokenizing.Stepwise

/-!
Runs of any cursor. Position and length may be any integers, so the token that is read need not stand at the
position, and the text may end before the length does. Main statement: `every_run_ends` says that a run goes
forward with each token all the same, how many tokens it can read, and where it stops.
-/
namespace SelectorClauses

/-- What is left of a text from a position on: all but so many characters, or so many characters if the
position is negative. -/
structure SliceFrom (source : Text) (p : Int) (r : Text) : Prop where
  isSuffix : r <:+ source
  front : 0 ≤ p → r.length = source.length - p.toNat
  back : p < 0 → r.length = min source.length (-p).toNat

/- What one kind answers. -/

namespace Token

theorem exists_of_ofFound_error {source : Text} {negated : Bool} {found : Found} {f : Fault}
    (h : ofFound source negated found = .error f) :
    ∃ construct q, f = .unterminatedNegation construct q := by
  unfold ofFound at h
  split at h
  · split at h
    · cases h
    · exact ⟨_, _, (Except.error.inj h).symm⟩
  · cases h

theorem exists_of_readAt_error {source : Text} {p : Int} {k : Kind} {f : Fault}
    (h : readAt source p k = .error (.fault f)) :
    ∃ construct q, f = .unterminatedNegation construct q := by
  unfold readAt at h
  split at h
  · cases h
  · cases h
  · next found _ =>
    cases answer : ofFound source (isNegatedAt source p) found with
    | ok t => simp [answer, Except.mapError, Except.map] at h
    | error g =>
      rw [answer] at h
      obtain rfl : g = f := by simpa [Except.mapError, Except.map] using h
      exact exists_of_ofFound_error answer

/-- A token that is read too far before the text takes the position back among those that a search
can start from. -/
theorem le_add_length_of_readAt {source : Text} {p : Int} {k : Kind} {t : Token}
    (h : readAt source p k = .ok (some t)) : -0x8000000000000000 ≤ p + t.length := by
  obtain ⟨f, found, made⟩ := exists_search_of_readAt h
  have above := (Text.isSearchable_iff.mp (Clause.isSearchable_of_search found)).1
  rw [(ofFound_eq_ok made).1]
  unfold clauseStart at above
  split at above
  · next negated =>
    rw [negated, Token.length, value_ofClause_true, List.length_append, List.length_append]
    omega
  · omega

end Token

namespace Cursor

def total : List Token → Nat
  | [] => 0
  | t :: ts => t.length + total ts

/-- The cursor moves over tokens one after another while its position is below its length. -/
inductive Passes : Cursor → List Token → Cursor → Prop
  | stay (c : Cursor) : Passes c [] c
  | move {c d : Cursor} {t : Token} {ts : List Token} (unfinished : c.position < c.length)
      (found : c.next = .ok (some t)) (rest : Passes (c.moved t) ts d) : Passes c (t :: ts) d

inductive Halts (ts : List Token) (d : Cursor) : Except ReadError (List Token) → Prop
  | finished : d.length ≤ d.position → Halts ts d (.ok ts)
  | unrecognized (r : Text) : d.position < d.length → d.next = .ok none →
      SliceFrom d.source d.position r →
      Halts ts d (.error (.fault (.unrecognizedSyntax r d.position)))
  | unterminated (construct : Text) (p : Int) : d.position < d.length →
      d.next = .error (.fault (.unterminatedNegation construct p)) →
      Halts ts d (.error (.fault (.unterminatedNegation construct p)))
  | unsearchable (refused : Unsearchable) : d.position < d.length →
      d.next = .error (.unsearchable refused) → Halts ts d (.error (.unsearchable refused))

/- One token. -/

theorem value_ne_nil_of_next {c : Cursor} {t : Token} (found : c.next = .ok (some t)) :
    t.value ≠ [] := List.length_pos_iff.mp (length_pos_of_nextOf found)

theorem position_lt_moved {c : Cursor} {t : Token} (found : c.next = .ok (some t)) :
    c.position < (c.moved t).position := by
  have some_character : 0 < t.length := length_pos_of_nextOf found
  simp only [moved]
  omega

theorem sliceFrom_remainder (c : Cursor) : SliceFrom c.source c.position c.remainder where
  isSuffix := List.drop_suffix _ _
  front inside := by
    rw [remainder, List.length_drop, Text.countedIndex, if_neg (by omega)]
  back before := by
    rw [remainder, List.length_drop, Text.countedIndex, if_pos before]
    omega

/- Several tokens. -/

theorem Passes.eq {c d : Cursor} {ts : List Token} (passes : Passes c ts d) :
    d = { c with position := c.position + total ts } := by
  induction passes with
  | stay c => simp [total]
  | move unfinished found rest ih =>
    rw [ih, total]
    simp only [moved, mk.injEq, true_and, and_true]
    omega

theorem Passes.length_le {c d : Cursor} {ts : List Token} (passes : Passes c ts d) :
    ts.length ≤ (c.length - c.position).toNat := by
  induction passes with
  | stay c => exact Nat.zero_le _
  | move unfinished found rest ih =>
    have further := position_lt_moved found
    simp only [moved] at further ih
    rw [List.length_cons]
    omega

theorem Halts.cons {ts : List Token} {d : Cursor} {result : Except ReadError (List Token)}
    (halts : Halts ts d result) (t : Token) : Halts (t :: ts) d (result.map (t :: ·)) := by
  cases halts with
  | finished done => exact .finished done
  | unrecognized r unfinished nothing slice => exact .unrecognized r unfinished nothing slice
  | unterminated construct p unfinished fault => exact .unterminated construct p unfinished fault
  | unsearchable refused unfinished error => exact .unsearchable refused unfinished error

theorem exists_passes_run (c : Cursor) :
    ∃ ts, Passes c ts c.stopped ∧ Halts ts c.stopped c.run.result := by
  induction c using runOf.induct Kind.all with
  | case1 c unfinished t found ih =>
    have whole : c.run = (c.moved t).run.cons t := run_eq_of_next_some unfinished found
    have same : c.stopped = (c.moved t).stopped := by simp [stopped, whole, Run.cons, moved]
    obtain ⟨ts, passes, halts⟩ := ih
    rw [whole, same]
    exact ⟨t :: ts, .move unfinished found passes, halts.cons t⟩
  | case2 c unfinished found =>
    have whole := run_eq_of_next_none unfinished found
    rw [stopped_eq_self (by rw [whole]), whole]
    exact ⟨[], .stay c, .unrecognized _ unfinished found (sliceFrom_remainder c)⟩
  | case3 c unfinished e found =>
    have whole := run_eq_of_next_error unfinished found
    rw [stopped_eq_self (by rw [whole]), whole]
    refine ⟨[], .stay c, ?_⟩
    cases e with
    | fault f =>
      obtain ⟨k, read⟩ := Token.exists_readAt_of_readFirst found (by simp)
      obtain ⟨construct, p, rfl⟩ := Token.exists_of_readAt_error read
      exact .unterminated construct p unfinished found
    | unsearchable refused => exact .unsearchable refused unfinished found
  | case4 c finished =>
    have whole := run_eq_of_not_lt finished
    rw [stopped_eq_self (by rw [whole]), whole]
    exact ⟨[], .stay c, .finished (by omega)⟩

/-- Only the position that a run starts from can be refused: behind a token it is fit for a search. -/
theorem next_of_run_unsearchable {c : Cursor} {refused : Unsearchable}
    (h : c.run.result = .error (.unsearchable refused)) :
    c.position < c.length ∧ c.next = .error (.unsearchable refused) := by
  by_cases unfinished : c.position < c.length
  · refine ⟨unfinished, ?_⟩
    cases found : c.next with
    | error e => simpa [run_eq_of_next_error unfinished found] using h
    | ok t? =>
      cases t? with
      | none => simp [run_eq_of_next_none unfinished found] at h
      | some t =>
        obtain ⟨k, read⟩ := Token.exists_readAt_of_readFirst found (by simp)
        have later : (c.moved t).run.result ≠ .error (.unsearchable refused) :=
          runOf_ne_unsearchable (Token.le_add_length_of_readAt read)
            (Token.add_length_le_of_readAt read) refused
        rw [run_eq_of_next_some unfinished found] at h
        cases result : (c.moved t).run.result with
        | ok ts => simp [Run.cons, result, Except.map] at h
        | error e =>
          obtain rfl : e = .unsearchable refused := by simpa [Run.cons, result, Except.map] using h
          exact absurd result later
  · simp [run_eq_of_not_lt unfinished] at h

/-- What holds of the run of a cursor, whether or not position and length fit the text. -/
structure Ends (c : Cursor) : Prop where
  progress : ∀ t, c.next = .ok (some t) → t.value ≠ [] ∧ c.position < (c.moved t).position
  passes : ∀ ts d, Passes c ts d → d = { c with position := c.position + total ts } ∧
    ts.length ≤ (c.length - c.position).toNat
  run : ∃ ts, Passes c ts c.stopped ∧ Halts ts c.stopped c.run.result
  succeeded : ∀ ts, c.run.result = .ok ts → Passes c ts c.stopped ∧
    c.run.position = c.position + total ts ∧
    (c.position < c.length → c.length ≤ c.run.position)
  failed : ∀ e, c.run.result = .error e → c.run.position < c.length ∧
    (∃ ts, Passes c ts c.stopped ∧ c.run.position = c.position + total ts) ∧
    ∀ r p, e = .fault (.unrecognizedSyntax r p) → p = c.run.position ∧ SliceFrom c.source p r
  refused : ∀ refused, c.run.result = .error (.unsearchable refused) →
    c.run.position = c.position ∧
      (c.position < -0x8000000000000000 ∨ 0x8000000000000000 ≤ c.position ∧ c.source.length < c.position)
  refuses : c.position < c.length → ∀ start, start = Token.clauseStart c.source c.position →
    (start < -0x8000000000000000 ∨ 0x8000000000000000 ≤ start ∧ c.source.length < start) →
      c.run.result = .error (.unsearchable ⟨start⟩)

theorem every_run_ends (c : Cursor) : c.Ends where
  progress t found := ⟨value_ne_nil_of_next found, position_lt_moved found⟩
  passes ts d passes := ⟨passes.eq, passes.length_le⟩
  run := exists_passes_run c
  succeeded ts result := by
    obtain ⟨us, passes, halts⟩ := exists_passes_run c
    rw [result] at halts
    cases halts with
    | finished done => exact ⟨passes, congrArg position passes.eq, fun _ => done⟩
  failed e result := by
    obtain ⟨ts, passes, halts⟩ := exists_passes_run c
    have place : c.run.position = c.position + total ts := congrArg position passes.eq
    rw [result] at halts
    cases halts with
    | unrecognized r unfinished nothing slice =>
      refine ⟨unfinished, ⟨ts, passes, place⟩, ?_⟩
      intro r' p same
      obtain ⟨rfl, rfl⟩ := Fault.unrecognizedSyntax.inj (ReadError.fault.inj same)
      exact ⟨rfl, slice⟩
    | unterminated construct p unfinished fault =>
      refine ⟨unfinished, ⟨ts, passes, place⟩, ?_⟩
      intro r q same
      cases same
    | unsearchable refused unfinished error =>
      refine ⟨unfinished, ⟨ts, passes, place⟩, ?_⟩
      intro r q same
      cases same
  refused refused result := by
    obtain ⟨unfinished, found⟩ := next_of_run_unsearchable result
    refine ⟨by rw [run_eq_of_next_error unfinished found], ?_⟩
    by_contra inside
    have searchable : c.source.isSearchable c.position = true :=
      Text.isSearchable_iff.mpr (by omega)
    exact Token.readFirst_ne_unsearchable searchable Kind.all refused found
  refuses unfinished start same outside := by
    subst same
    have refused : ¬ c.source.isSearchable (Token.clauseStart c.source c.position) = true := by
      rw [Text.isSearchable_iff]
      omega
    have found : c.next = .error (.unsearchable ⟨Token.clauseStart c.source c.position⟩) :=
      Token.readFirst_of_not_isSearchable refused (by decide)
    rw [run_eq_of_next_error unfinished found]

/-- The token at position -1 is the one at the start, and the second one is its end again; behind the end
there is nothing to read. -/
example : (run ⟨['a', 'b'], -1, 3⟩).result = .error (.fault (.unrecognizedSyntax [] 2)) ∧
    (run ⟨['a', 'b'], -1, 2⟩).result =
      .ok [Token.ofClause false (.tag ['a', 'b']), Token.ofClause false (.tag ['b'])] := by
  decide +kernel

end Cursor

end SelectorClauses
