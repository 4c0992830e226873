import SelectorClauses.Cursor
import SelectorClauses.Proofs.Token.NormalForm

/-!
The next token. What is read at a position depends on the rest of the text only, and one kind of
clause at most has anything to say about it. Main statements: `next_eq_some_iff`,
`next_eq_error_iff` and `next_eq_none_iff` say what stands at the start of a text when the next
token is there, is not closed, or is missing.
-/
namespace SelectorClauses

/-- The same fault in a text with `n` more characters before it. -/
def Fault.moved (n : Nat) : Fault → Fault
  | .unterminatedNegation construct position => .unterminatedNegation construct (n + position)
  | .unrecognizedSyntax remainder position => .unrecognizedSyntax remainder (n + position)

theorem Fault.position_moved (n : Nat) (f : Fault) : (f.moved n).position = n + f.position := by
  cases f <;> rfl

theorem Fault.moved_moved (m n : Nat) (f : Fault) : (f.moved n).moved m = f.moved (m + n) := by
  cases f <;> simp [Fault.moved, Int.add_assoc]

def ReadError.moved (n : Nat) : ReadError → ReadError
  | .fault f => .fault (f.moved n)
  | .unsearchable refused => .unsearchable ⟨n + refused.position⟩

theorem ReadError.moved_zero (e : ReadError) : e.moved 0 = e := by
  cases e with
  | fault f => cases f <;> simp [ReadError.moved, Fault.moved]
  | unsearchable refused => simp [ReadError.moved]

theorem ReadError.moved_moved (m n : Nat) (e : ReadError) :
    (e.moved n).moved m = e.moved (m + n) := by
  cases e <;> simp [ReadError.moved, Fault.moved_moved, Int.add_assoc]

/- An answer whose error is moved is the same answer otherwise. -/

theorem mapError_eq_ok_iff {ε δ α : Type} {answer : Except ε α} {g : ε → δ} {a : α} :
    answer.mapError g = .ok a ↔ answer = .ok a := by
  cases answer <;> simp [Except.mapError]

theorem mapError_eq_error_iff {ε δ α : Type} {answer : Except ε α} {g : ε → δ} {e : δ} :
    answer.mapError g = .error e ↔ ∃ e', answer = .error e' ∧ g e' = e := by
  cases answer <;> simp [Except.mapError]

namespace Clause

theorem find?_natCast (k : Kind) (source : Text) (n : Nat) :
    find? k source n = (read? k (source.drop n)).map fun p => ⟨n, p.1⟩ := by
  by_cases inside : n ≤ source.length
  · simp [find?, Text.clampedIndex_ofNat inside]
  · -- behind the end there is nothing to read, at the index and at the end alike
    have nothing : ∀ i, source.length ≤ i → read? k (source.drop i) = none := by
      intro i beyond
      rw [List.drop_eq_nil_of_le beyond]
      cases k <;> rfl
    have clamped : source.length ≤ source.clampedIndex n := by
      rw [Text.clampedIndex]
      omega
    rw [find?, nothing _ clamped, nothing n (by omega)]
    rfl

theorem find?_zero (k : Kind) (t : Text) :
    find? k t 0 = (read? k t).map fun p => ⟨0, p.1⟩ := by
  simp [find?, Text.clampedIndex]

theorem kind_eq_of_find? {j k : Kind} {source : Text} {position : Int} {f g : Found}
    (hj : find? j source position = some f) (hk : find? k source position = some g) : j = k := by
  obtain ⟨p, readJ, -⟩ := Option.map_eq_some_iff.mp hj
  obtain ⟨q, readK, -⟩ := Option.map_eq_some_iff.mp hk
  exact kind_eq_of_read? readJ readK

end Clause

namespace Token

theorem isNegatedAt_ofNat (source : Text) (n : Nat) :
    isNegatedAt source n = negationOpen.isPrefixOf (source.drop n) := by
  simp [isNegatedAt, Text.countedIndex_ofNat]

theorem isNegatedAt_zero (t : Text) : isNegatedAt t 0 = negationOpen.isPrefixOf t := by
  simp [isNegatedAt, Text.countedIndex]

/- One kind at a time. -/

theorem readAt_of_isSearchable {source : Text} {position : Int}
    (searchable : source.isSearchable (clauseStart source position) = true) (k : Kind) :
    readAt source position k = match Clause.find? k source (clauseStart source position) with
      | none => .ok none
      | some f => ((ofFound source (isNegatedAt source position) f).mapError .fault).map some := by
  rw [readAt, Clause.search_of_isSearchable searchable]
  cases Clause.find? k source (clauseStart source position) <;> rfl

theorem readAt_of_not_isSearchable {source : Text} {position : Int}
    (refused : ¬ source.isSearchable (clauseStart source position) = true) (k : Kind) :
    readAt source position k = .error (.unsearchable ⟨clauseStart source position⟩) := by
  rw [readAt, Clause.search, if_neg refused]

theorem find?_of_readAt_ne_none {source : Text} {position : Int} {k : Kind}
    (searchable : source.isSearchable (clauseStart source position) = true)
    (h : readAt source position k ≠ .ok none) :
    ∃ f, Clause.find? k source (clauseStart source position) = some f := by
  rw [readAt_of_isSearchable searchable] at h
  cases found : Clause.find? k source (clauseStart source position) with
  | none => simp [found] at h
  | some f => exact ⟨f, rfl⟩

theorem readAt_eq_none_of_ne {source : Text} {position : Int} {j k : Kind} (different : k ≠ j)
    (searchable : source.isSearchable (clauseStart source position) = true)
    (h : readAt source position j ≠ .ok none) : readAt source position k = .ok none := by
  by_cases other : readAt source position k = .ok none
  · exact other
  · obtain ⟨f, foundJ⟩ := find?_of_readAt_ne_none searchable h
    obtain ⟨g, foundK⟩ := find?_of_readAt_ne_none searchable other
    exact absurd (Clause.kind_eq_of_find? foundK foundJ) different

theorem readFirst_eq_none {source : Text} {position : Int} {kinds : List Kind}
    (h : ∀ k ∈ kinds, readAt source position k = .ok none) :
    readFirst source position kinds = .ok none := by
  induction kinds with
  | nil => rfl
  | cons k ks ih =>
    rw [readFirst, h k (by simp)]
    exact ih fun j mem => h j (by simp [mem])

theorem readFirst_eq_of_mem {source : Text} {position : Int} {kinds : List Kind} {k : Kind}
    (mem : k ∈ kinds) (searchable : source.isSearchable (clauseStart source position) = true)
    (h : readAt source position k ≠ .ok none) :
    readFirst source position kinds = readAt source position k := by
  induction kinds with
  | nil => simp at mem
  | cons j js ih =>
    rw [readFirst]
    by_cases same : j = k
    · subst same
      split
      · next nothing => exact absurd nothing h
      · rfl
    · rw [readAt_eq_none_of_ne same searchable h]
      exact ih ((List.mem_cons.mp mem).resolve_left (Ne.symm same))

/-- Whatever kind comes first is refused, with the error that all kinds have. -/
theorem readFirst_of_not_isSearchable {source : Text} {position : Int} {kinds : List Kind}
    (refused : ¬ source.isSearchable (clauseStart source position) = true) (nonempty : kinds ≠ []) :
    readFirst source position kinds = .error (.unsearchable ⟨clauseStart source position⟩) := by
  cases kinds with
  | nil => contradiction
  | cons k ks => rw [readFirst, readAt_of_not_isSearchable refused]

/- Reading at a position and at the start of the rest. -/

theorem isSearchable_clauseStart_zero (t : Text) : t.isSearchable (clauseStart t 0) = true :=
  isSearchable_clauseStart (Text.isSearchable_ofNat (Nat.zero_le _))

theorem clauseStart_drop (source : Text) (n : Nat) :
    clauseStart source n = n + clauseStart (source.drop n) 0 := by
  have atStart : isNegatedAt (source.drop n) 0 = isNegatedAt source n := by
    rw [isNegatedAt_zero, isNegatedAt_ofNat]
  rw [clauseStart, clauseStart, atStart]
  split <;> omega

theorem ofFound_drop (source : Text) (n : Nat) (negated : Bool) (start : Nat) (c : Clause) :
    ofFound source negated ⟨n + start, c⟩ =
      (ofFound (source.drop n) negated ⟨start, c⟩).mapError (Fault.moved n) := by
  unfold ofFound
  simp only [Found.stop, List.drop_drop, Nat.add_assoc]
  split
  · split
    · rfl
    · simp [Except.mapError, Fault.moved]
  · rfl

theorem readAt_drop {source : Text} {n : Nat} (searchable : source.isSearchable n = true)
    (k : Kind) : readAt source n k = (readAt (source.drop n) 0 k).mapError (ReadError.moved n) := by
  have atStart : isNegatedAt (source.drop n) 0 = isNegatedAt source n := by
    rw [isNegatedAt_zero, isNegatedAt_ofNat]
  have place : ∃ m : Nat, clauseStart (source.drop n) 0 = m := by
    unfold clauseStart
    split
    · exact ⟨negationOpen.length, Int.zero_add _⟩
    · exact ⟨0, rfl⟩
  obtain ⟨m, place⟩ := place
  have here := Clause.find?_natCast k source (n + m)
  have there := Clause.find?_natCast k (source.drop n) m
  rw [List.drop_drop] at there
  rw [Int.natCast_add] at here
  rw [readAt_of_isSearchable (isSearchable_clauseStart searchable),
    readAt_of_isSearchable (isSearchable_clauseStart_zero _), clauseStart_drop, place, here, there,
    atStart]
  cases Clause.read? k (source.drop (n + m)) with
  | none => rfl
  | some p =>
    simp only [Option.map_some, ofFound_drop]
    cases ofFound (source.drop n) (isNegatedAt source n) ⟨m, p.1⟩ <;> rfl

theorem readFirst_drop {source : Text} {n : Nat} (searchable : source.isSearchable n = true)
    (kinds : List Kind) : readFirst source n kinds =
      (readFirst (source.drop n) 0 kinds).mapError (ReadError.moved n) := by
  induction kinds with
  | nil => rfl
  | cons k ks ih =>
    rw [readFirst, readFirst, readAt_drop searchable, ih]
    cases readAt (source.drop n) 0 k with
    | error f => rfl
    | ok found => cases found <;> rfl

/- What stands at the start of a text. -/

/-- A token in front of a text: if an identifier is at its end, the text does not carry it on. -/
structure Stands (t : Token) (rest : Text) : Prop where
  wellFormed : t.WellFormed
  ends : t.isOpen = true → Name.EndsAt t.data rest

theorem stands_of_head {t : Token} {rest : Text} (wellFormed : t.WellFormed)
    (stop : ∀ c ∈ rest.head?, continuesName c = false) : t.Stands rest :=
  ⟨wellFormed, fun _ => Name.endsAt_of_head wellFormed.data stop⟩

theorem stands_of_not_isOpen {t : Token} {rest : Text} (wellFormed : t.WellFormed)
    (closed : t.isOpen = false) : t.Stands rest :=
  ⟨wellFormed, fun isOpen => by simp [closed] at isOpen⟩

theorem stands_ofClause_false {c : Clause} {rest : Text} (h : c.Stands rest) :
    (ofClause false c).Stands rest := by
  refine ⟨wellFormed_ofClause false h.wellFormed, ?_⟩
  intro isOpen
  exact h.ends (by simpa using isOpen)

theorem Stands.clause {c : Clause} {rest : Text} (wellFormed : c.WellFormed)
    (h : (ofClause false c).Stands rest) : c.Stands rest := by
  refine ⟨wellFormed, ?_⟩
  intro notAttr
  exact h.ends (by simpa using notAttr)

def negatedAnswer : Option (Clause × Text) → Except ReadError (Option Token)
  | none => .ok none
  | some (c, r) =>
    if r.head? = some negationClose then .ok (some (ofClause true c))
    else
      let construct := negationOpen ++ c.print
      .error (.fault (.unterminatedNegation construct construct.length))

def plainAnswer (found : Option (Clause × Text)) : Except ReadError (Option Token) :=
  .ok (found.map fun p => ofClause false p.1)

theorem negatedAnswer_eq_none_iff {found : Option (Clause × Text)} :
    negatedAnswer found = .ok none ↔ found = none := by
  cases found with
  | none => simp [negatedAnswer]
  | some p =>
    rw [negatedAnswer]
    split <;> simp

theorem negatedAnswer_eq_some_iff {found : Option (Clause × Text)} {t : Token} :
    negatedAnswer found = .ok (some t) ↔
      ∃ c r, found = some (c, negationClose :: r) ∧ t = ofClause true c := by
  constructor
  · intro h
    cases found with
    | none => simp [negatedAnswer] at h
    | some p =>
      obtain ⟨c, r⟩ := p
      rw [negatedAnswer] at h
      split at h
      · next closed =>
        obtain ⟨r', behind⟩ := List.head?_eq_some_iff.mp closed
        exact ⟨c, r', by rw [behind], by simpa using h.symm⟩
      · simp at h
  · intro h
    obtain ⟨c, r, rfl, rfl⟩ := h
    simp [negatedAnswer]

theorem negatedAnswer_eq_error_iff {found : Option (Clause × Text)} {e : ReadError} :
    negatedAnswer found = .error e ↔
      ∃ c r, found = some (c, r) ∧ r.head? ≠ some negationClose ∧ e = .fault
        (.unterminatedNegation (negationOpen ++ c.print) (negationOpen ++ c.print).length) := by
  constructor
  · intro h
    cases found with
    | none => simp [negatedAnswer] at h
    | some p =>
      obtain ⟨c, r⟩ := p
      rw [negatedAnswer] at h
      split at h
      · simp at h
      · next missing => exact ⟨c, r, rfl, missing, (Except.error.inj h).symm⟩
  · intro h
    obtain ⟨c, r, rfl, missing, rfl⟩ := h
    rw [negatedAnswer, if_neg missing]

theorem plainAnswer_eq_none_iff {found : Option (Clause × Text)} :
    plainAnswer found = .ok none ↔ found = none := by simp [plainAnswer]

theorem plainAnswer_eq_some_iff {found : Option (Clause × Text)} {t : Token} :
    plainAnswer found = .ok (some t) ↔ ∃ c r, found = some (c, r) ∧ t = ofClause false c := by
  cases found with
  | none => simp [plainAnswer]
  | some p =>
    obtain ⟨c, r⟩ := p
    simp [plainAnswer, eq_comm]

theorem plainAnswer_ne_error (found : Option (Clause × Text)) (e : ReadError) :
    plainAnswer found ≠ .error e := by simp [plainAnswer]

theorem readAt_zero_negated (u : Text) (k : Kind) :
    readAt (negationOpen ++ u) 0 k = negatedAnswer (Clause.read? k u) := by
  have found := Clause.find?_natCast k (negationOpen ++ u) negationOpen.length
  rw [List.drop_left] at found
  have negated : isNegatedAt (negationOpen ++ u) 0 = true := by
    rw [isNegatedAt_zero, List.isPrefixOf_iff_prefix]
    exact List.prefix_append _ _
  rw [readAt_of_isSearchable (isSearchable_clauseStart_zero _), clauseStart, if_pos negated,
    Int.zero_add, found]
  cases read : Clause.read? k u with
  | none => rfl
  | some p =>
    have split := (Clause.read?_eq_some_iff.mp read).1
    have behind : (negationOpen ++ u).drop (negationOpen.length + p.1.print.length) = p.2 := by
      rw [split, ← List.append_assoc, ← List.length_append, List.drop_left]
    simp only [Option.map_some, ofFound, negated, if_true, Found.stop, behind, negatedAnswer]
    split <;> simp [Except.mapError, Except.map]

theorem readAt_zero_plain {t : Text} (plain : ∀ u, t ≠ negationOpen ++ u) (k : Kind) :
    readAt t 0 k = plainAnswer (Clause.read? k t) := by
  have notNegated : ¬ isNegatedAt t 0 = true := by
    rw [isNegatedAt_zero, List.isPrefixOf_iff_prefix]
    intro starts
    obtain ⟨u, same⟩ := starts
    exact plain u same.symm
  rw [readAt_of_isSearchable (isSearchable_clauseStart_zero _), clauseStart, if_neg notNegated,
    Clause.find?_zero]
  cases Clause.read? k t with
  | none => rfl
  | some p => simp [ofFound, notNegated, plainAnswer, Except.mapError, Except.map]

theorem mem_all (k : Kind) : k ∈ Kind.all := by cases k <;> simp [Kind.all]

/-- If every kind answers by the clause of that kind, the first answer is that of the only clause
there is. -/
theorem readFirst_eq_of_answers {t u : Text}
    {answer : Option (Clause × Text) → Except ReadError (Option Token)}
    (silent : ∀ found, answer found = .ok none ↔ found = none)
    (answers : ∀ k, readAt t 0 k = answer (Clause.read? k u)) :
    readFirst t 0 Kind.all = answer (Clause.first? u) := by
  cases found : Clause.first? u with
  | none =>
    rw [(silent none).mpr rfl]
    apply readFirst_eq_none
    intro k _
    rw [answers, Clause.read?_eq_none_of_first? found]
    exact (silent none).mpr rfl
  | some p =>
    obtain ⟨k, read⟩ := Clause.exists_read?_of_first? found
    have here : readAt t 0 k = answer (some p) := by rw [answers, read]
    rw [← here]
    apply readFirst_eq_of_mem (mem_all k) (isSearchable_clauseStart_zero t)
    rw [here]
    intro nothing
    exact Option.some_ne_none p ((silent _).mp nothing)

theorem next_negated (u : Text) :
    (Cursor.ofText (negationOpen ++ u)).next = negatedAnswer (Clause.first? u) :=
  readFirst_eq_of_answers (fun _ => negatedAnswer_eq_none_iff) (readAt_zero_negated u)

theorem next_plain {t : Text} (plain : ∀ u, t ≠ negationOpen ++ u) :
    (Cursor.ofText t).next = plainAnswer (Clause.first? t) :=
  readFirst_eq_of_answers (fun _ => plainAnswer_eq_none_iff) (readAt_zero_plain plain)

theorem negated_or_plain (t : Text) :
    (∃ u, t = negationOpen ++ u) ∨ ∀ u, t ≠ negationOpen ++ u := by
  by_cases negated : ∃ u, t = negationOpen ++ u
  · exact Or.inl negated
  · apply Or.inr
    intro u same
    exact negated ⟨u, same⟩

theorem exists_stands_of_next {t : Text} {tok : Token}
    (h : (Cursor.ofText t).next = .ok (some tok)) : ∃ r, tok.Stands r ∧ t = tok.value ++ r := by
  rcases negated_or_plain t with negated | plain
  · obtain ⟨u, rfl⟩ := negated
    rw [next_negated, negatedAnswer_eq_some_iff] at h
    obtain ⟨c, r, found, rfl⟩ := h
    obtain ⟨rfl, stands⟩ := Clause.first?_eq_some_iff.mp found
    refine ⟨r, stands_of_not_isOpen (wellFormed_ofClause true stands.wellFormed) rfl, ?_⟩
    simp [value_ofClause_true]
  · rw [next_plain plain, plainAnswer_eq_some_iff] at h
    obtain ⟨c, r, found, rfl⟩ := h
    obtain ⟨split, stands⟩ := Clause.first?_eq_some_iff.mp found
    exact ⟨r, stands_ofClause_false stands, split⟩

theorem next_of_stands {tok : Token} {r : Text} (stands : tok.Stands r) :
    (Cursor.ofText (tok.value ++ r)).next = .ok (some tok) := by
  obtain ⟨c, wellFormed, same⟩ := stands.wellFormed.exists_ofClause
  cases sign : tok.negated with
  | false =>
    rw [sign] at same
    subst same
    have clause := stands.clause wellFormed
    rw [value_ofClause_false, next_plain (wellFormed.print_append_ne_negationOpen r),
      Clause.first?_eq_some_iff.mpr ⟨rfl, clause⟩]
    rfl
  | true =>
    rw [sign] at same
    subst same
    -- the parenthesis ends the identifier, whatever comes after the token
    have clause : c.Stands (negationClose :: r) :=
      Clause.stands_of_head wellFormed (by simp; decide)
    have behind : (ofClause true c).value ++ r =
        negationOpen ++ (c.print ++ negationClose :: r) := by simp [value_ofClause_true]
    rw [behind, next_negated, Clause.first?_eq_some_iff.mpr ⟨rfl, clause⟩]
    exact negatedAnswer_eq_some_iff.mpr ⟨c, r, rfl, rfl⟩

theorem next_eq_some_iff {t : Text} {tok : Token} :
    (Cursor.ofText t).next = .ok (some tok) ↔ ∃ r, tok.Stands r ∧ t = tok.value ++ r := by
  constructor
  · exact exists_stands_of_next
  · intro h
    obtain ⟨r, stands, rfl⟩ := h
    exact next_of_stands stands

theorem next_eq_error_iff {t : Text} {e : ReadError} :
    (Cursor.ofText t).next = .error e ↔
      ∃ (c : Clause) (r : Text), c.Stands r ∧ t = negationOpen ++ c.print ++ r ∧
        r.head? ≠ some negationClose ∧ e = .fault
          (.unterminatedNegation (negationOpen ++ c.print) (negationOpen ++ c.print).length) := by
  constructor
  · intro h
    rcases negated_or_plain t with negated | plain
    · obtain ⟨u, rfl⟩ := negated
      rw [next_negated, negatedAnswer_eq_error_iff] at h
      obtain ⟨c, r, found, missing, rfl⟩ := h
      obtain ⟨rfl, stands⟩ := Clause.first?_eq_some_iff.mp found
      exact ⟨c, r, stands, by rw [List.append_assoc], missing, rfl⟩
    · rw [next_plain plain] at h
      exact absurd h (plainAnswer_ne_error _ _)
  · intro h
    obtain ⟨c, r, stands, rfl, missing, rfl⟩ := h
    rw [List.append_assoc, next_negated, negatedAnswer_eq_error_iff]
    exact ⟨c, r, Clause.first?_eq_some_iff.mpr ⟨rfl, stands⟩, missing, rfl⟩

theorem next_eq_fault_iff {t : Text} {f : Fault} :
    (Cursor.ofText t).next = .error (.fault f) ↔
      ∃ (c : Clause) (r : Text), c.Stands r ∧ t = negationOpen ++ c.print ++ r ∧
        r.head? ≠ some negationClose ∧
        f = .unterminatedNegation (negationOpen ++ c.print) (negationOpen ++ c.print).length := by
  simp only [next_eq_error_iff, ReadError.fault.injEq]

theorem next_eq_none_iff {t : Text} :
    (Cursor.ofText t).next = .ok none ↔
      ∀ (c : Clause) (r : Text), c.WellFormed →
        t ≠ c.print ++ r ∧ t ≠ negationOpen ++ c.print ++ r := by
  rcases negated_or_plain t with negated | plain
  · obtain ⟨u, rfl⟩ := negated
    rw [next_negated, negatedAnswer_eq_none_iff, Clause.first?_eq_none_iff]
    constructor
    · intro none_begins c r wellFormed
      refine ⟨(wellFormed.print_append_ne_negationOpen r u).symm, ?_⟩
      intro same
      exact none_begins c r wellFormed (by simpa using same)
    · intro none_begins c r wellFormed same
      exact (none_begins c r wellFormed).2 (by simp [same])
  · rw [next_plain plain, plainAnswer_eq_none_iff, Clause.first?_eq_none_iff]
    constructor
    · intro none_begins c r wellFormed
      exact ⟨none_begins c r wellFormed, by simpa using plain (c.print ++ r)⟩
    · intro none_begins c r wellFormed
      exact (none_begins c r wellFormed).1

/-- Where a well-formed token begins it is the next one, or carries its identifier on. -/
theorem exists_next_carryOn {t : Token} (wellFormed : t.WellFormed) (rest : Text) :
    ∃ v r, rest = v ++ r ∧ (t.isOpen = false → v = []) ∧
      (Cursor.ofText (t.value ++ rest)).next = .ok (some (t.carryOn v)) := by
  cases isOpen : t.isOpen with
  | false =>
    have stands : t.Stands rest := stands_of_not_isOpen wellFormed isOpen
    refine ⟨[], rest, rfl, fun _ => rfl, ?_⟩
    simpa [carryOn] using next_of_stands stands
  | true =>
    obtain ⟨v, r, rfl, found⟩ := Name.exists_identifier?_append wellFormed.data rest
    obtain ⟨-, longer, ends⟩ := Name.identifier?_eq_some_iff.mp found
    have stands : (t.carryOn v).Stands r := ⟨wellFormed.carryOn isOpen longer, fun _ => ends⟩
    refine ⟨v, r, rfl, by simp, next_eq_some_iff.mpr ⟨r, stands, ?_⟩⟩
    simp [carryOn]

theorem exists_next_of_wellFormed {t : Token} (wellFormed : t.WellFormed) (rest : Text) :
    ∃ tok r, (Cursor.ofText (t.value ++ rest)).next = .ok (some tok) ∧
      t.value ++ rest = tok.value ++ r ∧ r.length ≤ rest.length := by
  obtain ⟨v, r, rfl, -, found⟩ := exists_next_carryOn wellFormed rest
  exact ⟨t.carryOn v, r, found, by simp [carryOn], by simp⟩

end Token

end SelectorClauses
