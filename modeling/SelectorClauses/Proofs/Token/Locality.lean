import SelectorClauses.Proofs.Token.Matching

/-!
Reading in the middle of a text. What stands before the index makes no difference to what is read there, and
what is read is what stands there. Main statement: `reading_is_local` says so of the matches and of the tokens
of each kind, and that an unclosed negation is told of at the place to which it was moved.
-/
namespace SelectorClauses

structure SameMatch (d : Nat) (f g : Found) : Prop where
  text : g.clause.print = f.clause.print
  parts : g.parts = f.parts
  start : g.start = d + f.start
  stop : g.stop = d + f.stop

/-- Answers of two places that lie `d` characters apart: the same token, none at either, or at both a negation
of the same text that is not closed. -/
inductive SameAnswer (d : Nat) :
    Except ReadError (Option Token) → Except ReadError (Option Token) → Prop
  | token (t : Token) : SameAnswer d (.ok (some t)) (.ok (some t))
  | nothing : SameAnswer d (.ok none) (.ok none)
  | unterminated (construct : Text) (position : Int) :
      SameAnswer d (.error (.fault (.unterminatedNegation construct position)))
        (.error (.fault (.unterminatedNegation construct (d + position))))

/- Matches. -/

theorem Clause.find?_append (k : Kind) (p text : Text) (n : Nat) :
    find? k (p ++ text) ↑(p.length + n) =
      (find? k text n).map fun f => ⟨p.length + f.start, f.clause⟩ := by
  rw [find?_natCast, find?_natCast, List.drop_length_add_append, Option.map_map]
  rfl

theorem sameMatch_find?_append (k : Kind) (p text : Text) (n : Nat) :
    Option.Rel (SameMatch p.length) (Clause.find? k text n)
      (Clause.find? k (p ++ text) ↑(p.length + n)) := by
  rw [Clause.find?_append]
  cases Clause.find? k text n with
  | none => exact .none
  | some f => exact .some ⟨rfl, rfl, rfl, Nat.add_assoc _ _ _⟩

theorem Clause.span_of_find? {k : Kind} {text : Text} {n : Nat} {f : Found}
    (h : find? k text n = some f) :
    f.start = n ∧ (text.drop f.start).take (f.stop - f.start) = f.clause.print := by
  obtain ⟨start, r, read⟩ := read?_of_find? h
  have split := eq_print_of_read? read
  have long : f.stop - f.start = f.clause.print.length := Nat.add_sub_cancel_left _ _
  exact ⟨start, by rw [long, start, split, List.take_left]⟩

namespace Token

/- Answers. -/

theorem next_ofText_of_readAt {t : Text} {k : Kind} (answered : readAt t 0 k ≠ .ok none) :
    (Cursor.ofText t).next = readAt t 0 k :=
  readFirst_eq_of_mem (mem_all k) (isSearchable_clauseStart_zero t) answered

theorem isSearchable_of_clauseStart {source : Text} {n : Nat}
    (h : source.isSearchable (clauseStart source n) = true) : source.isSearchable n = true := by
  unfold clauseStart at h
  split at h
  · rw [Text.isSearchable_iff] at h ⊢
    omega
  · exact h

theorem isSearchable_of_readAt {source : Text} {n : Nat} (k : Kind)
    (h : ∀ refused, readAt source n k ≠ .error (.unsearchable refused)) :
    source.isSearchable n = true := by
  by_contra outside
  exact h _ (readAt_of_not_isSearchable (fun inside => outside (isSearchable_of_clauseStart inside)) k)

theorem readAt_append (k : Kind) (p : Text) {text : Text} {n : Nat}
    (here : text.isSearchable n = true)
    (moved : (p ++ text).isSearchable ↑(p.length + n) = true) :
    readAt (p ++ text) ↑(p.length + n) k =
      (readAt text n k).mapError (ReadError.moved p.length) := by
  rw [readAt_drop moved, readAt_drop here, List.drop_length_add_append]
  cases readAt (text.drop n) 0 k with
  | ok found => rfl
  | error e => simp [Except.mapError, ReadError.moved_moved]

theorem exists_append_of_readAt {text : Text} {n : Nat} {k : Kind} {t : Token}
    (h : readAt text n k = .ok (some t)) : ∃ r, text.drop n = t.value ++ r := by
  rw [readAt_drop (isSearchable_of_readAt k (by simp [h])), mapError_eq_ok_iff] at h
  have next := next_ofText_of_readAt (by rw [h]; simp)
  obtain ⟨r, -, split⟩ := next_eq_some_iff.mp (next.trans h)
  exact ⟨r, split⟩

theorem exists_append_of_readAt_error {text : Text} {n : Nat} {k : Kind} {f : Fault}
    (h : readAt text n k = .error (.fault f)) : ∃ construct r, text.drop n = construct ++ r ∧
      f = .unterminatedNegation construct (n + construct.length) := by
  rw [readAt_drop (isSearchable_of_readAt k (by simp [h])), mapError_eq_error_iff] at h
  obtain ⟨g, error, same⟩ := h
  have next := next_ofText_of_readAt (by rw [error]; simp)
  obtain ⟨c, r, -, split, -, rfl⟩ := next_eq_error_iff.mp (next.trans error)
  exact ⟨negationOpen ++ c.print, r, split, (ReadError.fault.inj same).symm⟩

theorem sameAnswer_readAt_append (k : Kind) (p : Text) {text : Text} {n : Nat}
    (here : text.isSearchable n = true)
    (moved : (p ++ text).isSearchable ↑(p.length + n) = true) :
    SameAnswer p.length (readAt text n k) (readAt (p ++ text) ↑(p.length + n) k) := by
  rw [readAt_append k p here moved]
  cases answer : readAt text n k with
  | ok found =>
    cases found with
    | none => exact .nothing
    | some t => exact .token t
  | error e =>
    cases e with
    | fault f =>
      obtain ⟨construct, r, -, rfl⟩ := exists_append_of_readAt_error answer
      exact .unterminated construct _
    | unsearchable refused => exact absurd answer (readAt_ne_unsearchable here k refused)

theorem exists_find?_of_negated {source : Text} {position : Int} {k : Kind} {t : Token}
    (h : readAt source position k = .ok (some t)) (negated : t.negated = true) :
    ∃ f, Clause.find? k source (position + negationOpen.length) = some f ∧
      t.value = negationOpen ++ f.clause.print ++ [negationClose] := by
  obtain ⟨f, found, made⟩ := exists_search_of_readAt h
  obtain ⟨rfl, -⟩ := ofFound_eq_ok made
  have sign : isNegatedAt source position = true := negated
  rw [clauseStart, if_pos sign] at found
  exact ⟨f, Clause.search_eq_ok found, by rw [sign, value_ofClause_true]⟩

end Token

/-- What reading a kind at an index of a text comes to, there and with more text in front. -/
structure LocalReading (k : Kind) (p text : Text) (n : Nat) : Prop where
  searches : n ≤ text.length → Clause.search k text n = .ok (Clause.find? k text n) ∧
    Clause.search k (p ++ text) ↑(p.length + n) = .ok (Clause.find? k (p ++ text) ↑(p.length + n))
  matched : Option.Rel (SameMatch p.length) (Clause.find? k text n)
    (Clause.find? k (p ++ text) ↑(p.length + n))
  searched : (Clause.find? k (p ++ text) ↑(p.length + n)).map Found.toMatch =
    ((Pattern.ofKind k).first? (text.drop n)).map (Way.toMatch k (p.length + n))
  span : ∀ f, Clause.find? k text n = some f →
    f.start = n ∧ (text.drop f.start).take (f.stop - f.start) = f.clause.print
  answered : n ≤ text.length ∨ p.length + n < 0x8000000000000000 → SameAnswer p.length
    (Token.readAt text n k) (Token.readAt (p ++ text) ↑(p.length + n) k)
  value : ∀ t, Token.readAt text n k = .ok (some t) → t.value = (text.drop n).take t.length
  wrapped : ∀ t, Token.readAt text n k = .ok (some t) → t.negated = true →
    ∃ f, Clause.find? k text (n + negationOpen.length) = some f ∧
      t.value = negationOpen ++ f.clause.print ++ [negationClose]
  unclosed : ∀ construct position,
    Token.readAt text n k = .error (.fault (.unterminatedNegation construct position)) →
      position = n + construct.length ∧ construct = (text.drop n).take construct.length

/-- An index counts from the front, so text in front moves what is read and changes nothing else. -/
theorem reading_is_local (k : Kind) (p text : Text) (n : Nat) : LocalReading k p text n where
  searches inside := by
    have moved : p.length + n ≤ (p ++ text).length := by
      rw [List.length_append]
      omega
    exact ⟨Clause.search_ofNat inside k, Clause.search_ofNat moved k⟩
  matched := sameMatch_find?_append k p text n
  searched := by rw [find?_toMatch, List.drop_length_add_append]
  span _ found := Clause.span_of_find? found
  answered inside := by
    apply Token.sameAnswer_readAt_append k p
    · rw [Text.isSearchable_iff]
      omega
    · rw [Text.isSearchable_iff, List.length_append]
      omega
  value t read := by
    obtain ⟨r, split⟩ := Token.exists_append_of_readAt read
    rw [split, Token.length, List.take_left]
  wrapped _ read negated := Token.exists_find?_of_negated read negated
  unclosed construct position fault := by
    obtain ⟨construct', r, split, same⟩ := Token.exists_append_of_readAt_error fault
    obtain ⟨rfl, rfl⟩ := Fault.unterminatedNegation.inj same
    exact ⟨rfl, by rw [split, List.take_left]⟩

/-- A position that counts from the end has it otherwise: the last character is a tag of its own, and the tag
that is read at -1 is the whole text. -/
example : Token.readAt ['a', 'b'] (-1) .tag = .ok (some (.ofClause false (.tag ['a', 'b']))) ∧
    Token.readAt ['a', 'b'] 1 .tag = .ok (some (.ofClause false (.tag ['b']))) := by
  decide +kernel

end SelectorClauses
