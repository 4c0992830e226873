import SelectorClauses.Proofs.Tokenizing.Acceptance

/-!
What a fault says about the text in which it was found. Main statement: `locates_of_tokenize`
says that the place and the text of a fault are right, and that a closing parenthesis put where
an unclosed negation asks for it mends the text up to there.
-/
namespace SelectorClauses

open Token

namespace Fault

structure UnrecognizedAt (source remainder : Text) (p : Nat) : Prop where
  inside : p < source.length
  remainder_eq : remainder = source.drop p
  before : Accepted (source.take p)
  noNegation : ∀ c r, IsClause c → remainder ≠ negationOpen ++ c ++ r

/-- The fault of a text in which a negated clause ends at the index `p` and is not closed there. -/
structure UnterminatedAt (source construct : Text) (p : Nat) : Prop where
  before : ∃ start, start + construct.length = p ∧ construct = (source.take p).drop start ∧
    Accepted (source.take start)
  clause : ∃ c t, construct = negationOpen ++ c ∧ tokenize c = .ok [t] ∧ t.negated = false
  notClosed : source[p]? ≠ some negationClose
  -- With a parenthesis there, the text so far splits, and its last token is the negation.
  closed : ∃ ts t, tokenize (source.take p ++ [negationClose]) = .ok (ts ++ [t]) ∧
    t.negated = true ∧ t.value = construct ++ [negationClose]
  later : ∀ f, tokenize (source.take p ++ negationClose :: source.drop p) = .error f →
    (p : Int) + 1 ≤ f.position

def Locates (source : Text) : Fault → Prop
  | .unrecognizedSyntax remainder position =>
    ∃ p : Nat, position = p ∧ UnrecognizedAt source remainder p
  | .unterminatedNegation construct position =>
    (unterminatedNegation construct position).message =
      "Expected close-parenthesis after '".toList ++ construct ++ ['\''] ∧
    ∃ p : Nat, position = p ∧ UnterminatedAt source construct p

end Fault

theorem position_run_le_of_error {t : Text} {f : Fault} (h : tokenize t = .error f) :
    (Cursor.ofText t).run.position ≤ f.position := by
  obtain ⟨ts, rest, g, reads, stops, rfl, place⟩ := exists_reads_of_tokenize_eq_error h
  have notBefore : 0 ≤ g.position := by
    rcases place with ⟨-, -, rfl⟩ | found
    · exact Int.le_refl 0
    · obtain ⟨c, r, -, -, -, rfl⟩ := next_eq_fault_iff.mp found
      exact Int.natCast_nonneg _
  rw [position_run_of_reads reads stops, Fault.position_moved]
  omega

theorem unrecognizedAt_of_next {ts : List Token} {rest : Text} (normal : NormalForm ts)
    (nonempty : rest ≠ []) (nothing : (Cursor.ofText rest).next = .ok none) :
    Fault.UnrecognizedAt (textOf ts ++ rest) rest (textOf ts).length where
  inside := by
    have := List.length_pos_iff.mpr nonempty
    rw [List.length_append]
    omega
  remainder_eq := by rw [List.drop_left]
  before := by
    rw [List.take_left]
    exact accepted_textOf normal
  noNegation := by
    intro text r isClause
    obtain ⟨c, wellFormed, rfl⟩ := isClause
    exact (next_eq_none_iff.mp nothing c r wellFormed).2

theorem normalForm_concat_negated {ts : List Token} {c : Clause} (normal : NormalForm ts)
    (wellFormed : c.WellFormed) : NormalForm (ts ++ [ofClause true c]) := by
  refine normalForm_concat_iff.mpr ⟨normal, wellFormed_ofClause true wellFormed, ?_⟩
  intro s _ both
  simp [isPlainTag, ofClause] at both

theorem unterminatedAt_of_stands {ts : List Token} {c : Clause} {r : Text}
    (normal : NormalForm ts) (stands : c.Stands r) (open_ended : r.head? ≠ some negationClose) :
    Fault.UnterminatedAt (textOf ts ++ (negationOpen ++ c.print ++ r)) (negationOpen ++ c.print)
      ((textOf ts).length + (negationOpen ++ c.print).length) := by
  have longer := normalForm_concat_negated normal stands.wellFormed
  have upTo : (textOf ts ++ (negationOpen ++ c.print ++ r)).take
      ((textOf ts).length + (negationOpen ++ c.print).length) =
        textOf ts ++ (negationOpen ++ c.print) := by
    rw [← List.append_assoc, ← List.length_append, List.take_left]
  have behind : (textOf ts ++ (negationOpen ++ c.print ++ r)).drop
      ((textOf ts).length + (negationOpen ++ c.print).length) = r := by
    rw [← List.append_assoc, ← List.length_append, List.drop_left]
  have closedText : textOf ts ++ (negationOpen ++ c.print) ++ [negationClose] =
      textOf (ts ++ [ofClause true c]) := by
    simp [value_ofClause_true]
  constructor
  · refine ⟨(textOf ts).length, rfl, ?_, ?_⟩
    · rw [upTo, List.drop_left]
    · rw [List.take_left]
      exact accepted_textOf normal
  · have single : NormalForm [ofClause false c] :=
      ⟨by simpa using wellFormed_ofClause false stands.wellFormed, .singleton _⟩
    have alone : textOf [ofClause false c] = c.print := by simp [value_ofClause_false]
    refine ⟨c.print, ofClause false c, rfl, ?_, rfl⟩
    rw [← alone]
    exact tokenize_textOf single
  · rw [← List.head?_drop, behind]
    exact open_ended
  · refine ⟨ts, ofClause true c, ?_, rfl, value_ofClause_true c⟩
    rw [upTo, closedText]
    exact tokenize_textOf longer
  · -- the mended beginning is made of items, so the run goes at least to its end
    intro f fails
    rw [upTo, behind] at fails
    have mended : textOf ts ++ (negationOpen ++ c.print) ++ negationClose :: r =
        textOf (ts ++ [ofClause true c]) ++ r := by
      rw [← closedText]
      simp
    rw [mended] at fails
    have far := length_le_position_run_of_isItems (isItems_textOf longer.wellFormed) r
    have near := position_run_le_of_error fails
    rw [← closedText] at far
    simp only [List.length_append, List.length_singleton] at far ⊢
    rw [closedText] at far
    omega

/-- Every fault tells where it is and what stands there; an unclosed negation also tells what is
missing. -/
theorem locates_of_tokenize {source : Text} {f : Fault} (h : tokenize source = .error f) :
    f.Locates source := by
  obtain ⟨ts, rest, g, reads, -, rfl, place⟩ := exists_reads_of_tokenize_eq_error h
  obtain ⟨normal, rfl, -⟩ := reads_iff.mp reads
  rcases place with ⟨nonempty, nothing, rfl⟩ | found
  · exact ⟨(textOf ts).length, by simp, unrecognizedAt_of_next normal nonempty nothing⟩
  · obtain ⟨c, r, stands, rfl, missing, rfl⟩ := next_eq_fault_iff.mp found
    refine ⟨rfl, _, ?_, unterminatedAt_of_stands normal stands missing⟩
    simp

/-- The escaped parenthesis belongs to the class, so the negation is missing one of its own; a
combinator is nothing that can be read. -/
theorem locates_escaped_parenthesis :
    tokenize "a:not(.b\\) )".toList = .error (.unterminatedNegation ":not(.b\\)".toList 10) ∧
      (Fault.unterminatedNegation ":not(.b\\)".toList 10).Locates "a:not(.b\\) )".toList ∧
      tokenize "a:not(b)>c".toList = .error (.unrecognizedSyntax ">c".toList 8) ∧
      (Fault.unrecognizedSyntax ">c".toList 8).Locates "a:not(b)>c".toList := by
  have unclosed : tokenize "a:not(.b\\) )".toList =
      .error (.unterminatedNegation ":not(.b\\)".toList 10) := by decide +kernel
  have unread : tokenize "a:not(b)>c".toList = .error (.unrecognizedSyntax ">c".toList 8) := by
    decide +kernel
  exact ⟨unclosed, locates_of_tokenize unclosed, unread, locates_of_tokenize unread⟩

end SelectorClauses
