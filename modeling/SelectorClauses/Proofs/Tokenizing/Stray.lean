import SelectorClauses.Proofs.Tokenizing.Composition
import SelectorClauses.Proofs.Tokenizing.Trimmed

/-!
Characters that no selector has outside of its tokens: combinators, commas, stars, brackets that
close nothing, quotes and control characters. Main statement: `tokenize_append_stray` says that
the first of them behind a text that splits into tokens is where the text fails, whatever comes
behind it.
-/
namespace SelectorClauses

open Token

def tokenMarks : Text := ['_', '-', '\\', '#', '.', '[', ':']

/-- An ASCII character that begins no token and is in no name. -/
def isStray (c : Char) : Bool := c.toNat < 0x80 && !c.isAlphanum && !tokenMarks.contains c

theorem isStray_iff {c : Char} : isStray c = true ↔
    c.toNat < 0x80 ∧ c.isAlphanum = false ∧ c ∉ tokenMarks := by
  simp [isStray, and_assoc]

theorem isAlphanum_of_isNameChar {c : Char} (inside : isNameChar c = true)
    (ascii : c.toNat < 0x80) : c.isAlphanum = true ∨ c = '_' ∨ c = '-' := by
  simp only [isNameChar, isNameStart, Bool.or_eq_true, Bool.and_eq_true, decide_eq_true_eq,
    beq_iff_eq] at inside
  have classes : c.isAlphanum = (decide ('A' ≤ c ∧ c ≤ 'Z') || decide ('a' ≤ c) && decide (c ≤ 'z') ||
      decide ('0' ≤ c) && decide (c ≤ '9')) := rfl
  simp only [classes, Bool.or_eq_true, Bool.and_eq_true, decide_eq_true_eq]
  rcases inside with ((((rfl | lower) | upper) | high) | digit) | rfl
  · exact Or.inr (Or.inl rfl)
  · exact Or.inl (Or.inl (Or.inr lower))
  · exact Or.inl (Or.inl (Or.inl upper))
  · omega
  · exact Or.inl (Or.inr digit)
  · exact Or.inr (Or.inr rfl)

theorem isNameChar_eq_false_of_isStray {c : Char} (stray : isStray c = true) :
    isNameChar c = false := by
  obtain ⟨ascii, notAlphanum, notMark⟩ := isStray_iff.mp stray
  cases inside : isNameChar c with
  | false => rfl
  | true =>
    rcases isAlphanum_of_isNameChar inside ascii with alphanum | rfl | rfl
    · simp [notAlphanum] at alphanum
    · exact absurd (by decide) notMark
    · exact absurd (by decide) notMark

theorem continuesName_of_isStray {c : Char} (stray : isStray c = true) :
    continuesName c = isEscapeEnd c := by
  have notSlash : c ≠ '\\' := ne_of_apply_ne isStray (by rw [stray]; decide)
  simp [continuesName, isNameChar_eq_false_of_isStray stray, notSlash]

theorem next_of_isStray {c : Char} (stray : isStray c = true) (u : Text) :
    (Cursor.ofText (c :: u)).next = .ok none := by
  obtain ⟨-, -, notMark⟩ := isStray_iff.mp stray
  refine next_eq_none_iff.mpr ?_
  intro cl r wellFormed
  constructor
  · intro same
    have first : c ∈ ((ofClause false cl).value ++ r).head? := by
      rw [value_ofClause_false, ← same]
      rfl
    have marks : [':', '#', '.', '[', '\\'] ⊆ tokenMarks := by decide
    rcases (wellFormed_ofClause false wellFormed).head_cases r c first with mark | inside
    · exact notMark (marks mark)
    · simp [isNameChar_eq_false_of_isStray stray] at inside
  · intro same
    obtain ⟨rfl, -⟩ := List.cons.inj same
    exact absurd (by decide) notMark

theorem tokenize_of_next_eq_none {t : Text} (nonempty : t ≠ [])
    (nothing : (Cursor.ofText t).next = .ok none) :
    tokenize t = .error (.unrecognizedSyntax t 0) := by
  have unfinished : (Cursor.ofText t).position < (Cursor.ofText t).length :=
    Cursor.unfinished_atIndex (List.length_pos_iff.mpr nonempty)
  rw [tokenize_eq_iff, Cursor.run_eq_of_next_none unfinished nothing, Cursor.ofText_eq_atIndex,
    Cursor.remainder_atIndex]
  rfl

theorem reads_append_of_head {s t : Text} {ts : List Token} (accepted : tokenize s = .ok ts)
    (stop : ∀ c ∈ t.head?, continuesName c = false) : Reads (s ++ t) ts t := by
  obtain ⟨normal, rfl⟩ := reads_nil_iff.mp (tokenize_eq_ok_iff_reads.mp accepted)
  refine reads_iff.mpr ⟨normal, rfl, ?_⟩
  intro last mem
  exact stands_of_head (normal.wellFormed last (List.mem_of_getLast? mem)) stop

/-- A stray character behind a text that splits into tokens is where the text fails. A blank can
be the end of an escape, unless there is nothing before it or a bracket or parenthesis is. -/
theorem tokenize_append_stray {s : Text} {ts : List Token} (accepted : tokenize s = .ok ts)
    {c : Char} (stray : isStray c = true)
    (closed : isEscapeEnd c = true →
      s = [] ∨ ∃ last ∈ ts.getLast?, last.negated = true ∨ last.kind = .attr) (u : Text) :
    tokenize (s ++ c :: u) = .error (.unrecognizedSyntax (c :: u) s.length) := by
  have reads : Reads (s ++ c :: u) ts (c :: u) := by
    cases ends : isEscapeEnd c with
    | true => exact reads_append accepted (Or.inr (Or.inr (closed ends)))
    | false =>
      apply reads_append_of_head accepted
      intro d head
      obtain rfl : c = d := by simpa using head
      rw [continuesName_of_isStray stray, ends]
  obtain ⟨-, whole⟩ := reads_nil_iff.mp (tokenize_eq_ok_iff_reads.mp accepted)
  rw [tokenize_of_reads reads, ← whole,
    tokenize_of_next_eq_none (by simp) (next_of_isStray stray u)]
  simp [Except.mapError, Except.map, Fault.moved]

/-- Nothing behind the comma is looked at, and the blank is no part of the negation before it. -/
theorem tokenize_append_stray_comma :
    tokenize "a\\2c".toList = .ok [ofClause false (.tag "a\\2c".toList)] ∧ isStray ',' = true ∧
      tokenize "a\\2c,:not(\"".toList = .error (.unrecognizedSyntax ",:not(\"".toList 4) ∧
      tokenize ".a:not(b)".toList =
        .ok [ofClause false (.cls ['a']), ofClause true (.tag ['b'])] ∧ isStray ' ' = true ∧
      tokenize ".a:not(b) )]".toList = .error (.unrecognizedSyntax " )]".toList 9) := by
  have escaped : tokenize "a\\2c".toList = .ok [ofClause false (.tag "a\\2c".toList)] := by
    decide +kernel
  have negated : tokenize ".a:not(b)".toList =
      .ok [ofClause false (.cls ['a']), ofClause true (.tag ['b'])] := by decide +kernel
  have comma : isStray ',' = true := by decide
  have blank : isStray ' ' = true := by decide
  exact ⟨escaped, comma, tokenize_append_stray escaped comma (by decide) ":not(\"".toList,
    negated, blank, tokenize_append_stray negated blank
      (fun _ => Or.inr ⟨_, rfl, Or.inl rfl⟩) ")]".toList⟩

end SelectorClauses
