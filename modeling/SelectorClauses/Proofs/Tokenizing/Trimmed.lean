import SelectorClauses.Proofs.Grammar.Ending
import SelectorClauses.Proofs.Tokenizing.Acceptance

/-!
Trimming a text that splits into tokens. A blank at its end belongs to an escape, and trimming does
not know that. Main statement: `tokenize_trim` says that the backslash of an escaped blank is then left
with nothing behind it, and that all else that can be lost is what ended the digits of an escape.
-/
namespace SelectorClauses

open Token

/-- Blanks beyond ASCII are name characters as well; there are none of them in the text. -/
def PlainBlanks (t : Text) : Prop := ∀ c ∈ t, isBlank c = true → c.toNat < 0x80

instance decidablePlainBlanks (t : Text) : Decidable (PlainBlanks t) := List.decidableBAll _ t

def EndsInEscapedBlank (t : Text) : Prop := ∃ pre c, isBlank c = true ∧ t = pre ++ ['\\', c]

/-- The last tokens differ by the ending of an escape, which the second list is without; all other
tokens are the same, and so are all other parts of the last. -/
def LosesEnding (ts us : List Token) : Prop :=
  ∃ before last ending, ts = before ++ [carryOn ending last] ∧ us = before ++ [last] ∧
    EndsInDigits last.data ∧ EscapeEnding ending ∧ ending ≠ []

/- The two ends of a text. -/

theorem Token.WellFormed.head_cases {t : Token} (h : t.WellFormed) (u : Text) :
    ∀ c ∈ (t.value ++ u).head?, c ∈ [':', '#', '.', '[', '\\'] ∨ isNameChar c = true := by
  obtain ⟨cl, wellFormed, same⟩ := h.exists_ofClause
  rw [same]
  cases t.negated with
  | true => simp [value_ofClause_true, negationOpen]
  | false =>
    rw [value_ofClause_false]
    cases cl with
    | tag n =>
      obtain ⟨d, n, rfl⟩ := List.exists_cons_of_ne_nil wellFormed.isIdentifier.ne_nil
      intro c mem
      obtain rfl : d = c := by simpa [Clause.print, Clause.name] using mem
      exact wellFormed.isIdentifier.head_cases.imp_left fun slash => by simp [slash]
    | attr n test => cases test <;> simp [Clause.print]
    | _ => simp [Clause.print]

theorem head_not_blank {ts : List Token} (normal : NormalForm ts) (plain : PlainBlanks (textOf ts)) :
    ∀ c ∈ (textOf ts).head?, isBlank c = false := by
  cases ts with
  | nil => simp
  | cons t ts =>
    intro c mem
    rcases (normal.wellFormed t (by simp)).head_cases (textOf ts) c mem with mark | inside
    · have marks : ([':', '#', '.', '[', '\\'].any isBlank) = false := by decide
      simpa using List.any_eq_false.mp marks c mark
    · exact isBlank_eq_false_of_isNameChar inside (plain c (List.mem_of_mem_head? mem))

theorem last_not_blank_append {t u : Text} (nonempty : u ≠ [])
    (last : ∀ c ∈ u.getLast?, isBlank c = false) :
    ∀ c ∈ (t ++ u).getLast?, isBlank c = false := by
  rwa [List.getLast?_append_of_ne_nil t nonempty]

theorem Token.WellFormed.last_not_blank {t : Token} (h : t.WellFormed) (closed : t.isOpen = false) :
    ∀ c ∈ t.value.getLast?, isBlank c = false := by
  obtain ⟨cl, -, same⟩ := h.exists_ofClause
  rw [same] at closed ⊢
  cases sign : t.negated with
  | true =>
    rw [value_ofClause_true]
    simp
    decide
  | false =>
    rw [sign] at closed
    rw [value_ofClause_false]
    cases cl with
    | attr n test => cases test <;> (simp [Clause.print, List.getLast?_cons]; decide)
    | _ => simp [Clause.kind] at closed

theorem trim_of_endsInEscapedBlank {t : Text} (head : ∀ c ∈ t.head?, isBlank c = false)
    (escaped : EndsInEscapedBlank t) : ∃ pre, t.trim = pre ++ ['\\'] := by
  obtain ⟨pre, c, blank, rfl⟩ := escaped
  refine ⟨pre, ?_⟩
  have split : pre ++ ['\\', c] = (pre ++ ['\\']) ++ [c] := by simp
  rw [split] at head ⊢
  apply Text.trim_append head
  · simp
    decide
  · simpa [Text.AllBlank] using blank

theorem not_endsInEscapedBlank {t : Text} (last : ∀ c ∈ t.getLast?, isBlank c = false) :
    ¬ EndsInEscapedBlank t := by
  intro escaped
  obtain ⟨pre, c, blank, rfl⟩ := escaped
  have notBlank : isBlank c = false := last c (by simp)
  rw [blank] at notBlank
  cases notBlank

/- What ended the digits of an escape. -/

theorem trim_of_carryOn {before : List Token} {last : Token} {ending : Text}
    (head : ∀ c ∈ (textOf (before ++ [last.carryOn ending])).head?, isBlank c = false)
    (wellFormed : last.WellFormed) (isOpen : last.isOpen = true) (digits : EndsInDigits last.data)
    (ends : EscapeEnding ending) :
    (textOf (before ++ [last.carryOn ending])).trim = textOf (before ++ [last]) ∧
      ¬ EndsInEscapedBlank (textOf (before ++ [last.carryOn ending])) := by
  have value : last.value = last.kind.sigil ++ last.data := wellFormed.value_eq_of_isOpen isOpen
  have split : textOf (before ++ [last.carryOn ending]) = textOf (before ++ [last]) ++ ending := by
    simp [Token.carryOn]
  have lastData : (textOf (before ++ [last])).getLast? = last.data.getLast? := by
    have whole : textOf (before ++ [last]) = (textOf before ++ last.kind.sigil) ++ last.data := by
      simp [value]
    rw [whole, List.getLast?_append_of_ne_nil _ wellFormed.data.ne_nil]
  have trimmed : (textOf (before ++ [last.carryOn ending])).trim = textOf (before ++ [last]) := by
    rw [split] at head ⊢
    apply Text.trim_append head _ (allBlank_of_escapeEnding ends)
    rw [lastData]
    exact digits.last_not_blank
  refine ⟨trimmed, ?_⟩
  -- the trimmed text would end in a backslash, and it ends in a digit
  intro escaped
  obtain ⟨pre, same⟩ := trim_of_endsInEscapedBlank head escaped
  obtain ⟨d, lastDigit, digit⟩ := digits.exists_digit
  rw [← lastData, ← trimmed, same] at lastDigit
  obtain rfl : '\\' = d := by simpa using lastDigit
  revert digit
  decide

theorem normalForm_of_carryOn {before : List Token} {last : Token} {v : Text}
    (normal : NormalForm (before ++ [last.carryOn v])) (wellFormed : last.WellFormed) :
    NormalForm (before ++ [last]) := by
  obtain ⟨first, -, apart⟩ := normalForm_concat_iff.mp normal
  exact normalForm_concat_iff.mpr ⟨first, wellFormed, apart⟩

/- A backslash with nothing behind it. -/

theorem tokenize_of_reads_of_unrecognized {t rest remainder : Text} {ts : List Token} {p : Int}
    (reads : Reads t ts rest) (fault : tokenize rest = .error (.unrecognizedSyntax remainder p)) :
    ∃ q, tokenize t = .error (.unrecognizedSyntax remainder q) := by
  refine ⟨(textOf ts).length + p, ?_⟩
  rw [tokenize_of_reads reads, fault]
  rfl

theorem tokenize_sigil_backslash {pre : Text} (short : pre = [] ∨ pre = ['-']) (k : Kind) :
    tokenize (k.sigil ++ pre ++ ['\\']) =
      .error (.unrecognizedSyntax (k.sigil ++ pre ++ ['\\']) 0) := by
  rcases short with rfl | rfl
  · cases k <;> decide +kernel
  · cases k <;> decide +kernel

theorem stands_sigil_of_apart {s t : Token} (wellFormed : s.WellFormed) (isOpen : t.isOpen = true)
    (apart : Apart s t) (u : Text) : s.Stands (t.kind.sigil ++ u) := by
  cases kind : t.kind with
  | tag =>
    -- a plain tag has no sigil, so the token before it is closed
    have plain : t.isPlainTag = true := by
      simp only [Token.isOpen, Bool.and_eq_true] at isOpen
      simp [isPlainTag, kind, isOpen.1]
    apply stands_of_not_isOpen wellFormed
    cases closed : s.isOpen with
    | false => rfl
    | true => exact absurd ⟨closed, plain⟩ apart
  | id =>
    apply stands_of_head wellFormed
    simp [Kind.sigil]
    decide
  | cls =>
    apply stands_of_head wellFormed
    simp [Kind.sigil]
    decide
  | attr => simp [Token.isOpen, kind] at isOpen

theorem tokenize_dangling {before : List Token} {last : Token} {pre : Text} {c : Char}
    (normal : NormalForm (before ++ [last])) (isOpen : last.isOpen = true)
    (data : last.data = pre ++ ['\\', c]) (escapes : BeforeEscape pre) :
    ∃ remainder p, tokenize (textOf before ++ (last.kind.sigil ++ pre ++ ['\\'])) =
      .error (.unrecognizedSyntax remainder p) := by
  obtain ⟨first, wellFormed, apart⟩ := normalForm_concat_iff.mp normal
  rcases or_assoc.mpr escapes with short | identifier
  · -- nothing of the last token is left to read
    have reads : Reads (textOf before ++ (last.kind.sigil ++ pre ++ ['\\'])) before
        (last.kind.sigil ++ pre ++ ['\\']) := by
      apply reads_of_normalForm first
      intro s mem
      rw [List.append_assoc]
      exact stands_sigil_of_apart (first.wellFormed s (List.mem_of_getLast? mem)) isOpen
        (apart s mem) _
    exact ⟨_, tokenize_of_reads_of_unrecognized reads (tokenize_sigil_backslash short _)⟩
  · -- the last token is read up to the backslash
    obtain ⟨s, rfl, shorter, rfl⟩ := wellFormed.exists_carryOn isOpen data identifier
    have stands : ∀ u ∈ (before ++ [s]).getLast?, u.Stands ['\\'] := by
      intro u mem
      obtain rfl : s = u := by simpa using mem
      exact ⟨shorter, fun _ => Name.endsAt_backslash identifier⟩
    have reads := reads_of_normalForm (normalForm_of_carryOn normal shorter) stands
    have whole : textOf (before ++ [s]) ++ ['\\'] =
        textOf before ++ ((s.carryOn ['\\', c]).kind.sigil ++ s.data ++ ['\\']) := by
      simp [Token.carryOn, shorter.value_eq_of_isOpen isOpen]
    rw [whole] at reads
    have fault : tokenize ['\\'] = .error (.unrecognizedSyntax ['\\'] 0) := by decide +kernel
    exact ⟨_, tokenize_of_reads_of_unrecognized reads fault⟩

/- All cases together. -/

inductive TrimmedReading (s : Text) (ts : List Token) : Prop
  | kept : ¬ EndsInEscapedBlank s → tokenize s.trim = .ok ts → TrimmedReading s ts
  | shortened (us : List Token) : ¬ EndsInEscapedBlank s → tokenize s.trim = .ok us →
      LosesEnding ts us → TrimmedReading s ts
  | dangling (remainder : Text) (p : Int) : EndsInEscapedBlank s →
      tokenize s.trim = .error (.unrecognizedSyntax remainder p) → TrimmedReading s ts

theorem trimmedReading_of_last {ts : List Token} (normal : NormalForm ts)
    (head : ∀ c ∈ (textOf ts).head?, isBlank c = false)
    (last : ∀ c ∈ (textOf ts).getLast?, isBlank c = false) : TrimmedReading (textOf ts) ts := by
  have ends : Text.Trimmed (textOf ts) := ⟨head, last⟩
  have trimmed : (textOf ts).trim = textOf ts := by
    simpa using Text.trim_of_trimmed ends Text.allBlank_nil Text.allBlank_nil
  refine .kept (not_endsInEscapedBlank last) ?_
  rw [trimmed]
  exact tokenize_textOf normal

theorem trimmedReading_of_isOpen {before : List Token} {last : Token}
    (normal : NormalForm (before ++ [last])) (plain : PlainBlanks (textOf (before ++ [last])))
    (isOpen : last.isOpen = true) :
    TrimmedReading (textOf (before ++ [last])) (before ++ [last]) := by
  have head := head_not_blank normal plain
  obtain ⟨-, wellFormed, -⟩ := normalForm_concat_iff.mp normal
  have whole : textOf (before ++ [last]) = textOf before ++ (last.kind.sigil ++ last.data) := by
    simp [wellFormed.value_eq_of_isOpen isOpen]
  have plainData : ∀ c ∈ last.data, isBlank c = true → c.toNat < 0x80 := by
    intro c mem
    exact plain c (by simp [whole, mem])
  cases wellFormed.data.endOfIdentifier plainData with
  | notBlank lastData =>
    apply trimmedReading_of_last normal head
    rw [whole, ← List.append_assoc]
    exact last_not_blank_append wellFormed.data.ne_nil lastData
  | ending v e identifier digits ends nonempty split =>
    obtain ⟨s, rfl, shorter, rfl⟩ := wellFormed.exists_carryOn isOpen split identifier
    obtain ⟨trimmed, notEscaped⟩ := trim_of_carryOn head shorter isOpen digits ends
    refine .shortened (before ++ [s]) notEscaped ?_ ⟨before, s, e, rfl, rfl, digits, ends, nonempty⟩
    rw [trimmed]
    exact tokenize_textOf (normalForm_of_carryOn normal shorter)
  | escapedBlank pre c escapes blank data =>
    have split : textOf (before ++ [last]) =
        (textOf before ++ (last.kind.sigil ++ pre ++ ['\\'])) ++ [c] := by simp [whole, data]
    have trimmed : (textOf (before ++ [last])).trim =
        textOf before ++ (last.kind.sigil ++ pre ++ ['\\']) := by
      rw [split] at head ⊢
      apply Text.trim_append head
      · simp
        decide
      · simpa [Text.AllBlank] using blank
    obtain ⟨remainder, p, fault⟩ := tokenize_dangling normal isOpen data escapes
    refine .dangling remainder p ⟨textOf before ++ (last.kind.sigil ++ pre), c, blank, ?_⟩ ?_
    · rw [split]
      simp
    · rw [trimmed]
      exact fault

theorem tokenize_trim {s : Text} {ts : List Token} (accepted : tokenize s = .ok ts)
    (plain : PlainBlanks s) :
    (∀ c ∈ s.head?, isBlank c = false) ∧ TrimmedReading s ts := by
  obtain ⟨normal, rfl⟩ := reads_nil_iff.mp (tokenize_eq_ok_iff_reads.mp accepted)
  have head := head_not_blank normal plain
  refine ⟨head, ?_⟩
  rcases List.eq_nil_or_concat ts with rfl | ⟨before, last, rfl⟩
  · exact trimmedReading_of_last normal head (by simp)
  · rw [List.concat_eq_append] at normal plain head ⊢
    cases isOpen : last.isOpen with
    | true => exact trimmedReading_of_isOpen normal plain isOpen
    | false =>
      have wellFormed : last.WellFormed := normal.wellFormed last (by simp)
      apply trimmedReading_of_last normal head
      rw [textOf_append, textOf_cons, textOf_nil, List.append_nil]
      exact last_not_blank_append wellFormed.value_ne_nil (wellFormed.last_not_blank isOpen)

end SelectorClauses
