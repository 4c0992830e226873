import SelectorClauses.Proofs.Grammar.Identifier
import SelectorClauses.Proofs.Text.Trimming

/-!
The end of an identifier. An identifier may end in a blank in two ways: the blank is escaped by a
backslash before it, or it ends the digits of an escape and could as well be missing. Main statements:
`IsIdentifier.endOfIdentifier` says that there is no other way as long as all blanks are ASCII,
`Name.endsAt_backslash` that a lone backslash behind an identifier does not belong to it, and
`Name.nameTail_of_tab` what follows a tab that does.
-/
namespace SelectorClauses

/- Blanks and the character classes of the grammar. -/

theorem le_toNat_of_isNameChar {c : Char} (inside : isNameChar c = true) :
    '-'.toNat ≤ c.toNat := by
  simp only [isNameChar, isNameStart, Bool.or_eq_true, Bool.and_eq_true, decide_eq_true_eq,
    beq_iff_eq] at inside
  rcases inside with ((((rfl | ⟨low, -⟩) | ⟨low, -⟩) | high) | ⟨low, -⟩) | rfl
  · decide
  · exact Nat.le_trans (by decide : '-'.toNat ≤ 'a'.toNat) low
  · exact Nat.le_trans (by decide : '-'.toNat ≤ 'A'.toNat) low
  · exact Nat.le_trans (by decide : '-'.toNat ≤ 0x7f) (Nat.le_of_lt high)
  · exact Nat.le_trans (by decide : '-'.toNat ≤ '0'.toNat) low
  · decide

theorem toNat_le_of_isBlank {c : Char} (blank : isBlank c = true) (ascii : c.toNat < 0x80) :
    c.toNat ≤ ' '.toNat := by
  have space : ' '.toNat = 0x20 := rfl
  simp only [isBlank, Bool.or_eq_true, Bool.and_eq_true, decide_eq_true_eq, beq_iff_eq] at blank
  omega

theorem isBlank_eq_false_of_isNameChar {c : Char} (inside : isNameChar c = true)
    (ascii : isBlank c = true → c.toNat < 0x80) : isBlank c = false := by
  cases blank : isBlank c with
  | false => rfl
  | true =>
    have low := toNat_le_of_isBlank blank (ascii blank)
    have high := le_toNat_of_isNameChar inside
    exact absurd (Nat.le_trans high low) (by decide)

theorem isBlank_eq_false_of_isHexDigit {c : Char} (digit : isHexDigit c = true) :
    isBlank c = false := by
  apply isBlank_eq_false_of_isNameChar (isNameChar_of_isHexDigit digit)
  intro _
  simp only [isHexDigit, Bool.or_eq_true, Bool.and_eq_true, decide_eq_true_eq] at digit
  rcases digit with (⟨-, high⟩ | ⟨-, high⟩) | ⟨-, high⟩
  · exact Nat.lt_of_le_of_lt high (by decide : '9'.toNat < 0x80)
  · exact Nat.lt_of_le_of_lt high (by decide : 'f'.toNat < 0x80)
  · exact Nat.lt_of_le_of_lt high (by decide : 'F'.toNat < 0x80)

theorem isBlank_of_isEscapeEnd {c : Char} (ends : isEscapeEnd c = true) : isBlank c = true := by
  rcases isEscapeEnd_cases ends with rfl | rfl | rfl | rfl | rfl <;> decide

theorem allBlank_of_escapeEnding {t : Text} (ending : EscapeEnding t) : Text.AllBlank t := by
  intro d mem
  rcases ending with rfl | rfl | ⟨c, ends, rfl⟩
  · cases mem
  · have either : d = '\r' ∨ d = '\n' := by simpa using mem
    rcases either with rfl | rfl <;> decide
  · rw [List.mem_singleton.mp mem]
    exact isBlank_of_isEscapeEnd ends

theorem IsIdentifier.head_cases {c : Char} {t : Text} (h : IsIdentifier (c :: t)) :
    c = '\\' ∨ isNameChar c = true := by
  have tail := nameTail_cons.mp h.nameTail
  by_cases slash : c = '\\'
  · exact Or.inl slash
  · rw [if_neg slash] at tail
    by_cases inside : isNameChar c = true
    · exact Or.inr inside
    · rw [if_neg inside] at tail
      exact tail.elim

/- The last unit. -/

def BeforeEscape (pre : Text) : Prop := pre = [] ∨ pre = ['-'] ∨ IsIdentifier pre

theorem IsIdentifier.exists_last_unit {w : Text} (h : IsIdentifier w) :
    ∃ pre u, w = pre ++ u ∧ BeforeEscape pre ∧ NameUnit u := by
  obtain ⟨hyphen, start, units, isHyphen, first, all, rfl⟩ := h
  rcases List.eq_nil_or_concat units with rfl | ⟨before, last, rfl⟩
  · refine ⟨hyphen, start, by simp, ?_, nameUnit_of_nameStartUnit first⟩
    exact isHyphen.imp_right Or.inl
  · have identifier : IsIdentifier (hyphen ++ start ++ before.flatten) :=
      ⟨hyphen, start, before, isHyphen, first, fun u mem => all u (by simp [mem]), rfl⟩
    exact ⟨_, last, by simp, Or.inr (Or.inr identifier), all last (by simp)⟩

theorem BeforeEscape.append {pre e : Text} (h : BeforeEscape pre) (escape : Escape e) :
    IsIdentifier (pre ++ e) := by
  rcases h with rfl | rfl | identifier
  · exact ⟨[], e, [], Or.inl rfl, .escape e escape, by simp, by simp⟩
  · exact ⟨['-'], e, [], Or.inr rfl, .escape e escape, by simp, by simp⟩
  · have tail : NameTail (e ++ []) := MadeOf.unit_append (.escape e escape) MadeOf.nil
    rw [List.append_nil] at tail
    exact identifier.append_nameTail tail

/-- At the end of the text stands an escape by digits with nothing that ends the digits. -/
def EndsInDigits (w : Text) : Prop :=
  ∃ pre digits, w = pre ++ '\\' :: digits ∧ digits ≠ [] ∧ digits.length ≤ 6 ∧
    ∀ d ∈ digits, isHexDigit d = true

theorem EndsInDigits.exists_digit {w : Text} (h : EndsInDigits w) :
    ∃ d ∈ w.getLast?, isHexDigit d = true := by
  obtain ⟨pre, digits, rfl, nonempty, -, all⟩ := h
  refine ⟨digits.getLast nonempty, ?_, all _ (List.getLast_mem nonempty)⟩
  simp [List.getLast?_cons, List.getLast?_eq_some_getLast nonempty]

theorem EndsInDigits.last_not_blank {w : Text} (h : EndsInDigits w) :
    ∀ c ∈ w.getLast?, isBlank c = false := by
  obtain ⟨d, last, digit⟩ := h.exists_digit
  intro c mem
  rw [Option.mem_unique mem last]
  exact isBlank_eq_false_of_isHexDigit digit

inductive EndOfIdentifier (w : Text) : Prop
  | notBlank : (∀ c ∈ w.getLast?, isBlank c = false) → EndOfIdentifier w
  | escapedBlank (pre : Text) (c : Char) : BeforeEscape pre → isBlank c = true →
      w = pre ++ ['\\', c] → EndOfIdentifier w
  | ending (v e : Text) : IsIdentifier v → EndsInDigits v → EscapeEnding e → e ≠ [] →
      w = v ++ e → EndOfIdentifier w

theorem IsIdentifier.endOfIdentifier {w : Text} (h : IsIdentifier w)
    (ascii : ∀ c ∈ w, isBlank c = true → c.toNat < 0x80) : EndOfIdentifier w := by
  obtain ⟨pre, u, rfl, before, unit⟩ := h.exists_last_unit
  cases unit with
  | char c inside =>
    apply EndOfIdentifier.notBlank
    simpa using isBlank_eq_false_of_isNameChar inside (ascii c (by simp))
  | escape u escape =>
    cases escape with
    | single c notHex notStop =>
      cases blank : isBlank c with
      | true => exact .escapedBlank pre c before blank rfl
      | false => exact .notBlank (by simpa using blank)
    | hex digits e nonempty short all ends =>
      have identifier : IsIdentifier (pre ++ ('\\' :: digits ++ [])) :=
        before.append (.hex digits [] nonempty short all (Or.inl rfl))
      rw [List.append_nil] at identifier
      have inDigits : EndsInDigits (pre ++ '\\' :: digits) :=
        ⟨pre, digits, rfl, nonempty, short, all⟩
      by_cases missing : e = []
      · apply EndOfIdentifier.notBlank
        rw [missing, List.append_nil]
        exact inDigits.last_not_blank
      · exact .ending _ e identifier inDigits ends missing (by simp)

/- A backslash with nothing behind it. -/

namespace Name

theorem step_backslash_of_final {s : State} (finished : automaton.final s = true) :
    automaton.step s '\\' = some .backslash := by
  cases s with
  | identifierStart | afterHyphen | nameStart | backslash => cases finished
  | inside | hexReturn => rfl
  | hex left =>
    have notHex : isHexDigit '\\' = false := by decide
    simp [automaton, step, stepInside, notHex, isEscapeEnd]

theorem not_isIdentifier_append_backslash {w : Text} (h : IsIdentifier w) :
    ¬ IsIdentifier (w ++ ['\\']) := by
  intro longer
  obtain ⟨s, reached, finished⟩ := (accepts_iff_rest .identifierStart w).mpr h
  obtain ⟨last, run, final⟩ := (accepts_iff_rest .identifierStart (w ++ ['\\'])).mpr longer
  have dangling : automaton.run s ['\\'] = some .backslash := by
    simp [Automaton.run, step_backslash_of_final finished]
  rw [automaton.run_append, reached, Option.bind_some, dangling] at run
  obtain rfl : State.backslash = last := Option.some.inj run
  cases final

theorem endsAt_backslash {w : Text} (h : IsIdentifier w) : EndsAt w ['\\'] := by
  intro v r split longer
  rcases List.append_eq_singleton_iff.mp split.symm with ⟨empty, -⟩ | ⟨whole, -⟩
  · exact empty
  · rw [whole] at longer
    exact absurd longer (not_isIdentifier_append_backslash h)

/- A tab behind an identifier. -/

theorem step_tab_of_final {s s' : State} (finished : automaton.final s = true)
    (goes : automaton.step s '\t' = some s') : s' = .inside := by
  have notHex : isHexDigit '\t' = false := by decide
  have notInside : isNameChar '\t' = false := by decide
  cases s with
  | identifierStart | afterHyphen | nameStart | backslash => cases finished
  | inside | hexReturn => simp [automaton, step, stepInside, notInside] at goes
  | hex left => simpa [automaton, step, notHex, isEscapeEnd, eq_comm] using goes

/-- If an identifier goes on with a tab, the tab ends the digits of an escape, and a name may go on
behind it. -/
theorem nameTail_of_tab {w v : Text} (h : IsIdentifier w) (longer : IsIdentifier (w ++ '\t' :: v)) :
    NameTail v := by
  obtain ⟨s, reached, finished⟩ := (accepts_iff_rest .identifierStart w).mpr h
  obtain ⟨last, run, final⟩ := (accepts_iff_rest .identifierStart (w ++ '\t' :: v)).mpr longer
  rw [automaton.run_append, reached, Option.bind_some, Automaton.run] at run
  obtain ⟨s', goes, behind⟩ := Option.bind_eq_some_iff.mp run
  obtain rfl := step_tab_of_final finished goes
  exact (accepts_iff_rest .inside v).mp ⟨last, behind, final⟩

end Name

end SelectorClauses
