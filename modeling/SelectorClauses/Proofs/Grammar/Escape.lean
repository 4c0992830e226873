import SelectorClauses.Grammar.Language

/-!
Texts made of units, and what is left to read inside an escape. Each language of rests is told
apart by its first character, which is what one step of the automata does: the digits of an
escape are taken as long as they last, although the grammar would also let them end sooner.
-/
namespace SelectorClauses

def MadeOf (Unit : Text → Prop) (t : Text) : Prop :=
  ∃ units : List Text, (∀ u ∈ units, Unit u) ∧ t = units.flatten

namespace MadeOf

variable {Unit : Text → Prop}

theorem nil : MadeOf Unit [] := ⟨[], by simp, rfl⟩

theorem append {s t : Text} (left : MadeOf Unit s) (right : MadeOf Unit t) :
    MadeOf Unit (s ++ t) := by
  obtain ⟨us, hus, rfl⟩ := left
  obtain ⟨vs, hvs, rfl⟩ := right
  refine ⟨us ++ vs, ?_, by simp⟩
  intro u mem
  rcases List.mem_append.mp mem with mem | mem
  · exact hus u mem
  · exact hvs u mem

theorem unit_append {u t : Text} (first : Unit u) (rest : MadeOf Unit t) :
    MadeOf Unit (u ++ t) := by
  have single : MadeOf Unit u := ⟨[u], by simpa using first, by simp⟩
  exact single.append rest

theorem cons_iff (nonempty : ¬ Unit []) {c : Char} {t : Text} :
    MadeOf Unit (c :: t) ↔ ∃ u v, Unit (c :: u) ∧ MadeOf Unit v ∧ t = u ++ v := by
  constructor
  · intro h
    obtain ⟨units, all, same⟩ := h
    cases units with
    | nil => simp at same
    | cons first rest =>
      have unit := all first (by simp)
      cases first with
      | nil => exact absurd unit nonempty
      | cons d u =>
        obtain ⟨rfl, rfl⟩ := by simpa using same
        exact ⟨u, rest.flatten, unit, ⟨rest, fun w mem => all w (by simp [mem]), rfl⟩, rfl⟩
  · intro h
    obtain ⟨u, v, unit, rest, rfl⟩ := h
    exact unit_append unit rest

end MadeOf

/- Facts about the character classes. -/

theorem isNameChar_of_isHexDigit {c : Char} (h : isHexDigit c = true) : isNameChar c = true := by
  simp only [isHexDigit, Bool.or_eq_true, Bool.and_eq_true, decide_eq_true_eq] at h
  simp only [isNameChar, isNameStart, Bool.or_eq_true, Bool.and_eq_true, decide_eq_true_eq]
  rcases h with (⟨lo, hi⟩ | ⟨lo, hi⟩) | ⟨lo, hi⟩
  · exact Or.inl (Or.inr ⟨lo, hi⟩)
  · exact Or.inl (Or.inl (Or.inl (Or.inl (Or.inr ⟨lo, Char.le_trans hi (by decide)⟩))))
  · exact Or.inl (Or.inl (Or.inl (Or.inr ⟨lo, Char.le_trans hi (by decide)⟩)))

theorem isEscapeEnd_cases {c : Char} (h : isEscapeEnd c = true) :
    c = ' ' ∨ c = '\n' ∨ c = '\r' ∨ c = '\t' ∨ c = '\x0c' := by
  simpa [isEscapeEnd, or_assoc] using h

theorem isEscapeStop_cases {c : Char} (h : isEscapeStop c = true) :
    c = '\n' ∨ c = '\r' ∨ c = '\x0c' := by
  simpa [isEscapeStop, or_assoc] using h

theorem isNameChar_of_isNameStart {c : Char} (h : isNameStart c = true) : isNameChar c = true := by
  simp [isNameChar, h]

theorem isNameChar_of_isEscapeEnd {c : Char} (h : isEscapeEnd c = true) :
    isNameChar c = false := by
  rcases isEscapeEnd_cases h with rfl | rfl | rfl | rfl | rfl <;> decide

theorem isHexDigit_of_isEscapeEnd {c : Char} (h : isEscapeEnd c = true) :
    isHexDigit c = false := by
  rcases isEscapeEnd_cases h with rfl | rfl | rfl | rfl | rfl <;> decide

/- The shape of an escape. -/

theorem two_le_length_of_escape {t : Text} (h : Escape t) : 2 ≤ t.length := by
  cases h with
  | single c => simp
  | hex digits ending some_digit =>
    have := List.length_pos_iff.mpr some_digit
    simp only [List.cons_append, List.length_cons, List.length_append]
    omega

theorem not_escape_nil : ¬ Escape [] := fun h => by simpa using two_le_length_of_escape h

theorem escape_cons_iff {c : Char} {u : Text} :
    Escape (c :: u) ↔ c = '\\' ∧ Escape ('\\' :: u) := by
  constructor
  · intro h
    cases h with
    | single d notHex notStop => exact ⟨rfl, .single d notHex notStop⟩
    | hex digits ending some_digit short all ends =>
      exact ⟨rfl, .hex digits ending some_digit short all ends⟩
  · intro h
    obtain ⟨rfl, h⟩ := h
    exact h

/- The rests of an escape, given the language `next` of what comes after it: behind the digits,
   among the digits with at most `left` more to come, behind a carriage return that a line feed
   may complete, and behind the backslash. -/

variable {next : Text → Prop}

def AfterEnding (next : Text → Prop) (t : Text) : Prop :=
  ∃ ending v, EscapeEnding ending ∧ next v ∧ t = ending ++ v

def AfterDigits (left : Nat) (next : Text → Prop) (t : Text) : Prop :=
  ∃ digits v, digits.length ≤ left ∧ (∀ d ∈ digits, isHexDigit d = true) ∧
    AfterEnding next v ∧ t = digits ++ v

def AfterReturn (next : Text → Prop) (t : Text) : Prop :=
  next t ∨ ∃ v, t = '\n' :: v ∧ next v

def AfterBackslash (next : Text → Prop) (t : Text) : Prop :=
  ∃ e v, Escape ('\\' :: e) ∧ next v ∧ t = e ++ v

/-- Digits and endings that could also come after the escape make no difference there. -/
def Absorbs (next : Text → Prop) : Prop :=
  ∀ c t, isHexDigit c = true ∨ isEscapeEnd c = true → next (c :: t) → next t

theorem afterEnding_of_next {t : Text} (h : next t) : AfterEnding next t :=
  ⟨[], t, Or.inl rfl, h, rfl⟩

theorem afterDigits_of_afterEnding {left : Nat} {t : Text} (h : AfterEnding next t) :
    AfterDigits left next t := ⟨[], t, by simp, by simp, h, rfl⟩

theorem afterEnding_nil : AfterEnding next [] ↔ next [] := by
  constructor
  · intro h
    obtain ⟨ending, v, -, rest, same⟩ := h
    obtain ⟨rfl, rfl⟩ := List.nil_eq_append_iff.mp same
    exact rest
  · exact afterEnding_of_next

theorem afterDigits_nil {left : Nat} : AfterDigits left next [] ↔ next [] := by
  constructor
  · intro h
    obtain ⟨digits, v, -, -, rest, same⟩ := h
    obtain ⟨rfl, rfl⟩ := List.nil_eq_append_iff.mp same
    exact afterEnding_nil.mp rest
  · intro h
    exact afterDigits_of_afterEnding (afterEnding_of_next h)

theorem afterReturn_nil : AfterReturn next [] ↔ next [] := by simp [AfterReturn]

theorem not_afterBackslash_nil : ¬ AfterBackslash next [] := by
  intro h
  obtain ⟨e, v, escape, -, same⟩ := h
  obtain ⟨rfl, rfl⟩ := List.nil_eq_append_iff.mp same
  simpa using two_le_length_of_escape escape

theorem afterReturn_cons (absorbs : Absorbs next) {c : Char} {t : Text} :
    AfterReturn next (c :: t) ↔ if c = '\n' then next t else next (c :: t) := by
  by_cases feed : c = '\n'
  · subst feed
    have ends : next ('\n' :: t) → next t := absorbs '\n' t (Or.inr (by decide))
    simp only [AfterReturn, ↓reduceIte, List.cons.injEq, true_and, exists_eq_left']
    exact ⟨fun h => h.elim ends id, Or.inr⟩
  · simp [AfterReturn, feed]

theorem afterEnding_cons (absorbs : Absorbs next) {c : Char} {t : Text} :
    AfterEnding next (c :: t) ↔
      if c = '\r' then AfterReturn next t
      else if isEscapeEnd c = true then next t else next (c :: t) := by
  constructor
  · intro h
    rcases h with ⟨ending, v, rfl | rfl | ⟨d, ends, rfl⟩, rest, same⟩
    · -- nothing ends the digits here, so `c` is taken by what comes after the escape
      have equal : v = c :: t := by simpa using same.symm
      subst equal
      split
      · next h => exact Or.inl (absorbs c t (Or.inr (by subst h; decide)) rest)
      · split
        · next h => exact absorbs c t (Or.inr h) rest
        · exact rest
    · obtain ⟨rfl, rfl⟩ := by simpa using same
      rw [if_pos rfl]
      exact Or.inr ⟨v, rfl, rest⟩
    · obtain ⟨rfl, rfl⟩ := by simpa using same
      split
      · exact Or.inl rest
      · simpa [ends] using rest
  · intro h
    split at h
    · next carriage =>
      subst carriage
      rcases h with rest | ⟨v, rfl, rest⟩
      · exact ⟨['\r'], t, Or.inr (Or.inr ⟨'\r', by decide, rfl⟩), rest, rfl⟩
      · exact ⟨['\r', '\n'], v, Or.inr (Or.inl rfl), rest, rfl⟩
    · split at h
      · next ends => exact ⟨[c], t, Or.inr (Or.inr ⟨c, ends, rfl⟩), h, rfl⟩
      · exact afterEnding_of_next h

/-- A digit in the place of the ending is taken by what comes after the escape, which does as well
without it. -/
theorem next_of_afterEnding_digit (absorbs : Absorbs next) {c : Char} {t : Text}
    (digit : isHexDigit c = true) (h : AfterEnding next (c :: t)) : next t := by
  have notEnd : isEscapeEnd c = false := by
    cases ends : isEscapeEnd c with
    | false => rfl
    | true => simp [isHexDigit_of_isEscapeEnd ends] at digit
  have notReturn : c ≠ '\r' := ne_of_apply_ne isEscapeEnd (by rw [notEnd]; decide)
  rw [afterEnding_cons absorbs, if_neg notReturn, if_neg (by simp [notEnd])] at h
  exact absorbs c t (Or.inl digit) h

theorem afterDigits_cons_of_digit (absorbs : Absorbs next) {left : Nat} {c : Char} {t : Text}
    (digit : isHexDigit c = true) (room : 0 < left) :
    AfterDigits left next (c :: t) ↔ AfterDigits (left - 1) next t := by
  constructor
  · intro h
    obtain ⟨digits, v, short, all, rest, same⟩ := h
    cases digits with
    | nil =>
      have equal : v = c :: t := by simpa using same.symm
      subst equal
      have tail := next_of_afterEnding_digit absorbs digit rest
      exact afterDigits_of_afterEnding (afterEnding_of_next tail)
    | cons d digits =>
      obtain ⟨rfl, rfl⟩ := by simpa using same
      have short' : digits.length ≤ left - 1 := by
        rw [List.length_cons] at short
        omega
      exact ⟨digits, v, short', fun e mem => all e (by simp [mem]), rest, rfl⟩
  · intro h
    obtain ⟨digits, v, short, all, rest, rfl⟩ := h
    have short' : (c :: digits).length ≤ left := by
      rw [List.length_cons]
      omega
    exact ⟨c :: digits, v, short', by simpa [digit] using all, rest, rfl⟩

theorem afterDigits_cons_of_end {left : Nat} {c : Char} {t : Text}
    (ended : ¬ (isHexDigit c = true ∧ 0 < left)) :
    AfterDigits left next (c :: t) ↔ AfterEnding next (c :: t) := by
  constructor
  · intro h
    obtain ⟨digits, v, short, all, rest, same⟩ := h
    cases digits with
    | nil =>
      have equal : v = c :: t := by simpa using same.symm
      subst equal
      exact rest
    | cons d digits =>
      obtain ⟨rfl, rfl⟩ := by simpa using same
      have room : 0 < left := by
        rw [List.length_cons] at short
        omega
      exact absurd ⟨all c (by simp), room⟩ ended
  · exact afterDigits_of_afterEnding

theorem afterDigits_cons (absorbs : Absorbs next) {left : Nat} {c : Char} {t : Text} :
    AfterDigits left next (c :: t) ↔
      if (isHexDigit c && 0 < left) = true then AfterDigits (left - 1) next t
      else AfterEnding next (c :: t) := by
  split
  · next digit =>
    simp only [Bool.and_eq_true, decide_eq_true_eq] at digit
    exact afterDigits_cons_of_digit absorbs digit.1 digit.2
  · next ended =>
    simp only [Bool.and_eq_true, decide_eq_true_eq] at ended
    exact afterDigits_cons_of_end ended

theorem afterBackslash_cons {c : Char} {t : Text} :
    AfterBackslash next (c :: t) ↔
      if isHexDigit c = true then AfterDigits 5 next t
      else if isEscapeStop c = true then False else next t := by
  constructor
  · intro h
    obtain ⟨e, v, escape, rest, same⟩ := h
    cases escape with
    | single d notHex notStop =>
      obtain ⟨rfl, rfl⟩ := by simpa using same
      simpa [notHex, notStop] using rest
    | hex digits ending some_digit short all ends =>
      cases digits with
      | nil => exact absurd rfl some_digit
      | cons d digits =>
        obtain ⟨rfl, rfl⟩ := by simpa using same
        have hex := all c (by simp)
        rw [if_pos hex]
        refine ⟨digits, ending ++ v, ?_, fun e mem => all e (by simp [mem]),
          ⟨ending, v, ends, rest, rfl⟩, rfl⟩
        rw [List.length_cons] at short
        omega
  · intro h
    split at h
    · next hex =>
      obtain ⟨digits, _, short, all, ⟨ending, v, ends, rest, rfl⟩, rfl⟩ := h
      refine ⟨c :: digits ++ ending, v, ?_, rest, by simp⟩
      refine Escape.hex (c :: digits) ending (by simp) ?_ (by simpa [hex] using all) ends
      rw [List.length_cons]
      omega
    · next notHex =>
      split at h
      · exact h.elim
      · next notStop =>
        exact ⟨[c], t, .single c (by simpa using notHex) (by simpa using notStop), h, rfl⟩

end SelectorClauses
