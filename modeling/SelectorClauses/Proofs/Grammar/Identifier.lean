import Mathlib.Tactic.SplitIfs
import SelectorClauses.Proofs.Grammar.Escape
import SelectorClauses.Proofs.Grammar.Recognition

/-!
Names and identifiers: the automaton accepts exactly those of the grammar, and what it reads at
the start of a text is the longest one. Main statements: `identifier?_eq_some_iff` and its
companions for names, and that identifiers side by side are one identifier.
-/
namespace SelectorClauses

def NameTail : Text → Prop := MadeOf NameUnit

def NameStarted (t : Text) : Prop :=
  ∃ start v, NameStartUnit start ∧ NameTail v ∧ t = start ++ v

/-- The characters that a name can have behind its first unit. -/
def continuesName (c : Char) : Bool := isNameChar c || c == '\\' || isEscapeEnd c

theorem nameUnit_cons_iff {c : Char} {u : Text} :
    NameUnit (c :: u) ↔ isNameChar c = true ∧ u = [] ∨ c = '\\' ∧ Escape ('\\' :: u) := by
  constructor
  · intro h
    cases h with
    | char d inside => exact Or.inl ⟨inside, rfl⟩
    | escape t escape => exact Or.inr (escape_cons_iff.mp escape)
  · intro h
    rcases h with ⟨inside, rfl⟩ | ⟨rfl, escape⟩
    · exact .char c inside
    · exact .escape _ escape

theorem nameStartUnit_cons_iff {c : Char} {u : Text} :
    NameStartUnit (c :: u) ↔ isNameStart c = true ∧ u = [] ∨ c = '\\' ∧ Escape ('\\' :: u) := by
  constructor
  · intro h
    cases h with
    | char d inside => exact Or.inl ⟨inside, rfl⟩
    | escape t escape => exact Or.inr (escape_cons_iff.mp escape)
  · intro h
    rcases h with ⟨inside, rfl⟩ | ⟨rfl, escape⟩
    · exact .char c inside
    · exact .escape _ escape

theorem not_nameUnit_nil : ¬ NameUnit [] := by
  intro h
  cases h with
  | escape t escape => exact not_escape_nil escape

theorem not_nameStartUnit_nil : ¬ NameStartUnit [] := by
  intro h
  cases h with
  | escape t escape => exact not_escape_nil escape

theorem nameUnit_of_nameStartUnit {t : Text} (h : NameStartUnit t) : NameUnit t := by
  cases h with
  | char c inside => exact .char c (isNameChar_of_isNameStart inside)
  | escape t escape => exact .escape t escape

/-- A unit and the tail behind it, told apart by the first character: an escape if that is a
backslash, and otherwise a single character of the class that `inside` tests. -/
theorem unit_then_tail_iff {inside : Char → Bool} (notSlash : inside '\\' = false) {c : Char}
    {t : Text} :
    (∃ u v, (inside c = true ∧ u = [] ∨ c = '\\' ∧ Escape ('\\' :: u)) ∧ NameTail v ∧
        t = u ++ v) ↔
      if c = '\\' then AfterBackslash NameTail t
      else if inside c = true then NameTail t else False := by
  by_cases slash : c = '\\'
  · subst slash
    simp [notSlash, AfterBackslash]
  · simp only [slash, false_and, or_false, if_false]
    constructor
    · intro h
      obtain ⟨_, v, ⟨member, rfl⟩, tail, rfl⟩ := h
      simpa [member] using tail
    · intro h
      split at h
      · next member => exact ⟨[], t, ⟨member, rfl⟩, h, rfl⟩
      · exact h.elim

theorem nameTail_cons {c : Char} {t : Text} :
    NameTail (c :: t) ↔
      if c = '\\' then AfterBackslash NameTail t
      else if isNameChar c = true then NameTail t else False := by
  rw [NameTail, MadeOf.cons_iff not_nameUnit_nil]
  simp only [nameUnit_cons_iff]
  exact unit_then_tail_iff (by decide)

theorem nameStarted_cons {c : Char} {t : Text} :
    NameStarted (c :: t) ↔
      if c = '\\' then AfterBackslash NameTail t
      else if isNameStart c = true then NameTail t else False := by
  rw [← unit_then_tail_iff (by decide)]
  simp only [← nameStartUnit_cons_iff]
  constructor
  · intro h
    obtain ⟨start, v, unit, rest, same⟩ := h
    cases start with
    | nil => exact absurd unit not_nameStartUnit_nil
    | cons d u =>
      obtain ⟨rfl, rfl⟩ := by simpa using same
      exact ⟨u, v, unit, rest, rfl⟩
  · intro h
    obtain ⟨u, v, unit, rest, rfl⟩ := h
    exact ⟨c :: u, v, unit, rest, rfl⟩

theorem not_nameStarted_nil : ¬ NameStarted [] := by
  intro h
  obtain ⟨start, v, unit, -, same⟩ := h
  obtain ⟨rfl, rfl⟩ := List.nil_eq_append_iff.mp same
  exact not_nameStartUnit_nil unit

theorem absorbs_nameTail : Absorbs NameTail := by
  intro c t h tail
  rw [nameTail_cons] at tail
  rcases h with digit | ends
  · have notSlash : c ≠ '\\' := ne_of_apply_ne isHexDigit (by rw [digit]; decide)
    simpa [notSlash, isNameChar_of_isHexDigit digit] using tail
  · have notSlash : c ≠ '\\' := ne_of_apply_ne isEscapeEnd (by rw [ends]; decide)
    simp [notSlash, isNameChar_of_isEscapeEnd ends] at tail

theorem isName_iff {t : Text} : IsName t ↔ t ≠ [] ∧ NameTail t := by
  constructor
  · intro h
    obtain ⟨units, some_unit, all, rfl⟩ := h
    refine ⟨?_, units, all, rfl⟩
    cases units with
    | nil => exact absurd rfl some_unit
    | cons u us =>
      intro empty
      have : u = [] := (List.append_eq_nil_iff.mp empty).1
      exact not_nameUnit_nil (this ▸ all u (by simp))
  · intro h
    obtain ⟨nonempty, units, all, rfl⟩ := h
    refine ⟨units, ?_, all, rfl⟩
    intro empty
    exact nonempty (by rw [empty]; rfl)

theorem isIdentifier_iff {t : Text} :
    IsIdentifier t ↔ NameStarted t ∨ ∃ v, t = '-' :: v ∧ NameStarted v := by
  constructor
  · intro h
    rcases h with ⟨_, start, units, rfl | rfl, unit, all, rfl⟩
    · exact Or.inl ⟨start, units.flatten, unit, ⟨units, all, rfl⟩, rfl⟩
    · exact Or.inr ⟨_, rfl, start, units.flatten, unit, ⟨units, all, rfl⟩, rfl⟩
  · intro h
    rcases h with ⟨start, _, unit, ⟨units, all, rfl⟩, rfl⟩ |
      ⟨_, rfl, start, _, unit, ⟨units, all, rfl⟩, rfl⟩
    · exact ⟨[], start, units, Or.inl rfl, unit, all, rfl⟩
    · exact ⟨['-'], start, units, Or.inr rfl, unit, all, rfl⟩

theorem isIdentifier_cons {c : Char} {t : Text} :
    IsIdentifier (c :: t) ↔ if c = '-' then NameStarted t else NameStarted (c :: t) := by
  rw [isIdentifier_iff]
  by_cases hyphen : c = '-'
  · subst hyphen
    have notStart : isNameStart '-' = false := by decide
    simp [nameStarted_cons, notStart]
  · simp [hyphen]

theorem IsIdentifier.ne_nil {t : Text} (h : IsIdentifier t) : t ≠ [] := by
  intro empty
  subst empty
  simp [isIdentifier_iff, not_nameStarted_nil] at h

theorem NameStarted.nameTail {t : Text} (h : NameStarted t) : NameTail t := by
  obtain ⟨start, v, unit, rest, rfl⟩ := h
  exact MadeOf.unit_append (nameUnit_of_nameStartUnit unit) rest

theorem NameStarted.append_nameTail {s t : Text} (h : NameStarted s) (tail : NameTail t) :
    NameStarted (s ++ t) := by
  obtain ⟨start, v, unit, rest, rfl⟩ := h
  exact ⟨start, v ++ t, unit, rest.append tail, by simp⟩

theorem IsIdentifier.nameTail {t : Text} (h : IsIdentifier t) : NameTail t := by
  rcases isIdentifier_iff.mp h with started | ⟨v, rfl, started⟩
  · exact started.nameTail
  · exact MadeOf.unit_append (.char '-' (by decide)) started.nameTail

theorem IsIdentifier.append_nameTail {s t : Text} (h : IsIdentifier s) (tail : NameTail t) :
    IsIdentifier (s ++ t) := by
  rcases isIdentifier_iff.mp h with started | ⟨v, rfl, started⟩
  · exact isIdentifier_iff.mpr (Or.inl (started.append_nameTail tail))
  · exact isIdentifier_iff.mpr (Or.inr ⟨v ++ t, rfl, started.append_nameTail tail⟩)

theorem IsIdentifier.append {s t : Text} (left : IsIdentifier s) (right : IsIdentifier t) :
    IsIdentifier (s ++ t) := left.append_nameTail right.nameTail

theorem IsIdentifier.continuesName_head {c : Char} {t : Text} (h : IsIdentifier (c :: t)) :
    continuesName c = true := by
  have tail := nameTail_cons.mp h.nameTail
  by_cases slash : c = '\\'
  · simp [continuesName, slash]
  · by_cases inside : isNameChar c = true
    · simp [continuesName, inside]
    · simp [slash, inside] at tail

namespace Name

def Rest : State → Text → Prop
  | .identifierStart => IsIdentifier
  | .afterHyphen => NameStarted
  | .nameStart => IsName
  | .inside => NameTail
  | .backslash => AfterBackslash NameTail
  | .hex left => AfterDigits left NameTail
  | .hexReturn => AfterReturn NameTail

theorem rest_nil (s : State) : Rest s [] ↔ automaton.final s = true := by
  have tail : NameTail [] := MadeOf.nil
  cases s with
  | identifierStart => simp [Rest, automaton, final, isIdentifier_iff, not_nameStarted_nil]
  | afterHyphen => simp [Rest, automaton, final, not_nameStarted_nil]
  | nameStart => simp [Rest, automaton, final, isName_iff]
  | inside => simp [Rest, automaton, final, tail]
  | backslash => simp [Rest, automaton, final, not_afterBackslash_nil]
  | hex left => simp [Rest, automaton, final, afterDigits_nil, tail]
  | hexReturn => simp [Rest, automaton, final, afterReturn_nil, tail]

theorem rest_inside_cons (c : Char) (t : Text) :
    NameTail (c :: t) ↔ ∃ s', stepInside c = some s' ∧ Rest s' t := by
  rw [nameTail_cons, stepInside]
  split_ifs <;> simp [Rest]

theorem rest_cons (s : State) (c : Char) (t : Text) :
    Rest s (c :: t) ↔ ∃ s', automaton.step s c = some s' ∧ Rest s' t := by
  cases s with
  | identifierStart =>
    change IsIdentifier (c :: t) ↔ ∃ s', step .identifierStart c = some s' ∧ Rest s' t
    rw [isIdentifier_cons, nameStarted_cons, step]
    split_ifs <;> simp [Rest]
  | afterHyphen =>
    change NameStarted (c :: t) ↔ ∃ s', step .afterHyphen c = some s' ∧ Rest s' t
    rw [nameStarted_cons, step]
    split_ifs <;> simp [Rest]
  | nameStart =>
    change IsName (c :: t) ↔ ∃ s', stepInside c = some s' ∧ Rest s' t
    rw [← rest_inside_cons, isName_iff]
    simp
  | inside => exact rest_inside_cons c t
  | backslash =>
    change AfterBackslash NameTail (c :: t) ↔ ∃ s', step .backslash c = some s' ∧ Rest s' t
    rw [afterBackslash_cons, step]
    split_ifs <;> simp [Rest]
  | hex left =>
    change AfterDigits left NameTail (c :: t) ↔ ∃ s', step (.hex left) c = some s' ∧ Rest s' t
    rw [afterDigits_cons absorbs_nameTail, afterEnding_cons absorbs_nameTail, rest_inside_cons,
      step]
    split_ifs <;> simp [Rest]
  | hexReturn =>
    change AfterReturn NameTail (c :: t) ↔ ∃ s', step .hexReturn c = some s' ∧ Rest s' t
    rw [afterReturn_cons absorbs_nameTail, rest_inside_cons, step]
    split_ifs <;> simp [Rest]

theorem accepts_iff_rest (s : State) (t : Text) : automaton.Accepts s t ↔ Rest s t :=
  automaton.accepts_iff_of_step rest_nil rest_cons s t

theorem step_eq_none_of_final {s : State} {c : Char} (finished : automaton.final s = true)
    (stop : continuesName c = false) : automaton.step s c = none := by
  simp only [continuesName, Bool.or_eq_false_iff, beq_eq_false_iff_ne] at stop
  obtain ⟨⟨notInside, notSlash⟩, notEnd⟩ := stop
  have notHex : isHexDigit c = false := by
    cases digit : isHexDigit c with
    | false => rfl
    | true => simp [isNameChar_of_isHexDigit digit] at notInside
  have notReturn : c ≠ '\r' := ne_of_apply_ne isEscapeEnd (by rw [notEnd]; decide)
  have notFeed : c ≠ '\n' := ne_of_apply_ne isEscapeEnd (by rw [notEnd]; decide)
  cases s <;> simp_all [automaton, final, step, stepInside]

theorem eq_nil_of_rest_append {s : State} {w v r : Text} (accepted : Rest s w)
    (longer : Rest s (w ++ v)) (stop : ∀ c ∈ (v ++ r).head?, continuesName c = false) :
    v = [] := by
  rw [← accepts_iff_rest] at accepted longer
  apply automaton.eq_nil_of_accepts_append accepted longer
  intro c first s' finished
  refine step_eq_none_of_final finished (stop c ?_)
  rw [List.head?_append, Option.mem_def.mp first]
  rfl

def EndsAt (w rest : Text) : Prop := ∀ v r, rest = v ++ r → IsIdentifier (w ++ v) → v = []

theorem identifier?_eq_some_iff {t w rest : Text} :
    identifier? t = some (w, rest) ↔ t = w ++ rest ∧ IsIdentifier w ∧ EndsAt w rest := by
  rw [identifier?, automaton.longest?_eq_some_iff]
  simp [accepts_iff_rest, Rest, EndsAt]

theorem exists_identifier?_append {w : Text} (identifier : IsIdentifier w) (rest : Text) :
    ∃ v r, rest = v ++ r ∧ identifier? (w ++ rest) = some (w ++ v, r) :=
  automaton.exists_longest?_append ((accepts_iff_rest .identifierStart w).mpr identifier) rest

theorem name?_eq_some_iff {t w rest : Text} :
    name? t = some (w, rest) ↔
      t = w ++ rest ∧ IsName w ∧ ∀ v r, rest = v ++ r → IsName (w ++ v) → v = [] := by
  rw [name?, automaton.longest?_eq_some_iff]
  simp [accepts_iff_rest, Rest]

theorem name?_eq_none_iff {t : Text} :
    name? t = none ↔ ∀ w r, t = w ++ r → ¬ IsName w := by
  rw [name?, automaton.longest?_eq_none_iff]
  simp [accepts_iff_rest, Rest]

theorem endsAt_of_head {w rest : Text} (identifier : IsIdentifier w)
    (stop : ∀ c ∈ rest.head?, continuesName c = false) : EndsAt w rest := by
  intro v r split longer
  rw [split] at stop
  exact eq_nil_of_rest_append (s := .identifierStart) identifier longer stop

theorem name?_append_cons {w : Text} {c : Char} (name : IsName w) (stop : continuesName c = false)
    (r : Text) : name? (w ++ c :: r) = some (w, c :: r) := by
  refine name?_eq_some_iff.mpr ⟨rfl, name, ?_⟩
  intro v r' split longer
  have stops : ∀ d ∈ (v ++ r').head?, continuesName d = false := by
    rw [← split]
    simpa using stop
  exact eq_nil_of_rest_append (s := .nameStart) name longer stops

theorem identifier?_append_of_head {w rest : Text} (identifier : IsIdentifier w)
    (stop : ∀ c ∈ rest.head?, continuesName c = false) :
    identifier? (w ++ rest) = some (w, rest) :=
  identifier?_eq_some_iff.mpr ⟨rfl, identifier, endsAt_of_head identifier stop⟩

end Name

end SelectorClauses
