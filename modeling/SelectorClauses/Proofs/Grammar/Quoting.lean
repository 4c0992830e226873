import Mathlib.Tactic.SplitIfs
import SelectorClauses.Proofs.Grammar.Escape
import SelectorClauses.Proofs.Grammar.Recognition

/-!
Quotations: the automaton accepts exactly those of the grammar. A quotation cannot go on behind
the quote that closes it, so there is never a choice of where it ends.
-/
namespace SelectorClauses

def QuotationTail (quote : Char) (t : Text) : Prop :=
  ∃ v, MadeOf (QuotationUnit quote) v ∧ t = v ++ [quote]

def AfterQuotedBackslash (next : Text → Prop) (t : Text) : Prop :=
  AfterBackslash next t ∨ ∃ e v, QuotedLineEnd e ∧ next v ∧ t = e ++ v

theorem not_afterQuotedBackslash_nil {next : Text → Prop} : ¬ AfterQuotedBackslash next [] := by
  intro h
  rcases h with h | ⟨e, v, rfl | rfl | rfl | rfl, -, same⟩
  · exact not_afterBackslash_nil h
  all_goals simp at same

theorem afterQuotedBackslash_cons {next : Text → Prop} {c : Char} {t : Text} :
    AfterQuotedBackslash next (c :: t) ↔
      if isHexDigit c = true then AfterDigits 5 next t
      else if c = '\r' then AfterReturn next t else next t := by
  rw [AfterQuotedBackslash, afterBackslash_cons]
  constructor
  · intro h
    rcases h with h | ⟨e, v, rfl | rfl | rfl | rfl, rest, same⟩
    · split_ifs at h ⊢
      · exact h
      · exact Or.inl h
      · exact h
    -- the four line ends
    · obtain ⟨rfl, rfl⟩ := by simpa using same
      exact rest
    · obtain ⟨rfl, rfl⟩ := by simpa using same
      exact Or.inr ⟨v, rfl, rest⟩
    · obtain ⟨rfl, rfl⟩ := by simpa using same
      exact Or.inl rest
    · obtain ⟨rfl, rfl⟩ := by simpa using same
      exact rest
  · intro h
    split_ifs at h with hex carriage
    · exact Or.inl (by rw [if_pos hex]; exact h)
    · subst carriage
      rcases h with rest | ⟨v, rfl, rest⟩
      · exact Or.inr ⟨['\r'], t, Or.inr (Or.inr (Or.inl rfl)), rest, rfl⟩
      · exact Or.inr ⟨['\r', '\n'], v, Or.inr (Or.inl rfl), rest, rfl⟩
    · by_cases stop : isEscapeStop c = true
      · rcases isEscapeStop_cases stop with rfl | rfl | rfl
        · exact Or.inr ⟨['\n'], t, Or.inl rfl, h, rfl⟩
        · exact absurd rfl carriage
        · exact Or.inr ⟨['\x0c'], t, Or.inr (Or.inr (Or.inr rfl)), h, rfl⟩
      · exact Or.inl (by rw [if_neg hex, if_neg stop]; exact h)

section
variable {quote : Char} (isQuote : quote = '"' ∨ quote = '\'')

theorem not_quotationUnit_nil : ¬ QuotationUnit quote [] := by
  intro h
  cases h with
  | escape t escape => exact not_escape_nil escape

theorem quotationUnit_cons_iff {c : Char} {u : Text} :
    QuotationUnit quote (c :: u) ↔
      (c ≠ quote ∧ c ≠ '\\' ∧ isEscapeStop c = false) ∧ u = [] ∨
        c = '\\' ∧ (Escape ('\\' :: u) ∨ QuotedLineEnd u) := by
  constructor
  · intro h
    cases h with
    | char d notQuote notSlash notStop => exact Or.inl ⟨⟨notQuote, notSlash, notStop⟩, rfl⟩
    | lineEnd t ends => exact Or.inr ⟨rfl, Or.inr ends⟩
    | escape t escape =>
      obtain ⟨rfl, escape⟩ := escape_cons_iff.mp escape
      exact Or.inr ⟨rfl, Or.inl escape⟩
  · intro h
    rcases h with ⟨⟨notQuote, notSlash, notStop⟩, rfl⟩ | ⟨rfl, escape | ends⟩
    · exact .char c notQuote notSlash notStop
    · exact .escape _ escape
    · exact .lineEnd u ends

theorem quotationTail_cons_iff_unit {c : Char} {t : Text} :
    QuotationTail quote (c :: t) ↔
      c = quote ∧ t = [] ∨
        ∃ u v, QuotationUnit quote (c :: u) ∧ QuotationTail quote v ∧ t = u ++ v := by
  constructor
  · intro h
    obtain ⟨v, units, same⟩ := h
    cases v with
    | nil => exact Or.inl (by simpa using same)
    | cons d v =>
      obtain ⟨rfl, rfl⟩ := by simpa using same
      obtain ⟨u, w, unit, rest, rfl⟩ := (MadeOf.cons_iff not_quotationUnit_nil).mp units
      exact Or.inr ⟨u, w ++ [quote], unit, ⟨w, rest, rfl⟩, by simp⟩
  · intro h
    rcases h with ⟨rfl, rfl⟩ | ⟨u, _, unit, ⟨w, rest, rfl⟩, rfl⟩
    · exact ⟨[], MadeOf.nil, rfl⟩
    · exact ⟨c :: u ++ w, MadeOf.unit_append unit rest, by simp⟩

theorem not_quotationTail_nil : ¬ QuotationTail quote [] := by
  intro h
  obtain ⟨v, -, same⟩ := h
  simp at same

include isQuote

theorem quotationTail_cons {c : Char} {t : Text} :
    QuotationTail quote (c :: t) ↔
      if c = quote then t = []
      else if c = '\\' then AfterQuotedBackslash (QuotationTail quote) t
      else if isEscapeStop c = true then False else QuotationTail quote t := by
  have notSlash : quote ≠ '\\' := by rcases isQuote with rfl | rfl <;> decide
  rw [quotationTail_cons_iff_unit]
  simp only [quotationUnit_cons_iff]
  constructor
  · intro h
    rcases h with ⟨rfl, rfl⟩ | ⟨u, v, ⟨⟨notQuote, plain, notStop⟩, rfl⟩ | ⟨rfl, escape | ends⟩, rest, rfl⟩
    · simp
    · simpa [notQuote, plain, notStop] using rest
    · rw [if_neg (Ne.symm notSlash), if_pos rfl]
      exact Or.inl ⟨u, v, escape, rest, rfl⟩
    · rw [if_neg (Ne.symm notSlash), if_pos rfl]
      exact Or.inr ⟨u, v, ends, rest, rfl⟩
  · intro h
    split_ifs at h with closes slash stop
    · exact Or.inl ⟨closes, h⟩
    · rcases h with ⟨e, v, escape, rest, rfl⟩ | ⟨e, v, ends, rest, rfl⟩
      · exact Or.inr ⟨e, v, Or.inr ⟨slash, Or.inl escape⟩, rest, rfl⟩
      · exact Or.inr ⟨e, v, Or.inr ⟨slash, Or.inr ends⟩, rest, rfl⟩
    · exact Or.inr ⟨[], t, Or.inl ⟨⟨closes, slash, by simpa using stop⟩, rfl⟩, h, rfl⟩

theorem absorbs_quotationTail : Absorbs (QuotationTail quote) := by
  intro c t h tail
  rw [quotationTail_cons isQuote] at tail
  have notQuote : c ≠ quote := by
    intro same
    subst same
    rcases isQuote with rfl | rfl <;> simp [isHexDigit, isEscapeEnd] at h
  have notSlash : c ≠ '\\' := by
    intro same
    subst same
    simp [isHexDigit, isEscapeEnd] at h
  rw [if_neg notQuote, if_neg notSlash] at tail
  split at tail
  · exact tail.elim
  · exact tail

end

theorem isQuotation_cons_iff {c : Char} {t : Text} :
    IsQuotation (c :: t) ↔ (c = '"' ∨ c = '\'') ∧ QuotationTail c t := by
  constructor
  · intro h
    obtain ⟨quote, units, isQuote, all, same⟩ := h
    obtain ⟨rfl, rfl⟩ := by simpa using same
    exact ⟨isQuote, units.flatten, ⟨units, all, rfl⟩, rfl⟩
  · intro h
    obtain ⟨isQuote, _, ⟨units, all, rfl⟩, rfl⟩ := h
    exact ⟨c, units, isQuote, all, rfl⟩

namespace Quotation

def Rest (quote : Char) : State → Text → Prop
  | .inside => QuotationTail quote
  | .backslash => AfterQuotedBackslash (QuotationTail quote)
  | .escapedReturn => AfterReturn (QuotationTail quote)
  | .hex left => AfterDigits left (QuotationTail quote)
  | .hexReturn => AfterReturn (QuotationTail quote)
  | .closed => fun t => t = []

variable {quote : Char} (isQuote : quote = '"' ∨ quote = '\'')

theorem rest_nil (s : State) : Rest quote s [] ↔ (automaton quote).final s = true := by
  cases s <;>
    simp [Rest, automaton, final, not_quotationTail_nil, not_afterQuotedBackslash_nil,
      afterReturn_nil, afterDigits_nil]

include isQuote

theorem rest_inside_cons (c : Char) (t : Text) :
    QuotationTail quote (c :: t) ↔ ∃ s', stepInside quote c = some s' ∧ Rest quote s' t := by
  rw [quotationTail_cons isQuote, stepInside]
  split_ifs <;> simp [Rest]

theorem rest_return_cons (c : Char) (t : Text) :
    AfterReturn (QuotationTail quote) (c :: t) ↔
      ∃ s', (if c = '\n' then some .inside else stepInside quote c) = some s' ∧
        Rest quote s' t := by
  rw [afterReturn_cons (absorbs_quotationTail isQuote), rest_inside_cons isQuote]
  split_ifs <;> simp [Rest]

theorem rest_cons (s : State) (c : Char) (t : Text) :
    Rest quote s (c :: t) ↔ ∃ s', (automaton quote).step s c = some s' ∧ Rest quote s' t := by
  cases s with
  | inside => exact rest_inside_cons isQuote c t
  | backslash =>
    change AfterQuotedBackslash (QuotationTail quote) (c :: t) ↔
      ∃ s', step quote .backslash c = some s' ∧ Rest quote s' t
    rw [afterQuotedBackslash_cons, step]
    split_ifs <;> simp [Rest]
  | escapedReturn => exact rest_return_cons isQuote c t
  | hex left =>
    change AfterDigits left (QuotationTail quote) (c :: t) ↔
      ∃ s', step quote (.hex left) c = some s' ∧ Rest quote s' t
    have absorbs := absorbs_quotationTail isQuote
    rw [afterDigits_cons absorbs, afterEnding_cons absorbs, rest_inside_cons isQuote, step]
    split_ifs <;> simp [Rest]
  | hexReturn => exact rest_return_cons isQuote c t
  | closed => simp [Rest, automaton, step]

theorem accepts_iff_rest (s : State) (t : Text) :
    (automaton quote).Accepts s t ↔ Rest quote s t :=
  (automaton quote).accepts_iff_of_step rest_nil (rest_cons isQuote) s t

omit isQuote in
theorem step_eq_none_of_final {s : State} {c : Char} (finished : (automaton quote).final s = true) :
    (automaton quote).step s c = none := by
  cases s <;> simp_all [automaton, final, step]

theorem longest?_inside_eq_some_iff {t w rest : Text} :
    (automaton quote).longest? .inside t = some (w, rest) ↔
      t = w ++ rest ∧ QuotationTail quote w := by
  rw [(automaton quote).longest?_eq_some_iff, accepts_iff_rest isQuote]
  refine and_congr_right fun _ => ⟨And.left, fun tail => ⟨tail, ?_⟩⟩
  intro v _ _ longer
  have accepted := (accepts_iff_rest isQuote .inside w).mpr tail
  refine (automaton quote).eq_nil_of_accepts_append accepted longer ?_
  intro c _ s' finished
  exact step_eq_none_of_final finished

omit isQuote in
theorem quotation?_eq_some_iff {t w rest : Text} :
    quotation? t = some (w, rest) ↔ t = w ++ rest ∧ IsQuotation w := by
  constructor
  · intro found
    refine ⟨quotation?_append found, ?_⟩
    cases t with
    | nil => simp [quotation?] at found
    | cons c t =>
      simp only [quotation?, Option.ite_none_right_eq_some, Option.map_eq_some_iff,
        Prod.exists, Prod.mk.injEq] at found
      obtain ⟨isQuote, w', rest', longest, rfl, rfl⟩ := found
      have tail := ((longest?_inside_eq_some_iff isQuote).mp longest).2
      exact isQuotation_cons_iff.mpr ⟨isQuote, tail⟩
  · intro h
    obtain ⟨rfl, quotation⟩ := h
    cases w with
    | nil => obtain ⟨_, _, _, _, same⟩ := quotation; simp at same
    | cons c w =>
      obtain ⟨isQuote, tail⟩ := isQuotation_cons_iff.mp quotation
      have longest : (automaton c).longest? .inside (w ++ rest) = some (w, rest) :=
        (longest?_inside_eq_some_iff isQuote).mpr ⟨rfl, tail⟩
      simp [quotation?, isQuote, longest]

end Quotation

end SelectorClauses
