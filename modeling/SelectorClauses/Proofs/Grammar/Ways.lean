import Mathlib.Algebra.BigOperators.Group.List.Basic
import SelectorClauses.Grammar.Pattern
import SelectorClauses.Proofs.Grammar.Escape

/-!
What patterns match. `Finds p language` says that the ways of a pattern at the start of a text are
exactly the ways to split off a member of a language. There is one statement for each construction
of patterns, so that what a pattern finds is put together from what its parts find.
-/
namespace SelectorClauses

namespace Pattern

/-- A way takes a text of the language, captures what belongs to it there, and leaves the rest; and
each such way is found. -/
def Finds (p : Pattern) (language : Text → List (Nat × Text) → Prop) : Prop :=
  ∀ t a, a ∈ p.ways t ↔ t = a.taken ++ a.rest ∧ language a.taken a.captured

def FindsTexts (p : Pattern) (language : Text → Prop) : Prop :=
  p.Finds fun w captured => language w ∧ captured = []

section

variable {p q : Pattern} {L M : Text → List (Nat × Text) → Prop} {U V : Text → Prop}

theorem Finds.congr (h : p.Finds L) (same : ∀ w g, L w g ↔ M w g) : p.Finds M := by
  intro t a
  rw [h t a, same]

theorem FindsTexts.congr (h : p.FindsTexts U) (same : ∀ w, U w ↔ V w) : p.FindsTexts V :=
  Finds.congr h fun w _ => and_congr_left fun _ => same w

/- The constructions. -/

theorem findsTexts_one (inClass : Char → Bool) :
    (one inClass).FindsTexts fun w => ∃ c, inClass c = true ∧ w = [c] := by
  intro t a
  obtain ⟨taken, captured, rest⟩ := a
  constructor
  · intro mem
    cases t with
    | nil => simp [ways] at mem
    | cons c r =>
      obtain ⟨member, rfl, rfl, rfl⟩ := by simpa [ways, Way.ofChar] using mem
      exact ⟨rfl, ⟨c, member, rfl⟩, rfl⟩
  · intro h
    obtain ⟨rfl, ⟨c, member, rfl⟩, rfl⟩ := h
    simp [ways, member, Way.ofChar]

theorem findsTexts_char (c : Char) : (char c).FindsTexts fun w => w = [c] := by
  apply (findsTexts_one (· == c)).congr
  simp

theorem Finds.either (left : p.Finds L) (right : q.Finds M) :
    (p.either q).Finds fun w g => L w g ∨ M w g := by
  intro t a
  rw [ways, List.mem_append, left t a, right t a, and_or_left]

theorem FindsTexts.either (left : p.FindsTexts U) (right : q.FindsTexts V) :
    (p.either q).FindsTexts fun w => U w ∨ V w := by
  apply (Finds.either left right).congr
  intro w g
  rw [or_and_right]

theorem Finds.seq (first : p.Finds L) (second : q.Finds M) :
    (p.seq q).Finds fun w g =>
      ∃ u d v e, L u d ∧ M v e ∧ w = u ++ v ∧ g = e ++ d := by
  intro t a
  simp only [ways, List.mem_flatMap, List.mem_map]
  constructor
  · intro h
    obtain ⟨b, memB, c, memC, rfl⟩ := h
    obtain ⟨splitB, langB⟩ := (first t b).mp memB
    obtain ⟨splitC, langC⟩ := (second b.rest c).mp memC
    refine ⟨?_, b.taken, b.captured, c.taken, c.captured, langB, langC, rfl, rfl⟩
    rw [splitB, splitC]
    simp [Way.followedBy]
  · intro h
    obtain ⟨split, u, d, v, e, langU, langV, taken, captured⟩ := h
    refine ⟨⟨u, d, v ++ a.rest⟩, (first _ _).mpr ⟨?_, langU⟩, ⟨v, e, a.rest⟩,
      (second _ _).mpr ⟨rfl, langV⟩, ?_⟩
    · rw [split, taken, List.append_assoc]
    · rw [Way.followedBy, ← taken, ← captured]

theorem FindsTexts.seq (first : p.FindsTexts U) (second : q.FindsTexts V) :
    (p.seq q).FindsTexts fun w => ∃ u v, U u ∧ V v ∧ w = u ++ v := by
  apply (Finds.seq first second).congr
  intro w g
  constructor
  · intro h
    obtain ⟨u, _, v, _, ⟨langU, rfl⟩, ⟨langV, rfl⟩, rfl, rfl⟩ := h
    exact ⟨⟨u, v, langU, langV, rfl⟩, rfl⟩
  · intro h
    obtain ⟨⟨u, v, langU, langV, rfl⟩, rfl⟩ := h
    exact ⟨u, [], v, [], ⟨langU, rfl⟩, ⟨langV, rfl⟩, rfl, rfl⟩

theorem Finds.char_seq (c : Char) (h : p.Finds L) :
    ((char c).seq p).Finds fun w g => ∃ v, L v g ∧ w = c :: v := by
  apply (Finds.seq (findsTexts_char c) h).congr
  intro w g
  constructor
  · intro h
    obtain ⟨_, _, v, e, ⟨rfl, rfl⟩, lang, rfl, rfl⟩ := h
    exact ⟨v, by simpa using lang, rfl⟩
  · intro h
    obtain ⟨v, lang, rfl⟩ := h
    exact ⟨[c], [], v, g, ⟨rfl, rfl⟩, lang, rfl, by simp⟩

theorem FindsTexts.char_seq (c : Char) (h : p.FindsTexts U) :
    ((char c).seq p).FindsTexts fun w => ∃ v, U v ∧ w = c :: v := by
  apply (Finds.char_seq c h).congr
  intro w g
  constructor
  · intro h
    obtain ⟨v, ⟨lang, rfl⟩, rfl⟩ := h
    exact ⟨⟨v, lang, rfl⟩, rfl⟩
  · intro h
    obtain ⟨⟨v, lang, rfl⟩, rfl⟩ := h
    exact ⟨v, ⟨lang, rfl⟩, rfl⟩

theorem Finds.seq_char (c : Char) (h : p.Finds L) :
    (p.seq (char c)).Finds fun w g => ∃ v, L v g ∧ w = v ++ [c] := by
  apply (Finds.seq h (findsTexts_char c)).congr
  intro w g
  constructor
  · intro h
    obtain ⟨u, d, _, _, lang, ⟨rfl, rfl⟩, rfl, rfl⟩ := h
    exact ⟨u, lang, rfl⟩
  · intro h
    obtain ⟨v, lang, rfl⟩ := h
    exact ⟨v, g, [c], [], lang, ⟨rfl, rfl⟩, rfl, rfl⟩

theorem FindsTexts.group (i : Nat) (h : p.FindsTexts U) :
    (p.group i).Finds fun w g => U w ∧ g = [(i, w)] := by
  intro t a
  simp only [ways, List.mem_map]
  constructor
  · intro mem
    obtain ⟨b, memB, rfl⟩ := mem
    obtain ⟨split, lang, captured⟩ := (h t b).mp memB
    exact ⟨split, lang, by simp [Way.capturedAs, captured]⟩
  · intro mem
    obtain ⟨split, lang, captured⟩ := mem
    refine ⟨⟨a.taken, [], a.rest⟩, (h t _).mpr ⟨split, lang, rfl⟩, ?_⟩
    rw [Way.capturedAs, ← captured]

theorem eq_nothing_iff {t : Text} {a : Way} :
    a = .nothing t ↔ t = a.taken ++ a.rest ∧ a.taken = [] ∧ a.captured = [] := by
  obtain ⟨taken, captured, rest⟩ := a
  simp only [Way.nothing, Way.mk.injEq]
  constructor
  · intro h
    obtain ⟨rfl, rfl, rfl⟩ := h
    exact ⟨rfl, rfl, rfl⟩
  · intro h
    obtain ⟨rfl, rfl, rfl⟩ := h
    exact ⟨rfl, rfl, rfl⟩

theorem Finds.optional (h : p.Finds L) :
    p.optional.Finds fun w g => L w g ∨ w = [] ∧ g = [] := by
  intro t a
  have once : a ∈ p.optional.ways t ↔ a ∈ p.ways t ∨ a = .nothing t := by
    have followed : ∀ b : Way, b.followedBy (.nothing b.rest) = b := by
      intro b
      simp [Way.followedBy, Way.nothing]
    simp [Pattern.optional, ways, repeated, followed]
  rw [once, h t a, eq_nothing_iff, and_or_left]

theorem FindsTexts.mem_repeated (h : p.FindsTexts U) (n : Nat) (t : Text) (a : Way) :
    a ∈ repeated p.ways n t ↔ t = a.taken ++ a.rest ∧
      (∃ units : List Text, units.length ≤ n ∧ (∀ u ∈ units, U u) ∧ a.taken = units.flatten) ∧
        a.captured = [] := by
  induction n generalizing t a with
  | zero =>
    rw [repeated, List.mem_singleton, eq_nothing_iff]
    simp
  | succ n ih =>
    simp only [repeated, List.mem_append, List.mem_flatMap, List.mem_map, List.mem_singleton,
      eq_nothing_iff]
    constructor
    · intro mem
      rcases mem with ⟨b, memB, c, memC, rfl⟩ | ⟨split, taken, captured⟩
      · obtain ⟨splitB, unit, capturedB⟩ := (h t b).mp memB
        obtain ⟨splitC, ⟨units, short, all, taken⟩, capturedC⟩ := (ih b.rest c).mp memC
        refine ⟨?_, ⟨b.taken :: units, ?_, ?_, ?_⟩, ?_⟩
        · rw [splitB, splitC]
          simp [Way.followedBy]
        · simpa using short
        · simpa [unit] using all
        · simp [Way.followedBy, taken]
        · simp [Way.followedBy, capturedB, capturedC]
      · exact ⟨split, ⟨[], by simp, by simp, taken⟩, captured⟩
    · intro mem
      obtain ⟨split, ⟨units, short, all, taken⟩, captured⟩ := mem
      cases units with
      | nil => exact Or.inr ⟨split, taken, captured⟩
      | cons u us =>
        refine Or.inl ⟨⟨u, [], us.flatten ++ a.rest⟩, (h _ _).mpr ⟨?_, all u (by simp), rfl⟩,
          ⟨us.flatten, [], a.rest⟩, (ih _ _).mpr ⟨rfl, ⟨us, ?_, ?_, rfl⟩, rfl⟩, ?_⟩
        · rw [split, taken]
          simp
        · simpa using short
        · intro v mem
          exact all v (by simp [mem])
        · obtain ⟨a, g, rest⟩ := a
          obtain ⟨rfl, rfl⟩ : a = u ++ us.flatten ∧ g = [] := ⟨taken, captured⟩
          rfl

theorem FindsTexts.optional (h : p.FindsTexts U) :
    p.optional.FindsTexts fun w => U w ∨ w = [] := by
  apply (Finds.optional h).congr
  intro w g
  rw [or_and_right]

theorem FindsTexts.upTo (h : p.FindsTexts U) (n : Nat) :
    (p.upTo n).FindsTexts fun w =>
      ∃ units : List Text, units.length ≤ n ∧ (∀ u ∈ units, U u) ∧ w = units.flatten :=
  fun t a => h.mem_repeated n t a

theorem FindsTexts.many (h : p.FindsTexts U) (nonempty : ¬ U []) :
    p.many.FindsTexts (MadeOf U) := by
  intro t a
  rw [ways, h.mem_repeated]
  constructor
  · intro mem
    obtain ⟨split, ⟨units, -, all, taken⟩, captured⟩ := mem
    exact ⟨split, ⟨units, all, taken⟩, captured⟩
  · intro mem
    obtain ⟨split, ⟨units, all, taken⟩, captured⟩ := mem
    -- each unit has a character, so there are not more of them than there are characters
    have short : units.length ≤ units.flatten.length := by
      rw [List.length_flatten, ← List.length_map List.length]
      apply List.length_le_sum_of_one_le
      intro i mem
      obtain ⟨u, memU, rfl⟩ := List.mem_map.mp mem
      apply List.length_pos_iff.mpr
      intro empty
      exact nonempty (empty ▸ all u memU)
    refine ⟨split, ⟨units, ?_, all, taken⟩, captured⟩
    rw [split, List.length_append, taken]
    omega

theorem FindsTexts.length_rest_lt (h : p.FindsTexts U) (nonempty : ¬ U []) {t : Text} {a : Way}
    (mem : a ∈ p.ways t) : a.rest.length < t.length := by
  obtain ⟨split, member, -⟩ := (h t a).mp mem
  have some_character : 0 < a.taken.length := by
    apply List.length_pos_iff.mpr
    intro empty
    exact nonempty (empty ▸ member)
  rw [split, List.length_append]
  omega

theorem findsTexts_upTo_one (n : Nat) (inClass : Char → Bool) :
    ((one inClass).upTo n).FindsTexts fun w => w.length ≤ n ∧ ∀ c ∈ w, inClass c = true := by
  apply ((findsTexts_one inClass).upTo n).congr
  intro w
  constructor
  · intro h
    obtain ⟨units, short, all, rfl⟩ := h
    induction units generalizing n with
    | nil => simp
    | cons u us ih =>
      obtain ⟨c, member, rfl⟩ := all u (by simp)
      rw [List.length_cons] at short
      obtain ⟨shorter, rest⟩ := ih (n - 1) (by omega) fun v mem => all v (by simp [mem])
      refine ⟨?_, by simpa [member] using rest⟩
      rw [List.flatten_cons, List.length_append, List.length_singleton]
      omega
  · intro h
    obtain ⟨short, all⟩ := h
    refine ⟨w.map fun c => [c], by simpa using short, ?_, ?_⟩
    · intro u mem
      obtain ⟨c, memC, rfl⟩ := List.mem_map.mp mem
      exact ⟨c, all c memC, rfl⟩
    · exact (List.flatMap_singleton' w).symm

end

end Pattern

end SelectorClauses
