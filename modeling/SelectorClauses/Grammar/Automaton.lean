import SelectorClauses.Text.Basic

/-!
Deterministic automata with a partial step, and the longest prefix of a text that one accepts.
Main statements: the part read and the rest make up the text, the part read is accepted, and no
longer prefix is.
-/
namespace SelectorClauses

structure Automaton (State : Type) where
  step : State → Char → Option State
  final : State → Bool

namespace Automaton

variable {State : Type} (m : Automaton State)

def run : State → Text → Option State
  | s, [] => some s
  | s, c :: r => (m.step s c).bind fun s' => run s' r

def Accepts (s : State) (t : Text) : Prop := ∃ s', m.run s t = some s' ∧ m.final s' = true

def longest? : State → Text → Option (Text × Text)
  | s, [] => if m.final s then some ([], []) else none
  | s, c :: r =>
    match (m.step s c).bind fun s' => longest? s' r with
    | some (w, rest) => some (c :: w, rest)
    | none => if m.final s then some ([], c :: r) else none

@[simp] theorem accepts_nil (s : State) : m.Accepts s [] ↔ m.final s = true := by
  simp [Accepts, run]

theorem accepts_cons (s : State) (c : Char) (t : Text) :
    m.Accepts s (c :: t) ↔ ∃ s', m.step s c = some s' ∧ m.Accepts s' t := by
  simp only [Accepts, run, Option.bind_eq_some_iff]
  constructor
  · rintro ⟨s', ⟨s₁, h₁, h₂⟩, h₃⟩
    exact ⟨s₁, h₁, s', h₂, h₃⟩
  · rintro ⟨s₁, h₁, s', h₂, h₃⟩
    exact ⟨s', ⟨s₁, h₁, h₂⟩, h₃⟩

theorem longest?_append {s : State} {t w rest : Text} (h : m.longest? s t = some (w, rest)) :
    t = w ++ rest := by
  induction t generalizing s w rest with
  | nil =>
    simp only [longest?, Option.ite_none_right_eq_some, Option.some.injEq, Prod.mk.injEq] at h
    simp [← h.2.1, ← h.2.2]
  | cons c r ih =>
    rw [longest?] at h
    split at h
    · rename_i w' rest' hw
      obtain ⟨s', -, hs⟩ := Option.bind_eq_some_iff.1 hw
      obtain ⟨rfl, rfl⟩ := by simpa using h
      simp [ih hs]
    · simp only [Option.ite_none_right_eq_some, Option.some.injEq, Prod.mk.injEq] at h
      simp [← h.2.1, ← h.2.2]

theorem accepts_longest? {s : State} {t w rest : Text} (h : m.longest? s t = some (w, rest)) :
    m.Accepts s w := by
  induction t generalizing s w rest with
  | nil =>
    simp only [longest?, Option.ite_none_right_eq_some, Option.some.injEq, Prod.mk.injEq] at h
    simpa [← h.2.1] using h.1
  | cons c r ih =>
    rw [longest?] at h
    split at h
    · rename_i w' rest' hw
      obtain ⟨s', hs, hs'⟩ := Option.bind_eq_some_iff.1 hw
      obtain ⟨rfl, rfl⟩ := by simpa using h
      exact (m.accepts_cons s c w').2 ⟨s', hs, ih hs'⟩
    · simp only [Option.ite_none_right_eq_some, Option.some.injEq, Prod.mk.injEq] at h
      simpa [← h.2.1] using h.1

/-- Some prefix is accepted only if one is found, and then none is longer. -/
theorem length_le_longest? {s : State} {w rest : Text} (h : m.Accepts s w) :
    ∃ w' rest', m.longest? s (w ++ rest) = some (w', rest') ∧ w.length ≤ w'.length := by
  induction w generalizing s with
  | nil =>
    have hf := (m.accepts_nil s).1 h
    cases rest with
    | nil => exact ⟨[], [], by simp [longest?, hf], Nat.le_refl _⟩
    | cons c r =>
      simp only [List.nil_append, longest?]
      split
      · exact ⟨_, _, rfl, Nat.zero_le _⟩
      · exact ⟨_, _, by rw [if_pos hf], Nat.zero_le _⟩
  | cons c w ih =>
    obtain ⟨s', hs, hw⟩ := (m.accepts_cons s c w).1 h
    obtain ⟨w', rest', hl, hle⟩ := ih hw
    exact ⟨c :: w', rest', by simp [longest?, hs, hl], by simpa using hle⟩

theorem longest?_ne_nil {s : State} {t w rest : Text} (hs : m.final s = false)
    (h : m.longest? s t = some (w, rest)) : w ≠ [] := by
  rintro rfl
  have := (m.accepts_nil s).1 (m.accepts_longest? h)
  simp [hs] at this

end Automaton

end SelectorClauses
