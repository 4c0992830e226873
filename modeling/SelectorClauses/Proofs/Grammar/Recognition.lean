import SelectorClauses.Grammar.Automaton

/-!
What an automaton recognises. A language for each state that agrees with the automaton on one
character agrees with it on every text, and the longest prefix is the only accepted one that no
other exceeds.
-/
namespace SelectorClauses.Automaton

variable {State : Type} (m : Automaton State)

theorem accepts_iff_of_step {language : State → Text → Prop}
    (empty : ∀ s, language s [] ↔ m.final s = true)
    (step : ∀ s c t, language s (c :: t) ↔ ∃ s', m.step s c = some s' ∧ language s' t)
    (s : State) (t : Text) : m.Accepts s t ↔ language s t := by
  induction t generalizing s with
  | nil => rw [m.accepts_nil, empty]
  | cons c t ih =>
    rw [m.accepts_cons, step]
    exact exists_congr fun s' => and_congr_right fun _ => ih s'

theorem run_append (s : State) (u v : Text) :
    m.run s (u ++ v) = (m.run s u).bind fun s' => m.run s' v := by
  induction u generalizing s with
  | nil => rfl
  | cons c u ih =>
    simp only [List.cons_append, run]
    cases m.step s c with
    | none => rfl
    | some s' => simp [ih]

theorem eq_nil_of_accepts_append {s : State} {w v : Text} (accepted : m.Accepts s w)
    (longer : m.Accepts s (w ++ v))
    (stop : ∀ c ∈ v.head?, ∀ s', m.final s' = true → m.step s' c = none) : v = [] := by
  obtain ⟨s', reached, final⟩ := accepted
  obtain ⟨last, run, -⟩ := longer
  rw [run_append, reached] at run
  cases v with
  | nil => rfl
  | cons c v =>
    have stuck := stop c (by simp) s' final
    simp [Automaton.run, stuck] at run

theorem exists_longest?_append {s : State} {w : Text} (accepted : m.Accepts s w) (rest : Text) :
    ∃ v r, rest = v ++ r ∧ m.longest? s (w ++ rest) = some (w ++ v, r) := by
  have reach : ∃ w' r, m.longest? s (w ++ rest) = some (w', r) ∧ w.length ≤ w'.length :=
    m.length_le_longest? accepted
  obtain ⟨w', r, found, longer⟩ := reach
  have split := m.longest?_append found
  have starts : w <+: w' ++ r := ⟨rest, split⟩
  obtain ⟨v, rfl⟩ := List.prefix_of_prefix_length_le starts (List.prefix_append _ _) longer
  exact ⟨v, r, by simpa using split, found⟩

theorem longest?_eq_some_iff {s : State} {t w rest : Text} :
    m.longest? s t = some (w, rest) ↔
      t = w ++ rest ∧ m.Accepts s w ∧ ∀ v r, rest = v ++ r → m.Accepts s (w ++ v) → v = [] := by
  constructor
  · intro found
    refine ⟨m.longest?_append found, m.accepts_longest? found, ?_⟩
    intro v r same accepted
    obtain ⟨v', r', -, found'⟩ := m.exists_longest?_append accepted r
    have whole : t = w ++ v ++ r := by simpa [same] using m.longest?_append found
    rw [← whole, found] at found'
    simp at found'
    exact found'.1.1
  · intro h
    obtain ⟨rfl, accepted, maximal⟩ := h
    obtain ⟨v, r, same, found⟩ := m.exists_longest?_append accepted rest
    have empty : v = [] := maximal v r same (m.accepts_longest? found)
    subst empty
    simpa [same] using found

theorem longest?_eq_none_iff {s : State} {t : Text} :
    m.longest? s t = none ↔ ∀ w r, t = w ++ r → ¬ m.Accepts s w := by
  constructor
  · intro nothing w r same accepted
    obtain ⟨v, r', -, found⟩ := m.exists_longest?_append accepted r
    simp [← same, nothing] at found
  · intro none_accepted
    cases found : m.longest? s t with
    | none => rfl
    | some parts =>
      obtain ⟨w, rest⟩ := parts
      exact absurd (m.accepts_longest? found) (none_accepted w rest (m.longest?_append found))

end SelectorClauses.Automaton
