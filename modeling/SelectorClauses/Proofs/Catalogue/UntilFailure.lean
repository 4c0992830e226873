import SelectorClauses.Proofs.Catalogue.Transparency

/-!
Look-ups one after another until one fails. Main statement: `Sound.getAll_eq_mapM` says that they
come to parsing each trimmed source on its own, repeated sources and sources that were there before
included. So either all of them have their selectors, in order, or the first that is rejected decides.
-/
namespace SelectorClauses

namespace Catalogue

def parseTrimmed (source : Text) : Except SelectorError Selector := Selector.parse source.trim

theorem Sound.getAll_eq_mapM {c : Catalogue} (sound : c.Sound) (r : Registry)
    (sources : List Text) :
    (c.getAll r sources).1.map (List.map Handle.selector) = sources.mapM parseTrimmed := by
  induction sources generalizing c with
  | nil => rfl
  | cons source sources ih =>
    have gets := gets_get c r (.text source)
    have fresh : (c.get r (.text source)).result.map Handle.selector = parseTrimmed source :=
      gets.result_eq sound
    have later := ih (gets.sound sound (trim_keyOf (.text source)))
    rw [List.mapM_cons, ← fresh, ← later, getAll]
    generalize (c.get r (.text source)).after.getAll r sources = behind
    obtain ⟨rest, journal⟩ := behind
    cases (c.get r (.text source)).result with
    | error e => rfl
    | ok h => cases rest <;> rfl

theorem getAll_map_trim (c : Catalogue) (r : Registry) (sources : List Text) :
    c.getAll r (sources.map Text.trim) = c.getAll r sources := by
  induction sources generalizing c with
  | nil => rfl
  | cons source sources ih =>
    have same : keyOf (.text source.trim) = keyOf (.text source) := Text.trim_trim source
    rw [List.map_cons, getAll, getAll, get_congr same]
    simp only [ih]

/- What comes of parsing each source on its own. -/

theorem exists_mapM_parseTrimmed {sources : List Text}
    (accepted : ∀ source ∈ sources, Accepted source.trim) :
    ∃ ss, sources.mapM parseTrimmed = .ok ss ∧
      List.Forall₂ (fun source s => parseTrimmed source = .ok s) sources ss := by
  induction sources with
  | nil => exact ⟨[], rfl, .nil⟩
  | cons source sources ih =>
    obtain ⟨ts, read⟩ := accepted source (by simp)
    obtain ⟨ss, rest, each⟩ := ih fun t mem => accepted t (by simp [mem])
    have first : parseTrimmed source = .ok ⟨source.trim, ts⟩ := Selector.parse_of_tokenize_ok read
    refine ⟨⟨source.trim, ts⟩ :: ss, ?_, .cons first each⟩
    rw [List.mapM_cons, first, rest]
    rfl

theorem mapM_parseTrimmed_of_first {before behind : List Text} {source : Text} {f : Fault}
    (accepted : ∀ t ∈ before, Accepted t.trim) (fault : tokenize source.trim = .error f) :
    (before ++ source :: behind).mapM parseTrimmed =
      .error (.construction source.trim (.fault f)) := by
  obtain ⟨ss, first, -⟩ := exists_mapM_parseTrimmed accepted
  have second : parseTrimmed source = .error (.construction source.trim (.fault f)) :=
    Selector.parse_of_tokenize_error fault
  rw [List.mapM_append, List.mapM_cons, first, second]
  rfl

theorem Sound.getAll_of_accepted {c : Catalogue} (sound : c.Sound) (r : Registry)
    {sources : List Text} (accepted : ∀ source ∈ sources, Accepted source.trim) :
    ∃ hs, (c.getAll r sources).1 = .ok hs ∧
      List.Forall₂ (fun source s => parseTrimmed source = .ok s) sources
        (hs.map Handle.selector) := by
  obtain ⟨ss, whole, each⟩ := exists_mapM_parseTrimmed accepted
  rw [← sound.getAll_eq_mapM r] at whole
  cases found : (c.getAll r sources).1 with
  | error e =>
    rw [found] at whole
    cases whole
  | ok hs =>
    rw [found] at whole
    have same : hs.map Handle.selector = ss := Except.ok.inj whole
    exact ⟨hs, rfl, same ▸ each⟩

theorem Sound.getAll_of_first {c : Catalogue} (sound : c.Sound) (r : Registry)
    {before behind : List Text} {source : Text} {f : Fault}
    (accepted : ∀ t ∈ before, Accepted t.trim) (fault : tokenize source.trim = .error f) :
    (c.getAll r (before ++ source :: behind)).1 =
      .error (.construction source.trim (.fault f)) := by
  have whole : (before ++ source :: behind).mapM parseTrimmed =
      .error (.construction source.trim (.fault f)) := mapM_parseTrimmed_of_first accepted fault
  rw [← sound.getAll_eq_mapM r] at whole
  cases found : (c.getAll r (before ++ source :: behind)).1 with
  | ok hs =>
    rw [found] at whole
    cases whole
  | error e =>
    rw [found] at whole
    exact congrArg Except.error (Except.error.inj whole)

theorem all_accepted_or_first (sources : List Text) :
    (∀ source ∈ sources, Accepted source.trim) ∨
      ∃ before source behind f, sources = before ++ source :: behind ∧
        (∀ t ∈ before, Accepted t.trim) ∧ tokenize source.trim = .error f := by
  induction sources with
  | nil => exact Or.inl (by simp)
  | cons source sources ih =>
    cases read : tokenize source.trim with
    | error f => exact Or.inr ⟨[], source, sources, f, rfl, by simp, read⟩
    | ok ts =>
      have first : Accepted source.trim := ⟨ts, read⟩
      rcases ih with all | ⟨before, t, behind, f, rfl, accepted, fault⟩
      · exact Or.inl (by simpa using ⟨first, all⟩)
      · exact Or.inr ⟨source :: before, t, behind, f, rfl, by simpa using ⟨first, accepted⟩, fault⟩

end Catalogue

end SelectorClauses
