import SelectorClauses.Proofs.Catalogue.Accounting
import SelectorClauses.Proofs.Catalogue.UntilFailure

/-!
What is noted while sources are looked up until one fails. Main statements: `journal_getAll_of_accepted`
and `journal_getAll_of_first` say that each key is parsed where it first appears, and that the last thing
noted is the source that is rejected.
-/
namespace SelectorClauses

namespace Catalogue

def requests (r : Registry) (sources : List Text) : List Request :=
  sources.map fun source => (r, .text source)

/-- The keys of sources in the order in which they first appear. -/
def firstKeys (sources : List Text) : List Text := (sources.map Text.trim).eraseDups

theorem firstKeys_concat (sources : List Text) (source : Text) :
    firstKeys (sources ++ [source]) =
      if source.trim ∈ firstKeys sources then firstKeys sources
      else firstKeys sources ++ [source.trim] := by
  simp only [firstKeys, List.map_append, List.map_singleton, eraseDups_concat, List.mem_eraseDups]

theorem getEach_of_accepted (r : Registry) {sources : List Text}
    (accepted : ∀ source ∈ sources, Accepted source.trim) :
    (getEach [] (requests r sources)).1.keys r = firstKeys sources ∧
      (getEach [] (requests r sources)).2 = (firstKeys sources).map .parsing := by
  induction sources using List.reverseRecOn with
  | nil => exact ⟨rfl, rfl⟩
  | append_singleton sources source ih =>
    obtain ⟨keys, journal⟩ := ih fun t mem => accepted t (by simp [mem])
    obtain ⟨ts, read⟩ := accepted source (by simp)
    have split : requests r (sources ++ [source]) = requests r sources ++ [(r, .text source)] := by
      simp [requests]
    rw [split, getEach_concat, firstKeys_concat]
    generalize getEach [] (requests r sources) = before at keys journal ⊢
    have gets : Gets before.1 r source.trim (before.1.get r (.text source)) :=
      gets_get before.1 r (.text source)
    generalize before.1.get r (.text source) = a at gets ⊢
    cases gets with
    | found h there =>
      have old : source.trim ∈ firstKeys sources := by
        by_contra new
        rw [← keys, ← find?_eq_none_iff_keys] at new
        rw [new] at there
        cases there
      simp [old, keys, journal]
    | built us absent read' =>
      have new : source.trim ∉ firstKeys sources := by
        rwa [← keys, ← find?_eq_none_iff_keys]
      simp [new, keys_append, keys_singleton, keys, journal]
    | rejected f absent fault =>
      rw [read] at fault
      cases fault

theorem journal_getAll_append {c : Catalogue} (sound : c.Sound) (r : Registry) {before : List Text}
    (accepted : ∀ source ∈ before, Accepted source.trim) (behind : List Text) :
    (c.getAll r (before ++ behind)).2 =
      (c.getEach (requests r before)).2 ++ ((c.getEach (requests r before)).1.getAll r behind).2 := by
  induction before generalizing c with
  | nil => rfl
  | cons source before ih =>
    obtain ⟨ts, read⟩ := accepted source (by simp)
    have gets := gets_get c r (.text source)
    obtain ⟨h, ok, -⟩ := gets.exists_ok sound read
    have later := ih (gets.sound sound (trim_keyOf (.text source))) fun t mem => accepted t (by simp [mem])
    rw [List.cons_append, getAll]
    simp only [ok, later, requests, List.map_cons, getEach, List.append_assoc]

theorem journal_getAll_of_accepted (r : Registry) {sources : List Text}
    (accepted : ∀ source ∈ sources, Accepted source.trim) :
    (getAll [] r sources).2 = (firstKeys sources).map .parsing := by
  have whole := journal_getAll_append sound_nil r accepted []
  rw [List.append_nil] at whole
  rw [whole, (getEach_of_accepted r accepted).2, getAll, List.append_nil]

theorem journal_getAll_of_first (r : Registry) {before behind : List Text} {source : Text} {f : Fault}
    (accepted : ∀ t ∈ before, Accepted t.trim) (fault : tokenize source.trim = .error f) :
    (getAll [] r (before ++ source :: behind)).2 =
      (firstKeys before).map .parsing ++ parseJournal source.trim (.error f) := by
  have sound : (getEach [] (requests r before)).1.Sound := sound_nil.getEach _
  have rejects : Selector.parse (keyOf (.text source)) = .error (.construction source.trim (.fault f)) :=
    Selector.parse_of_tokenize_error fault
  obtain ⟨g, fault', answer⟩ := sound.get_of_error rejects (r := r)
  obtain rfl : f = g := Except.error.inj (fault.symm.trans fault')
  rw [journal_getAll_append sound_nil r accepted, (getEach_of_accepted r accepted).2, getAll, answer]
  rfl

end Catalogue

end SelectorClauses
