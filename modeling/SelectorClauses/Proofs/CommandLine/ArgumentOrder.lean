import SelectorClauses.Proofs.CommandLine.AllOrNothing
import SelectorClauses.Proofs.CommandLine.Choices

/-!
The order of the arguments. Main statement: `argument_order_is_free` says that a run with a selector and some
options depends on which options there are and not on their order or on the place of the selector, although a
word behind an option might be the value of the option.
-/
namespace SelectorClauses

namespace CommandLine

def Choice.format? : Choice → Option Format
  | .format f | .attachedFormat f => some f
  | .attributes | .verbose => none

/-- The options name at most one format, which may be there more than once. -/
def OneFormat (cs : List Choice) : Prop :=
  ∀ f ∈ cs.filterMap Choice.format?, ∀ g ∈ cs.filterMap Choice.format?, f = g

/-- The options in any order, with the word before, between or behind them. -/
def Arranged (t : Text) (cs : List Choice) (arguments : List Text) : Prop :=
  ∃ before behind : List Choice, (before ++ behind).Perm cs ∧ arguments = withOptions before t behind

def settingsOf (t : Text) (cs : List Choice) : Settings where
  selector := some t
  format := if .json ∈ cs.filterMap Choice.format? then .json else .text
  attributesOnly := decide (.attributes ∈ cs)
  verbose := decide (.verbose ∈ cs)

/- The format that options lead to one after another. -/

theorem format_apply (s : Settings) (c : Choice) : (c.apply s).format = c.format?.getD s.format := by
  cases c <;> rfl

theorem format_foldl (s : Settings) (cs : List Choice) :
    (cs.foldl Choice.apply s).format = (cs.filterMap Choice.format?).getLast?.getD s.format := by
  induction cs using List.reverseRecOn with
  | nil => rfl
  | append_singleton cs c ih =>
    rw [List.foldl_append, List.foldl_cons, List.foldl_nil, format_apply, ih, List.filterMap_append]
    cases named : c.format? <;> simp [named]

theorem format_chosen {cs : List Choice} (one : OneFormat cs) :
    (chosen cs).format = if .json ∈ cs.filterMap Choice.format? then .json else .text := by
  rw [chosen, format_foldl]
  cases last : (cs.filterMap Choice.format?).getLast? with
  | none =>
    rw [List.getLast?_eq_none_iff.mp last]
    rfl
  | some f =>
    have mem : f ∈ cs.filterMap Choice.format? := List.mem_of_getLast? last
    by_cases json : .json ∈ cs.filterMap Choice.format?
    · rw [if_pos json, one .json json f mem]
      rfl
    · rw [if_neg json]
      cases f with
      | text => rfl
      | json => exact absurd mem json

theorem settings_chosen {cs : List Choice} (one : OneFormat cs) (t : Text) :
    { chosen cs with selector := some t } = settingsOf t cs := by
  simp only [settingsOf, format_chosen one, attributesOnly_chosen, verbose_chosen]

/- Arrangements. -/

theorem settingsOf_perm {cs ds : List Choice} (perm : cs.Perm ds) (t : Text) :
    settingsOf t cs = settingsOf t ds := by
  have formats := (perm.filterMap Choice.format?).mem_iff (a := .json)
  simp only [settingsOf, formats, perm.mem_iff]

theorem OneFormat.perm {cs ds : List Choice} (perm : cs.Perm ds) (one : OneFormat cs) : OneFormat ds := by
  have formats (f : Format) := (perm.filterMap Choice.format?).mem_iff (a := f)
  intro f memF g memG
  exact one f ((formats f).mpr memF) g ((formats g).mpr memG)

theorem ofArguments_of_arranged {t : Text} (word : IsWord t) {cs : List Choice} (one : OneFormat cs)
    {arguments : List Text} (arranged : Arranged t cs arguments) :
    Settings.ofArguments arguments = .ok (settingsOf t cs) := by
  obtain ⟨before, behind, perm, rfl⟩ := arranged
  rw [Settings.ofArguments_withOptions word, settings_chosen (one.perm perm.symm), settingsOf_perm perm]

def outcomeOf (t : Text) (cs : List Choice) (stdin : Text) : Outcome :=
  if t = [] then ⟨1, [], help, []⟩ else runSelectors (settingsOf t cs) t stdin

theorem run_of_arranged {t : Text} (word : IsWord t) {cs : List Choice} (one : OneFormat cs)
    {arguments : List Text} (arranged : Arranged t cs arguments) (stdin : Text) :
    run arguments stdin = outcomeOf t cs stdin := by
  have parsed := ofArguments_of_arranged word one arranged
  by_cases empty : t = []
  · subst empty
    rw [outcomeOf, if_pos rfl]
    simp only [run, parsed]
    rfl
  · rw [outcomeOf, if_neg empty]
    exact run_eq_runSelectors parsed rfl empty stdin

theorem begins_help : "usage: simplesel".toList <+: help := by
  rw [← List.isPrefixOf_iff_prefix]
  decide +kernel

structure OrderFree (t : Text) (cs : List Choice) : Prop where
  parsed : ∀ arguments, Arranged t cs arguments →
    Settings.ofArguments arguments = .ok (settingsOf t cs)
  outcome : ∀ arguments, Arranged t cs arguments → ∀ stdin, run arguments stdin = outcomeOf t cs stdin
  same : ∀ arguments arguments', Arranged t cs arguments → Arranged t cs arguments' → ∀ stdin,
    (run arguments stdin).exitCode = (run arguments' stdin).exitCode ∧
      (run arguments stdin).stdout = (run arguments' stdin).stdout ∧
      ∀ stamp, (run arguments stdin).errorOutput stamp = (run arguments' stdin).errorOutput stamp
  empty : t = [] → ∀ arguments, Arranged t cs arguments → ∀ stdin,
    (run arguments stdin).exitCode = 1 ∧ (run arguments stdin).stdout = [] ∧
      "usage: simplesel".toList <+: help ∧ ∀ stamp, (run arguments stdin).errorOutput stamp = help

/-- For any text that is no option, the mark for the input and the empty text among them. -/
theorem argument_order_is_free {t : Text} (noOption : t.head? ≠ some '-' ∨ t = inputMark)
    {cs : List Choice} (one : OneFormat cs) : OrderFree t cs := by
  have word : IsWord t := by
    rcases noOption with head | rfl
    · exact isWord_of_head head
    · exact isWord_inputMark
  constructor
  · intro arguments arranged
    exact ofArguments_of_arranged word one arranged
  · intro arguments arranged
    exact run_of_arranged word one arranged
  · intro arguments arguments' arranged arranged' stdin
    rw [run_of_arranged word one arranged, run_of_arranged word one arranged']
    exact ⟨rfl, rfl, fun _ => rfl⟩
  · intro empty arguments arranged stdin
    rw [run_of_arranged word one arranged, outcomeOf, if_pos empty]
    exact ⟨rfl, rfl, begins_help, Outcome.errorOutput_of_nil _ _ _⟩

theorem argument_order_is_free_for_input :
    let cs : List Choice := [.verbose, .format .json, .attributes]
    let mixed : List Text := ["--attributes".toList, "--format".toList, "json".toList, ['-'],
      "--verbose".toList]
    let plain : List Text := [['-'], "--verbose".toList, "--format".toList, "json".toList,
      "--attributes".toList]
    OneFormat cs ∧ OrderFree inputMark cs ∧ OrderFree [] cs ∧ Arranged inputMark cs mixed ∧
      (run mixed ".a[b]\n".toList).stdout = (run plain ".a[b]\n".toList).stdout ∧
      (run mixed ".a[b]\n".toList).stdout = "b\nclass\n".toList ∧
      (run ["--attributes".toList, "--format".toList, "json".toList, [],
        "--verbose".toList] []).exitCode = 1 ∧ "usage: simplesel".toList <+: help := by
  intro cs mixed plain
  have one : OneFormat cs := by
    intro f memF g memG
    rw [List.mem_singleton.mp memF, List.mem_singleton.mp memG]
  have arranged : Arranged inputMark cs mixed :=
    ⟨[.attributes, .format .json], [.verbose], by decide, rfl⟩
  have arranged' : Arranged inputMark cs plain := ⟨[], cs, .refl cs, rfl⟩
  have free : OrderFree inputMark cs := argument_order_is_free (Or.inr rfl) one
  have free' : OrderFree [] cs := argument_order_is_free (Or.inl (by decide)) one
  have missing := free'.empty rfl _ ⟨[.attributes, .format .json], [.verbose], by decide, rfl⟩ []
  exact ⟨one, free, free', arranged, (free.same _ _ arranged arranged' _).2.1, by decide +kernel,
    missing.1, missing.2.2.1⟩

end CommandLine

end SelectorClauses
