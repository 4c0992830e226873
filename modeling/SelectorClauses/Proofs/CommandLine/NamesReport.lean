import SelectorClauses.Proofs.CommandLine.Batches
import SelectorClauses.Proofs.CommandLine.TextReport

/-!
Reading the names of the attributes back. Main statement: `names_are_lines` says that the lines of the
report are the names exactly if no name has a line feed, as is so for every name that comes from a line
of the input. A name keeps its escapes as they are written, and a line feed may end an escape.
-/
namespace SelectorClauses

open Text Token

/-- A name is written out in the source, unless it is that of the attribute behind an id or a class. -/
theorem Selector.infix_of_mem_attributes {source : Text} {s : Selector}
    (parsed : parse source = .ok s) {name : Text} (mem : name ∈ s.attributes) :
    name = ['i', 'd'] ∨ name = ['c', 'l', 'a', 's', 's'] ∨ name <:+: source := by
  obtain ⟨-, read⟩ := parse_eq_ok_iff.mp parsed
  rw [attributes, attributesOf, NameSet.mem_ofList, List.mem_filterMap] at mem
  obtain ⟨t, there, dependency⟩ := mem
  rw [Token.attribute?] at dependency
  cases kind : t.kind with
  | tag => simp [kind, attributeOf] at dependency
  | id => exact Or.inl (by simpa [kind, attributeOf] using dependency.symm)
  | cls => exact Or.inr (Or.inl (by simpa [kind, attributeOf] using dependency.symm))
  | attr =>
    obtain rfl : t.data = name := by simpa [kind, attributeOf] using dependency
    have whole : source = textOf s.tokens := by
      simpa using (tokenize_eq_ok_iff_reads.mp read).text_eq
    have value : t.value <:+: source := by
      rw [whole]
      exact List.infix_of_mem_flatten (List.mem_map_of_mem there)
    have data : t.data <:+: t.value := by
      rw [(wellFormed_of_tokenize read there).value_eq]
      simp only [Token.print, List.append_assoc]
      rw [← List.append_assoc]
      exact List.infix_append' _ _ _
    exact Or.inr (Or.inr (data.trans value))

theorem Selector.lineFeed_not_mem_attribute {source : Text} {s : Selector}
    (parsed : parse source = .ok s) (free : '\n' ∉ source) {name : Text} (mem : name ∈ s.attributes) :
    '\n' ∉ name := by
  rcases infix_of_mem_attributes parsed mem with rfl | rfl | inside
  · decide
  · decide
  · exact fun there => free (inside.subset there)

namespace CommandLine

theorem lineFeed_not_mem_source {selector stdin t : Text} (mem : t ∈ sources selector stdin)
    (free : selector = inputMark ∨ '\n' ∉ selector.trim) : '\n' ∉ t.trim := by
  by_cases input : selector = inputMark
  · rw [input] at mem
    intro inside
    exact absurd (oneLine_trim_of_mem_sources mem '\n' inside) (by decide)
  · rw [sources, if_neg input] at mem
    rw [List.mem_singleton.mp mem]
    exact free.resolve_left input

/-- A run that reports only the names of attributes and succeeds, with the settings that its arguments
come to. -/
structure NamesRun where
  arguments : List Text
  stdin : Text
  settings : Settings
  parsed : Settings.ofArguments arguments = .ok settings
  only : settings.attributesOnly = true
  success : (run arguments stdin).exitCode = 0

namespace NamesRun

def stdout (r : NamesRun) : Text := (run r.arguments r.stdin).stdout

def selector (r : NamesRun) : Text := r.settings.selector.getD []

def sources (r : NamesRun) : List Text := CommandLine.sources r.selector r.stdin

/-- The names of the attributes that the sources depend on, by parsing each of them alone. -/
def names (r : NamesRun) : NameSet :=
  namesOf (r.sources.filterMap fun t => (Selector.parse t.trim).toOption)

theorem run_eq (r : NamesRun) :
    run r.arguments r.stdin = runSelectors r.settings r.selector r.stdin := by
  obtain ⟨selector, given, same⟩ := exists_selector_of_exitCode r.parsed r.success
  rw [same, NamesRun.selector, given, Option.getD_some]

theorem mem_names {r : NamesRun} {name : Text} :
    name ∈ r.names ↔
      ∃ t ∈ r.sources, ∃ found, Selector.parse t.trim = .ok found ∧ name ∈ found.attributes := by
  simp only [names, mem_namesOf, List.mem_filterMap]
  constructor
  · intro there
    obtain ⟨found, ⟨t, mem, parsed⟩, inside⟩ := there
    refine ⟨t, mem, found, ?_, inside⟩
    cases parse : Selector.parse t.trim <;> simp_all [Except.toOption]
  · intro there
    obtain ⟨t, mem, found, parsed, inside⟩ := there
    exact ⟨found, ⟨t, mem, by rw [parsed]; rfl⟩, inside⟩

theorem accepted (r : NamesRun) : ∀ t ∈ r.sources, Accepted t.trim :=
  accepted_of_exitCode (r.run_eq ▸ r.success)

theorem stdout_eq (r : NamesRun) : r.stdout = r.names.lines := by
  obtain ⟨ss, each, -, stdout⟩ := exists_report_of_accepted (s := r.settings) r.accepted
  have same : namesOf ss = r.names := by
    refine NameSet.eq_of_mem_iff fun name => ?_
    have parsed := exists_mem_iff_of_forall₂ (List.forall₂_map_left_iff.mpr each)
      fun found => name ∈ found.attributes
    simp only [mem_namesOf, mem_names, parsed, List.mem_map, exists_exists_and_eq_and]
    rfl
  rw [NamesRun.stdout, r.run_eq, stdout, report_of_names r.only, same]

theorem lineFeed_not_mem_name (r : NamesRun) (free : r.selector = inputMark ∨ '\n' ∉ r.selector.trim) :
    ∀ name ∈ r.names, '\n' ∉ name := by
  intro name mem
  obtain ⟨t, there, found, parsed, inside⟩ := mem_names.mp mem
  exact Selector.lineFeed_not_mem_attribute parsed (lineFeed_not_mem_source there free) inside

theorem splitOn_stdout_iff (r : NamesRun) :
    r.stdout.splitOn '\n' = r.names.toList ++ [[]] ↔ ∀ name ∈ r.names, '\n' ∉ name := by
  rw [stdout_eq, NameSet.lines, splitOn_flatMap_iff]
  rfl

end NamesRun

structure ShowsNames (r : NamesRun) : Prop where
  ascending : Ascending r.names.toList
  mem_iff : ∀ name, name ∈ r.names ↔
    ∃ t ∈ r.sources, ∃ found, Selector.parse t.trim = .ok found ∧ name ∈ found.attributes
  accepted : ∀ t ∈ r.sources, Accepted t.trim
  lines_iff : r.stdout.splitOn '\n' = r.names.toList ++ [[]] ↔ ∀ name ∈ r.names, '\n' ∉ name
  free : r.selector = inputMark ∨ '\n' ∉ r.selector.trim → ∀ name ∈ r.names, '\n' ∉ name
  determined : (∀ name ∈ r.names, '\n' ∉ name) → ∀ r' : NamesRun,
    (∀ name ∈ r'.names, '\n' ∉ name) → r'.stdout = r.stdout → r'.names = r.names

theorem names_are_lines (r : NamesRun) : ShowsNames r where
  ascending := r.names.ascending
  mem_iff name := NamesRun.mem_names
  accepted := r.accepted
  lines_iff := r.splitOn_stdout_iff
  free := r.lineFeed_not_mem_name
  determined free r' free' same := by
    have lines := r.splitOn_stdout_iff.mpr free
    have lines' := r'.splitOn_stdout_iff.mpr free'
    rw [same, lines] at lines'
    have members : r'.names.toList = r.names.toList := (List.append_cancel_right lines').symm
    exact NameSet.eq_of_mem_iff fun name => by rw [NameSet.mem_def, members, NameSet.mem_def]

theorem names_are_lines_repeated :
    let arguments : List Text := ["-".toList, "--attr".toList]
    let stdin : Text := ".b[\\9 x]\r\n\n  #a.c[\\9 x]\n".toList
    ∃ r : NamesRun, r.arguments = arguments ∧ r.stdin = stdin ∧ ShowsNames r ∧
      (run arguments stdin).stdout.splitOn '\n' =
        [['\\', '9', ' ', 'x'], "class".toList, ['i', 'd'], []] := by
  intro arguments stdin
  let r : NamesRun := {
    arguments := arguments, stdin := stdin,
    settings := { selector := some ['-'], attributesOnly := true },
    parsed := by decide +kernel, only := rfl, success := by decide +kernel }
  have shows : ShowsNames r := names_are_lines r
  refine ⟨r, rfl, rfl, shows, ?_⟩
  have lines := shows.lines_iff.mpr (shows.free (Or.inl rfl))
  exact lines.trans (by decide +kernel)

/-- The line feed behind the digits belongs to the escape, and so to the one name of the first source; the
other source has a name for each of the two lines. -/
theorem names_are_not_lines :
    let one : Text := "[x\\1\ny]".toList
    let two : Text := "[x\\1][y]".toList
    let option : Text := "--attributes".toList
    (run [one, option] []).exitCode = 0 ∧ (run [two, option] []).exitCode = 0 ∧
      (run [one, option] []).stdout = (run [two, option] []).stdout ∧
      (run [one, option] []).stdout.splitOn '\n' = ["x\\1".toList, ['y'], []] ∧
      (∃ found, Selector.parse one = .ok found ∧ found.attributes.toList = ["x\\1\ny".toList]) ∧
      ∃ found, Selector.parse two = .ok found ∧ found.attributes.toList = ["x\\1".toList, ['y']] := by
  intro one two option
  refine ⟨by decide +kernel, by decide +kernel, by decide +kernel, by decide +kernel, ?_, ?_⟩
  · exact ⟨⟨one, [Token.ofClause false (.attr "x\\1\ny".toList none)]⟩, by decide +kernel,
      by decide +kernel⟩
  · exact ⟨⟨two, [Token.ofClause false (.attr "x\\1".toList none),
      Token.ofClause false (.attr ['y'] none)]⟩, by decide +kernel, by decide +kernel⟩

end CommandLine

end SelectorClauses
