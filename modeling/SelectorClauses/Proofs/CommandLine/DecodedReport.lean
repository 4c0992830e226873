import SelectorClauses.Proofs.CommandLine.AllOrNothing
import SelectorClauses.Proofs.Json.Ascii

/-!
What a reader of the JSON report gets. Main statement: `json_run_decodes` says that a run over accepted
sources writes ASCII, and that a JSON reader makes one object for each source of it, in order, with every
part of the selector under its name.
-/
namespace SelectorClauses

namespace CommandLine

open Json

theorem ascii_jsonReport (ss : List Selector) : Ascii (jsonReport ss) := by
  have numberless : Numberless (.list (ss.map selectorRecord)) :=
    .list (List.forall_mem_map.mpr fun s _ => numberless_selectorRecord s)
  rw [jsonReport, ascii_append]
  exact ⟨numberless.ascii_print 0, by simp⟩

theorem json_run_decodes {arguments : List Text} {s : Settings} {selector : Text}
    (parsed : Settings.ofArguments arguments = .ok s) (given : s.selector = some selector)
    (nonempty : selector ≠ []) (json : s.format = .json) (inFull : s.attributesOnly = false)
    {stdin : Text} (accepted : ∀ t ∈ sources selector stdin, Accepted t.trim) :
    (run arguments stdin).exitCode = 0 ∧ Ascii (run arguments stdin).stdout ∧
      ∃ vs, read? (run arguments stdin).stdout = some (.list vs) ∧
        List.Forall₂ (fun t v => ∃ found, Selector.parse t.trim = .ok found ∧ ShowsSelector found v)
          (sources selector stdin) vs := by
  rw [run_eq_runSelectors parsed given nonempty]
  obtain ⟨ss, each, exitCode, stdout⟩ := exists_report_of_accepted (s := s) accepted
  rw [stdout, report_of_json inFull json]
  refine ⟨exitCode, ascii_jsonReport ss, ss.map selectorRecord, read?_jsonReport ss, ?_⟩
  rw [List.forall₂_map_right_iff]
  exact each.imp fun t found read => ⟨found, read, showsSelector_selectorRecord read⟩

theorem json_run_decodes_astral :
    let operand : Text := "\"\\\n'\\\\\"".toList
    let source : Text := "[b=".toList ++ operand ++ "]:not(.é😀)".toList
    let arguments : List Text := [source, "--format=json".toList]
    let s : Settings := { selector := some source, format := .json }
    Settings.ofArguments arguments = .ok s ∧ (∀ t ∈ sources source [], Accepted t.trim) ∧
      ((run arguments []).exitCode = 0 ∧ Ascii (run arguments []).stdout ∧
        ∃ vs, read? (run arguments []).stdout = some (.list vs) ∧
          List.Forall₂
            (fun t v => ∃ found, Selector.parse t.trim = .ok found ∧ ShowsSelector found v)
            (sources source []) vs) ∧
      read? (run arguments []).stdout = some (.list [.record
        [("source".toList, .text source),
         ("tokens".toList, .list
          [.record
            [("kind".toList, .text "ATTR".toList),
             ("value".toList, .text ("[b=".toList ++ operand ++ [']'])),
             ("negated".toList, .bool false), ("attribute".toList, .text ['b']),
             ("operator".toList, .text ['=']), ("operand".toList, .text operand)],
           .record
            [("kind".toList, .text "CLASS".toList), ("value".toList, .text ":not(.é😀)".toList),
             ("negated".toList, .bool true), ("attribute".toList, .text "class".toList),
             ("operator".toList, .null), ("operand".toList, .null)]]),
         ("attributes".toList, .list [.text ['b'], .text "class".toList])]]) := by
  intro operand source arguments s
  have parsed : Settings.ofArguments arguments = .ok s := by decide +kernel
  have accepted : ∀ t ∈ sources source [], Accepted t.trim := by
    intro t mem
    have only : sources source [] = [source] := by decide +kernel
    rw [only, List.mem_singleton] at mem
    subst mem
    exact ⟨[Token.ofClause false (.attr ['b'] (some ⟨.equal, operand⟩)),
      Token.ofClause true (.cls "é😀".toList)], by decide +kernel⟩
  have stdout : (run arguments []).stdout = jsonReport [⟨source,
      [.ofClause false (.attr ['b'] (some ⟨.equal, operand⟩)),
        .ofClause true (.cls "é😀".toList)]⟩] := by
    decide +kernel
  refine ⟨parsed, accepted, json_run_decodes parsed rfl (by decide) rfl rfl accepted, ?_⟩
  rw [stdout, read?_jsonReport]
  rfl

end CommandLine

end SelectorClauses
