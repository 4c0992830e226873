import SelectorClauses.CommandLine.Report
import SelectorClauses.Proofs.Json.RoundTrip

/-!
Reading the JSON report back. Main statement: `read?_jsonReport`, that the report is read as the list of
the records of its selectors.
-/
namespace SelectorClauses

namespace CommandLine

open Json

theorem numberless_optionalText (t : Option Text) : Numberless (optionalText t) := by
  cases t with
  | none => exact .null
  | some t => exact .text t

theorem numberless_tokenRecord (t : Token) : Numberless (tokenRecord t) := by
  refine .record fun f mem => ?_
  simp only [List.mem_cons, List.not_mem_nil, or_false] at mem
  rcases mem with rfl | rfl | rfl | rfl | rfl | rfl
  · exact .text _
  · exact .text _
  · exact .bool _
  all_goals exact numberless_optionalText _

theorem numberless_selectorRecord (s : Selector) : Numberless (selectorRecord s) := by
  refine .record fun f mem => ?_
  simp only [List.mem_cons, List.not_mem_nil, or_false] at mem
  rcases mem with rfl | rfl | rfl
  · exact .text _
  · exact .list (List.forall_mem_map.mpr fun t _ => numberless_tokenRecord t)
  · exact .list (List.forall_mem_map.mpr fun name _ => .text name)

theorem read?_jsonReport (ss : List Selector) :
    read? (jsonReport ss) = some (.list (ss.map selectorRecord)) := by
  have numberless : Numberless (.list (ss.map selectorRecord)) :=
    .list (List.forall_mem_map.mpr fun s _ => numberless_selectorRecord s)
  exact read?_print numberless (by simp [AllSpace, isSpace])

end CommandLine

end SelectorClauses
