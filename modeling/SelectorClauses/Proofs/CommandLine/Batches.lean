import Mathlib.Data.List.Sort
import SelectorClauses.Proofs.CommandLine.AllOrNothing

/-!
Several selectors in one run. Main statement: `run_is_compositional` compares the run over some lines
with the runs over each of them alone. The texts and the JSON values come one after another; of the
attributes only the union of the sets is left, so order, repetition, blank lines and padding are forgotten.
-/
namespace SelectorClauses

namespace NameSet

instance : Std.Irrefl fun s t : Text => Text.before s t = true :=
  ⟨fun t => by simp [Text.before_irrefl]⟩

instance : Std.Antisymm fun s t : Text => Text.before s t = true := by
  refine ⟨fun s t first second => ?_⟩
  have both := Text.before_trans first second
  rw [Text.before_irrefl] at both
  cases both

theorem eq_of_mem_iff {s t : NameSet} (same : ∀ name, name ∈ s ↔ name ∈ t) : s = t := by
  obtain ⟨names, ascending⟩ := s
  obtain ⟨names', ascending'⟩ := t
  obtain rfl : names = names' := List.Pairwise.eq_of_mem_iff ascending ascending' same
  rfl

def lines (s : NameSet) : Text := s.toList.flatMap (· ++ ['\n'])

end NameSet

namespace CommandLine

open Text

def inputOf (ls : List Text) : Text := join ['\n'] ls

/-- What is looked up for some lines: nothing for blank ones. -/
def trimmedLines (ls : List Text) : List Text := (ls.filter fun l => !l.isAllBlank).map trim

theorem sources_inputOf {ls : List Text} (oneLine : ∀ l ∈ ls, OneLine l) :
    sources inputMark (inputOf ls) = ls.filter fun l => !l.isAllBlank := by
  rw [sources, if_pos rfl, inputOf, filter_lines_join oneLine]

theorem oneLine_trim_of_mem_sources {stdin l : Text} (mem : l ∈ sources inputMark stdin) :
    OneLine l.trim := by
  rw [sources, if_pos rfl] at mem
  exact (oneLine_of_mem_lines (List.mem_filter.mp mem).1).mono (trim_subset l)

/- The names. -/

theorem report_of_names {s : Settings} (only : s.attributesOnly = true) (ss : List Selector) :
    report s ss = (namesOf ss).lines := by
  rw [report, if_pos only, namesReport, NameSet.lines]

theorem namesOf_singleton (found : Selector) : namesOf [found] = found.attributes :=
  NameSet.eq_of_mem_iff fun name => by simp [mem_namesOf]

/- Running over lines. -/

theorem exists_report_of_lines {arguments : List Text} {s : Settings}
    (parsed : Settings.ofArguments arguments = .ok s) (given : s.selector = some inputMark)
    {ls : List Text} (oneLine : ∀ l ∈ ls, OneLine l) (accepted : ∀ k ∈ trimmedLines ls, Accepted k) :
    ∃ ss, List.Forall₂ (fun k found => Selector.parse k = .ok found) (trimmedLines ls) ss ∧
      (run arguments (inputOf ls)).exitCode = 0 ∧
      (run arguments (inputOf ls)).stdout = report s ss := by
  rw [run_eq_runSelectors parsed given (by decide)]
  have accepted : ∀ t ∈ sources inputMark (inputOf ls), Accepted t.trim := by
    intro t mem
    rw [sources_inputOf oneLine] at mem
    exact accepted _ (List.mem_map_of_mem mem)
  obtain ⟨ss, each, exitCode, stdout⟩ := exists_report_of_accepted (s := s) accepted
  rw [sources_inputOf oneLine] at each
  exact ⟨ss, List.forall₂_map_left_iff.mpr each, exitCode, stdout⟩

theorem trimmedLines_cons (l : Text) (ls : List Text) :
    trimmedLines (l :: ls) =
      if l.isAllBlank then trimmedLines ls else l.trim :: trimmedLines ls := by
  cases blank : l.isAllBlank <;> simp [trimmedLines, blank]

theorem trimmedLines_of_nonBlank {ls : List Text} (nonBlank : ∀ l ∈ ls, l.isAllBlank = false) :
    trimmedLines ls = ls.map trim := by
  rw [trimmedLines, List.filter_eq_self.mpr fun l mem => by simp [nonBlank l mem]]

theorem report_of_line {arguments : List Text} {s : Settings}
    (parsed : Settings.ofArguments arguments = .ok s) (given : s.selector = some inputMark)
    {l : Text} (oneLine : OneLine l) (nonBlank : l.isAllBlank = false) {found : Selector}
    (read : Selector.parse l.trim = .ok found) :
    (run arguments l).exitCode = 0 ∧ (run arguments l).stdout = report s [found] := by
  have only : trimmedLines [l] = [l.trim] := trimmedLines_of_nonBlank (by simpa using nonBlank)
  have accepted : ∀ k ∈ trimmedLines [l], Accepted k := by
    rw [only, List.forall_mem_singleton]
    exact ⟨found.tokens, (Selector.parse_eq_ok_iff.mp read).2⟩
  obtain ⟨ss, each, exitCode, stdout⟩ :=
    exists_report_of_lines parsed given (List.forall_mem_singleton.mpr oneLine) accepted
  have alone : inputOf [l] = l := by simp [inputOf, join]
  rw [alone] at exitCode stdout
  rw [only] at each
  obtain ⟨found', ss, read', nothing, rfl⟩ := List.forall₂_cons_left_iff.mp each
  obtain rfl := List.forall₂_nil_left_iff.mp nothing
  obtain rfl : found' = found := Except.ok.inj (read'.symm.trans read)
  exact ⟨exitCode, stdout⟩

theorem exists_reports {arguments : List Text} {s : Settings}
    (parsed : Settings.ofArguments arguments = .ok s) (given : s.selector = some inputMark)
    {ls : List Text} (oneLine : ∀ l ∈ ls, OneLine l) (nonBlank : ∀ l ∈ ls, l.isAllBlank = false)
    (accepted : ∀ k ∈ trimmedLines ls, Accepted k) :
    ∃ ss, List.Forall₂ (fun l found => Selector.parse l.trim = .ok found ∧
        (run arguments l).exitCode = 0 ∧ (run arguments l).stdout = report s [found]) ls ss ∧
      (run arguments (inputOf ls)).exitCode = 0 ∧
      (run arguments (inputOf ls)).stdout = report s ss := by
  obtain ⟨ss, each, exitCode, stdout⟩ := exists_report_of_lines parsed given oneLine accepted
  rw [trimmedLines_of_nonBlank nonBlank, List.forall₂_map_left_iff] at each
  have lines : ∀ l ∈ ls, OneLine l ∧ l.isAllBlank = false :=
    fun l mem => ⟨oneLine l mem, nonBlank l mem⟩
  refine ⟨ss, ?_, exitCode, stdout⟩
  refine ((List.forall₂_and_left _ _).mpr ⟨lines, each⟩).imp fun l found h => ?_
  obtain ⟨⟨oneLine, nonBlank⟩, read⟩ := h
  exact ⟨read, report_of_line parsed given oneLine nonBlank read⟩

/- What is forgotten when only the attributes are reported. -/

/-- The lines in another order, repeated, with blank ones between them or with blanks around them. -/
inductive Rearranged : List Text → List Text → Prop
  | perm {ls ms : List Text} (perm : ls.Perm ms) : Rearranged ls ms
  | duplicate (l : Text) (ls : List Text) : Rearranged (l :: ls) (l :: l :: ls)
  | blank (l : Text) (ls : List Text) (oneLine : OneLine l) (allBlank : l.isAllBlank = true) :
      Rearranged ls (l :: ls)
  | pad (pre post l : Text) (ls : List Text) (before : ∀ c ∈ pre, c = ' ' ∨ c = '\t')
      (behind : ∀ c ∈ post, c = ' ' ∨ c = '\t') : Rearranged (l :: ls) ((pre ++ l ++ post) :: ls)
  | trans {ls ms ns : List Text} (first : Rearranged ls ms) (second : Rearranged ms ns) :
      Rearranged ls ns

theorem padding {pad : Text} (h : ∀ c ∈ pad, c = ' ' ∨ c = '\t') : AllBlank pad ∧ OneLine pad := by
  constructor
  · intro c mem
    rcases h c mem with rfl | rfl <;> rfl
  · intro c mem
    rcases h c mem with rfl | rfl <;> rfl

/-- No step makes another line of one, or changes what is looked up apart from order and repetition. -/
theorem Rearranged.keeps {ls ms : List Text} (h : Rearranged ls ms)
    (oneLine : ∀ l ∈ ls, OneLine l) :
    (∀ m ∈ ms, OneLine m) ∧ ∀ k, k ∈ trimmedLines ms ↔ k ∈ trimmedLines ls := by
  induction h with
  | perm perm =>
    exact ⟨fun m mem => oneLine m (perm.mem_iff.mpr mem),
      fun k => ((perm.symm.filter _).map _).mem_iff⟩
  | duplicate l ls =>
    refine ⟨by simpa using oneLine, fun k => ?_⟩
    rw [trimmedLines_cons, trimmedLines_cons]
    split <;> simp
  | blank l ls oneLine' allBlank =>
    refine ⟨by simpa using ⟨oneLine', oneLine⟩, fun k => ?_⟩
    rw [trimmedLines_cons, if_pos allBlank]
  | pad pre post l ls before behind =>
    obtain ⟨blankBefore, oneBefore⟩ := padding before
    obtain ⟨blankBehind, oneBehind⟩ := padding behind
    obtain ⟨first, others⟩ := List.forall_mem_cons.mp oneLine
    constructor
    · refine List.forall_mem_cons.mpr ⟨fun c mem => ?_, others⟩
      simp only [List.mem_append] at mem
      rcases mem with (mem | mem) | mem
      · exact oneBefore c mem
      · exact first c mem
      · exact oneBehind c mem
    · intro k
      have blank : (pre ++ l ++ post).isAllBlank = l.isAllBlank := by
        simp [isAllBlank, List.all_eq_true.mpr blankBefore, List.all_eq_true.mpr blankBehind]
      rw [trimmedLines_cons, trimmedLines_cons, blank, trim_pad blankBefore blankBehind]
  | trans first second ih ih' =>
    obtain ⟨middle, same⟩ := ih oneLine
    obtain ⟨last, same'⟩ := ih' middle
    exact ⟨last, fun k => (same' k).trans (same k)⟩

theorem exists_mem_iff_of_forall₂ {ks : List Text} {ss : List Selector}
    (each : List.Forall₂ (fun k found => Selector.parse k = .ok found) ks ss) (p : Selector → Prop) :
    (∃ found ∈ ss, p found) ↔ ∃ k ∈ ks, ∃ found, Selector.parse k = .ok found ∧ p found := by
  induction each with
  | nil => simp
  | cons read _ ih => simp [ih, read]

theorem exists_names_of_lines {arguments : List Text} {s : Settings}
    (parsed : Settings.ofArguments arguments = .ok s) (given : s.selector = some inputMark)
    (only : s.attributesOnly = true) {ls : List Text} (oneLine : ∀ l ∈ ls, OneLine l)
    (accepted : ∀ k ∈ trimmedLines ls, Accepted k) :
    ∃ names : NameSet, (run arguments (inputOf ls)).exitCode = 0 ∧
      (run arguments (inputOf ls)).stdout = names.lines ∧
      ∀ name, name ∈ names ↔
        ∃ k ∈ trimmedLines ls, ∃ found, Selector.parse k = .ok found ∧ name ∈ found.attributes := by
  obtain ⟨ss, each, exitCode, stdout⟩ := exists_report_of_lines parsed given oneLine accepted
  refine ⟨namesOf ss, exitCode, stdout.trans (report_of_names only ss), fun name => ?_⟩
  rw [mem_namesOf]
  exact exists_mem_iff_of_forall₂ each fun found => name ∈ found.attributes

theorem rearranged_names {arguments : List Text} {s : Settings}
    (parsed : Settings.ofArguments arguments = .ok s) (given : s.selector = some inputMark)
    (only : s.attributesOnly = true) {ls ms : List Text} (oneLine : ∀ l ∈ ls, OneLine l)
    (accepted : ∀ k ∈ trimmedLines ls, Accepted k) (rearranged : Rearranged ls ms) :
    (run arguments (inputOf ms)).exitCode = 0 ∧
      (run arguments (inputOf ms)).stdout = (run arguments (inputOf ls)).stdout := by
  obtain ⟨oneLine', same⟩ := rearranged.keeps oneLine
  have accepted' : ∀ k ∈ trimmedLines ms, Accepted k := fun k mem => accepted k ((same k).mp mem)
  obtain ⟨names, -, stdout, members⟩ := exists_names_of_lines parsed given only oneLine accepted
  obtain ⟨names', exitCode', stdout', members'⟩ :=
    exists_names_of_lines parsed given only oneLine' accepted'
  have equal : names' = names := by
    refine NameSet.eq_of_mem_iff fun name => ?_
    rw [members, members']
    simp only [same]
  exact ⟨exitCode', by rw [stdout', stdout, equal]⟩

structure Compositional (s : Settings) (program : Text → Outcome) (ls : List Text) : Prop where
  succeeds : (program (inputOf ls)).exitCode = 0 ∧ ∀ l ∈ ls, (program l).exitCode = 0
  text : s.attributesOnly = false → s.format = .text →
    ∃ texts, List.Forall₂ (fun l t => (program l).stdout = t ++ ['\n']) ls texts ∧
      (program (inputOf ls)).stdout = join ['\n', '\n'] texts ++ ['\n']
  json : s.attributesOnly = false → s.format = .json →
    ∃ lists, List.Forall₂ (fun l vs => Json.read? (program l).stdout = some (.list vs)) ls lists ∧
      Json.read? (program (inputOf ls)).stdout = some (.list lists.flatten)
  rearranged : s.attributesOnly = true → ∀ ms, Rearranged ls ms →
    (program (inputOf ms)).exitCode = 0 ∧
      (program (inputOf ms)).stdout = (program (inputOf ls)).stdout
  union : s.attributesOnly = true →
    ∃ sets : List NameSet, ∃ union : NameSet,
      List.Forall₂ (fun l names => (program l).stdout = names.lines ∧
        ∃ found, Selector.parse l.trim = .ok found ∧ found.attributes = names) ls sets ∧
      (∀ name, name ∈ union ↔ ∃ names ∈ sets, name ∈ names) ∧
      (program (inputOf ls)).stdout = union.lines

theorem run_is_compositional {arguments : List Text} {s : Settings}
    (parsed : Settings.ofArguments arguments = .ok s) (given : s.selector = some inputMark)
    {ls : List Text} (oneLine : ∀ l ∈ ls, OneLine l) (nonBlank : ∀ l ∈ ls, l.isAllBlank = false)
    (accepted : ∀ l ∈ ls, Accepted l.trim) : Compositional s (run arguments) ls := by
  have accepted' : ∀ k ∈ trimmedLines ls, Accepted k := by
    rw [trimmedLines_of_nonBlank nonBlank]
    exact List.forall_mem_map.mpr accepted
  obtain ⟨ss, each, exitCode, stdout⟩ := exists_reports parsed given oneLine nonBlank accepted'
  constructor
  · refine ⟨exitCode, ?_⟩
    have succeeds := each.imp fun l found h => And.intro h.2.1 trivial
    exact ((List.forall₂_and_left _ _).mp succeeds).1
  · intro inFull format
    refine ⟨ss.map selectorText, ?_, stdout.trans (report_of_text inFull format ss)⟩
    refine List.forall₂_map_right_iff.mpr (each.imp fun l found h => ?_)
    rw [h.2.2, report_of_text inFull format]
    simp [join]
  · intro inFull format
    refine ⟨ss.map fun found => [selectorRecord found], ?_, ?_⟩
    · refine List.forall₂_map_right_iff.mpr (each.imp fun l found h => ?_)
      rw [h.2.2, report_of_json inFull format, read?_jsonReport]
      rfl
    · rw [stdout, report_of_json inFull format, read?_jsonReport, ← List.flatMap_def,
        ← List.map_eq_flatMap]
  · intro only ms rearranged
    exact rearranged_names parsed given only oneLine accepted' rearranged
  · intro only
    refine ⟨ss.map Selector.attributes, namesOf ss, ?_, fun name => ?_,
      stdout.trans (report_of_names only ss)⟩
    · refine List.forall₂_map_right_iff.mpr (each.imp fun l found h => ⟨?_, found, h.1, rfl⟩)
      rw [h.2.2, report_of_names only, namesOf_singleton]
    · simp [mem_namesOf]

theorem run_is_compositional_attributes :
    let arguments : List Text := ["--attributes".toList, "-".toList]
    let ls : List Text := ["a[href]".toList, ".c#d".toList]
    let ms : List Text := ["a[href]".toList, ['\t'], "  .c#d ".toList, "a[href]".toList]
    Settings.ofArguments arguments = .ok ⟨some inputMark, .text, true, false⟩ ∧
      Compositional ⟨some inputMark, .text, true, false⟩ (run arguments) ls ∧
      (run arguments (inputOf ls)).stdout = "class\nhref\nid\n".toList ∧
      (run arguments (inputOf ms)).stdout = "class\nhref\nid\n".toList := by
  intro arguments ls ms
  have parsed : Settings.ofArguments arguments = .ok ⟨some inputMark, .text, true, false⟩ := by
    decide +kernel
  have whole : Compositional ⟨some inputMark, .text, true, false⟩ (run arguments) ls := by
    refine run_is_compositional parsed rfl (by decide +kernel) (by decide +kernel) fun l mem => ?_
    rcases List.mem_pair.mp mem with rfl | rfl
    · exact ⟨[Token.ofClause false (.tag ['a']), Token.ofClause false (.attr "href".toList none)],
        by decide +kernel⟩
    · exact ⟨[Token.ofClause false (.cls ['c']), Token.ofClause false (.id ['d'])],
        by decide +kernel⟩
  have twice : Rearranged ls [".c#d".toList, "a[href]".toList, "a[href]".toList] :=
    (Rearranged.duplicate _ _).trans (.perm (by decide +kernel))
  have padded : Rearranged [".c#d".toList, "a[href]".toList, "a[href]".toList]
      ["  .c#d ".toList, "a[href]".toList, "a[href]".toList] :=
    .pad [' ', ' '] [' '] ".c#d".toList _ (by simp) (by simp)
  have spread : Rearranged ["  .c#d ".toList, "a[href]".toList, "a[href]".toList] ms :=
    (Rearranged.blank ['\t'] _ (by decide) (by decide)).trans (.perm (by decide +kernel))
  have rearranged : Rearranged ls ms := (twice.trans padded).trans spread
  have names : (run arguments (inputOf ls)).stdout = "class\nhref\nid\n".toList := by
    decide +kernel
  exact ⟨parsed, whole, names, (whole.rearranged rfl ms rearranged).2.trans names⟩

end CommandLine

end SelectorClauses
