import SelectorClauses.Proofs.CommandLine.Choices
import SelectorClauses.Proofs.CommandLine.TextReport
import SelectorClauses.Proofs.CommandLine.Batches

/-!
A selector as the argument and as the standard input. Main statement: `inputPaths_agree_iff` says that the
two ways come to the same if and only if no line ends inside the trimmed text. Many characters end a line
and may all the same stand in names and strings.
-/
namespace SelectorClauses

namespace Fault

@[simp] theorem message_moved (n : Nat) (f : Fault) : (f.moved n).message = f.message := by
  cases f <;> rfl

theorem oneLine_message {t : Text} {f : Fault} (fault : tokenize t = .error f)
    (oneLine : Text.OneLine t) : Text.OneLine f.message := by
  obtain ⟨ts, rest, g, reads, -, rfl, place⟩ := exists_reads_of_tokenize_eq_error fault
  rw [reads.text_eq, Text.oneLine_append] at oneLine
  rw [message_moved]
  rcases place with ⟨-, -, rfl⟩ | found
  · have shown : (unrecognizedSyntax rest 0).message =
        "Invalid or unsupported syntax near '".toList ++ rest ++ ['\''] := rfl
    rw [shown, Text.oneLine_append, Text.oneLine_append]
    exact ⟨⟨by decide, oneLine.2⟩, by decide⟩
  · obtain ⟨c, r, -, rfl, -, rfl⟩ := Token.next_eq_fault_iff.mp found
    obtain ⟨construct, -⟩ := Text.oneLine_append.mp oneLine.2
    have shown (p : Int) : (unterminatedNegation (negationOpen ++ c.print) p).message =
        "Expected close-parenthesis after '".toList ++ (negationOpen ++ c.print) ++ ['\''] := rfl
    rw [shown, Text.oneLine_append, Text.oneLine_append]
    exact ⟨⟨by decide, construct⟩, by decide⟩

end Fault

namespace CommandLine

open Text

/- The lines of a text. -/

theorem trimmedLines_of_allBlank {ls : List Text} (blank : ∀ l ∈ ls, AllBlank l) :
    trimmedLines ls = [] := by
  induction ls with
  | nil => rfl
  | cons l ls ih =>
    obtain ⟨first, others⟩ := List.forall_mem_cons.mp blank
    rw [trimmedLines_cons, if_pos (isAllBlank_iff.mpr first), ih others]

/-- A blank in front belongs to the first line, or it ends a blank one. -/
theorem trimmedLines_lines_cons {c : Char} (blank : isBlank c = true) (t : Text) :
    trimmedLines (lines (c :: t)) = trimmedLines (lines t) := by
  have allBlank : AllBlank [c] := by simpa [AllBlank] using blank
  cases ends : isLineEnd c with
  | true =>
    by_cases pair : c = '\r' ∧ ∃ r, t = '\n' :: r
    · -- the line feed is part of the line end
      obtain ⟨rfl, r, rfl⟩ := pair
      simp [lines, isLineEnd, trimmedLines_cons]
    · have split : lines (c :: t) = [] :: lines t := by
        rw [lines.eq_3 c t fun r same behind => pair ⟨same, r, behind⟩, if_pos ends]
      rw [split, trimmedLines_cons]
      rfl
  | false =>
    rw [lines_cons ends]
    cases lines t with
    | nil => exact trimmedLines_of_allBlank (by simpa using allBlank)
    | cons l ls =>
      have longer : isAllBlank (c :: l) = isAllBlank l := by simp [isAllBlank, blank]
      have trimmed : trim (c :: l) = trim l := by simpa using trim_pad allBlank allBlank_nil l
      rw [trimmedLines_cons, trimmedLines_cons, longer, trimmed]

theorem trimmedLines_lines_append {pre : Text} (blank : AllBlank pre) (t : Text) :
    trimmedLines (lines (pre ++ t)) = trimmedLines (lines t) := by
  induction pre with
  | nil => rfl
  | cons c pre ih =>
    obtain ⟨first, others⟩ := List.forall_mem_cons.mp blank
    rw [List.cons_append, trimmedLines_lines_cons first, ih others]

theorem trimmedLines_lines {t : Text} (nonBlank : t.isAllBlank = false) (oneLine : OneLine t.trim) :
    trimmedLines (lines t) = [t.trim] := by
  obtain ⟨pre, post, blank, blank', split, -⟩ := exists_trim t
  have nonempty : t.trim ≠ [] := trim_ne_nil nonBlank
  have behind : ∀ l ∈ lines post, AllBlank l :=
    fun l mem c inside => blank' c (mem_of_mem_lines mem inside)
  have first : AllBlank ((lines post).headD []) := by
    cases parts : lines post with
    | nil => exact allBlank_nil
    | cons l ls => exact behind l (by simp [parts])
  have line : trimmedLines (lines t) = trimmedLines
      ((t.trim ++ (lines post).headD []) :: (lines post).tail) := by
    conv => lhs; rw [split]
    rw [List.append_assoc, trimmedLines_lines_append blank, lines_append oneLine nonempty]
  have kept : (t.trim ++ (lines post).headD []).trim = t.trim := by
    simpa using trim_pad allBlank_nil first t.trim
  have notBlank : (t.trim ++ (lines post).headD []).isAllBlank = false := by
    rw [isAllBlank_append, isAllBlank_trim, nonBlank, Bool.false_and]
  rw [line, trimmedLines_cons, notBlank, kept,
    trimmedLines_of_allBlank fun l mem => behind l (List.mem_of_mem_tail mem)]
  rfl

/- What is looked up decides the run. -/

theorem runSelectors_congr (s : Settings) {selector stdin selector' stdin' : Text}
    (same : (sources selector stdin).map trim = (sources selector' stdin').map trim) :
    runSelectors s selector stdin = runSelectors s selector' stdin' := by
  have answers : Catalogue.getAll [] (.own 0) (sources selector stdin) =
      Catalogue.getAll [] (.own 0) (sources selector' stdin') := by
    rw [← Catalogue.getAll_map_trim, same, Catalogue.getAll_map_trim]
  rw [runSelectors, answers, runSelectors]

theorem run_withOptions {t : Text} (word : IsWord t) (nonempty : t ≠ []) (before behind : List Choice)
    (stdin : Text) :
    run (withOptions before t behind) stdin = runSelectors (chosen (before ++ behind)) t stdin :=
  run_eq_runSelectors (Settings.ofArguments_withOptions word before behind) rfl nonempty stdin

theorem sources_argument {t : Text} (argument : t ≠ inputMark) (stdin : Text) :
    sources t stdin = [t] := by rw [sources, if_neg argument]

theorem map_trim_sources_inputMark (stdin : Text) :
    (sources inputMark stdin).map trim = trimmedLines (lines stdin) := by
  rw [sources, if_pos rfl, trimmedLines]

theorem lineFeed_behind (t : Text) :
    (t ++ ['\n']).trim = t.trim ∧ (t ++ ['\n']).isAllBlank = t.isAllBlank := by
  have blank : AllBlank ['\n'] := isAllBlank_iff.mp rfl
  constructor
  · simpa using trim_pad allBlank_nil blank t
  · rw [isAllBlank_append, isAllBlank_iff.mpr blank, Bool.and_true]

/-- The two outcomes show the same, at whatever times. -/
structure SameOutput (o p : Outcome) : Prop where
  exitCode : o.exitCode = p.exitCode
  stdout : o.stdout = p.stdout
  errorOutput : ∀ stamp stamp', o.errorOutput stamp = p.errorOutput stamp'

/-- The text as the argument and as the input, with or without a line feed behind it, and with the same
options in the same places. The journal is not shown. -/
def PathsAgree (t : Text) : Prop :=
  ∀ before behind : List Choice, .verbose ∉ before ++ behind →
    ∀ ignored, ∀ stdin ∈ [t, t ++ ['\n']],
      SameOutput (run (withOptions before t behind) ignored)
        (run (withOptions before inputMark behind) stdin)

section

variable {t : Text} (nonBlank : t.isAllBlank = false) (noOption : t.head? ≠ some '-')

include nonBlank noOption

theorem run_argument (before behind : List Choice) (ignored : Text) :
    run (withOptions before t behind) ignored = runSelectors (chosen (before ++ behind)) t ignored := by
  have nonempty : t ≠ [] := by
    rintro rfl
    cases nonBlank
  exact run_withOptions (isWord_of_head noOption) nonempty before behind ignored

theorem sources_eq_singleton (ignored : Text) : sources t ignored = [t] := by
  refine sources_argument ?_ ignored
  rintro rfl
  exact noOption rfl

theorem pathsAgree_of_oneLine (oneLine : OneLine t.trim) : PathsAgree t := by
  intro before behind silent ignored stdin mem
  have quiet : (chosen (before ++ behind)).verbose = false := by
    rw [verbose_chosen, decide_eq_false silent]
  have lines : (sources inputMark stdin).map trim = [t.trim] := by
    obtain ⟨trimmed, blank⟩ := lineFeed_behind t
    rw [map_trim_sources_inputMark]
    rcases List.mem_pair.mp mem with rfl | rfl
    · exact trimmedLines_lines nonBlank oneLine
    · rw [trimmedLines_lines (blank.trans nonBlank) (trimmed ▸ oneLine), trimmed]
  have same : runSelectors (chosen (before ++ behind)) t ignored =
      runSelectors (chosen (before ++ behind)) inputMark stdin := by
    apply runSelectors_congr
    rw [sources_eq_singleton nonBlank noOption, lines, List.map_singleton]
  rw [run_argument nonBlank noOption, run_withOptions isWord_inputMark (by decide), same]
  refine ⟨rfl, rfl, fun stamp stamp' => ?_⟩
  rw [errorOutput_of_quiet quiet, errorOutput_of_quiet quiet]

end

/- Telling the two ways apart. -/

theorem map_trim_sources_of_stdout_eq {s : Settings} (format : s.format = .text)
    (inFull : s.attributesOnly = false) {selector stdin selector' stdin' : Text}
    (accepted : ∀ t ∈ sources selector stdin, Accepted t.trim)
    (accepted' : ∀ t ∈ sources selector' stdin', Accepted t.trim)
    (same : (runSelectors s selector stdin).stdout = (runSelectors s selector' stdin').stdout) :
    (sources selector stdin).map trim = (sources selector' stdin').map trim := by
  obtain ⟨ss, each, -, stdout⟩ := exists_report_of_accepted (s := s) accepted
  obtain ⟨ss', each', -, stdout'⟩ := exists_report_of_accepted (s := s) accepted'
  obtain ⟨genuine, trimmed⟩ := genuine_of_forall₂ each
  obtain ⟨genuine', trimmed'⟩ := genuine_of_forall₂ each'
  have reports : textReport ss = textReport ss' := by
    rw [stdout, stdout'] at same
    simpa [report, format, inFull] using same
  rw [trimmed, trimmed', textReport_inj genuine genuine' reports]

theorem oneLine_of_stderr_eq {s : Settings} {t stdin : Text} {f : Fault}
    (failed : (runSelectors s inputMark stdin).exitCode = 2)
    (same : (runSelectors s inputMark stdin).stderr =
      "Error in selector '".toList ++ t.trim ++ "': ".toList ++ f.message ++ ['\n']) :
    OneLine t.trim := by
  rcases Catalogue.all_accepted_or_first (sources inputMark stdin) with
    accepted | ⟨before, l, behind, g, split, accepted, fault'⟩
  · obtain ⟨-, -, success, -⟩ := exists_report_of_accepted (s := s) accepted
    rw [success] at failed
    cases failed
  · have oneLine : OneLine l.trim := oneLine_trim_of_mem_sources (by rw [split]; simp)
    have message : OneLine ("Error in selector '".toList ++ l.trim ++ "': ".toList ++ g.message) := by
      simp only [oneLine_append]
      exact ⟨⟨⟨by decide, oneLine⟩, by decide⟩, Fault.oneLine_message fault' oneLine⟩
    rw [(runSelectors_of_first split accepted fault').2.2] at same
    rw [List.append_cancel_right same] at message
    simp only [oneLine_append] at message
    exact message.1.1.2

theorem oneLine_of_pathsAgree {t : Text} (nonBlank : t.isAllBlank = false)
    (noOption : t.head? ≠ some '-') (agree : PathsAgree t) : OneLine t.trim := by
  -- the text report without any options is enough
  have same : SameOutput (runSelectors {} t []) (runSelectors {} inputMark t) := by
    have plain := agree [] [] (by simp) [] t (by simp)
    rwa [run_argument nonBlank noOption, run_withOptions isWord_inputMark (by decide)] at plain
  have argument := sources_eq_singleton nonBlank noOption []
  cases read : tokenize t.trim with
  | ok ts =>
    have accepted : ∀ u ∈ sources t [], Accepted u.trim := by
      rw [argument, List.forall_mem_singleton]
      exact ⟨ts, read⟩
    obtain ⟨-, -, success, -⟩ := exists_report_of_accepted (s := {}) accepted
    have accepted' := accepted_of_exitCode (same.exitCode ▸ success)
    have trimmed := map_trim_sources_of_stdout_eq rfl rfl accepted accepted' same.stdout
    have mem : t.trim ∈ (sources inputMark t).map trim := by
      rw [← trimmed, argument]
      simp
    obtain ⟨l, there, equal⟩ := List.mem_map.mp mem
    exact equal ▸ oneLine_trim_of_mem_sources there
  | error f =>
    have first : sources t [] = [] ++ t :: [] := argument
    obtain ⟨failed, -, stderr⟩ := runSelectors_of_first (s := {}) first (by simp) read
    have shown := same.errorOutput (fun _ => []) fun _ => []
    rw [errorOutput_of_quiet rfl, errorOutput_of_quiet rfl] at shown
    exact oneLine_of_stderr_eq (same.exitCode ▸ failed) (shown.symm.trans stderr)

/-- Line ends at the two ends of the text are blanks that are trimmed away; one between two characters
that are not blank makes two sources of the input. -/
theorem inputPaths_agree_iff {t : Text} (nonBlank : t.isAllBlank = false)
    (noOption : t.head? ≠ some '-') : PathsAgree t ↔ OneLine t.trim :=
  ⟨oneLine_of_pathsAgree nonBlank noOption, pathsAgree_of_oneLine nonBlank noOption⟩

theorem inputPaths_agree_padded :
    let t : Text := "\u2029 .é\\ab #c\r".toList
    t.isAllBlank = false ∧ t.head? ≠ some '-' ∧ OneLine t.trim ∧ PathsAgree t := by
  intro t
  have nonBlank : t.isAllBlank = false := by decide +kernel
  have noOption : t.head? ≠ some '-' := by decide +kernel
  have oneLine : OneLine t.trim := by decide +kernel
  exact ⟨nonBlank, noOption, oneLine, (inputPaths_agree_iff nonBlank noOption).mpr oneLine⟩

/-- A control character that may stand in a name, but ends a line. -/
theorem inputPaths_differ :
    let t : Text := "a\x85b".toList
    t.isAllBlank = false ∧ t.head? ≠ some '-' ∧ '\n' ∉ t ∧ '\r' ∉ t ∧
      run [t] [] = ⟨0, "TAG\ta\x85b\t-\t-\nattributes: \n".toList, [], []⟩ ∧
      run [inputMark] t = ⟨0, "TAG\ta\t-\t-\nattributes: \n\nTAG\tb\t-\t-\nattributes: \n".toList,
        [], []⟩ ∧
      ¬ PathsAgree t := by
  intro t
  have nonBlank : t.isAllBlank = false := by decide +kernel
  have noOption : t.head? ≠ some '-' := by decide +kernel
  have argument : run [t] [] = ⟨0, "TAG\ta\x85b\t-\t-\nattributes: \n".toList, [], []⟩ := by
    decide +kernel
  have input : run [inputMark] t =
      ⟨0, "TAG\ta\t-\t-\nattributes: \n\nTAG\tb\t-\t-\nattributes: \n".toList, [], []⟩ := by
    decide +kernel
  refine ⟨nonBlank, noOption, by decide +kernel, by decide +kernel, argument, input, ?_⟩
  intro agree
  have same : (run [t] []).stdout = (run [inputMark] t).stdout :=
    (agree [] [] (by simp) [] t (by simp)).stdout
  rw [argument, input] at same
  exact absurd same (by decide +kernel)

end CommandLine

end SelectorClauses
