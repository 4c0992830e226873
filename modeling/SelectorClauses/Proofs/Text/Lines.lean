import SelectorClauses.Text.Blank
import SelectorClauses.Text.Lines

/-!
Texts put together with separators, and the lines that a text comes apart into. Main statements:
`splitOn_flatMap_iff` says when texts with a separator behind each are read back, and
`filter_lines_join` that the non-blank lines of lines put together are the non-blank ones of them,
although a last line that is empty is none.
-/
namespace SelectorClauses

namespace Text

theorem join_cons (sep t : Text) (ts : List Text) :
    join sep (t :: ts) = t ++ ts.flatMap (sep ++ ·) := by
  induction ts generalizing t with
  | nil => simp [join]
  | cons u us ih =>
    rw [join, List.intercalate_cons_cons, ← join, ih u, List.flatMap_cons, List.append_assoc,
      List.append_assoc]

theorem join_concat (sep : Text) (ts : List Text) (u : Text) :
    join sep (ts ++ [u]) = ts.flatMap (· ++ sep) ++ u := by
  induction ts with
  | nil => simp [join]
  | cons t ts ih =>
    rw [List.cons_append, join, List.intercalate_cons_of_ne_nil (by simp), ← join, ih,
      List.flatMap_cons]
    simp only [List.append_assoc]

/- Pieces between separators. -/

theorem not_mem_of_mem_splitOn {sep : Char} {t piece : Text} (mem : piece ∈ t.splitOn sep) :
    sep ∉ piece := by
  induction t generalizing piece with
  | nil =>
    obtain rfl : piece = [] := by simpa [List.splitOn_eq_splitOnP] using mem
    simp
  | cons c t ih =>
    rw [List.splitOn_eq_splitOnP, List.splitOnP_cons_eq_if_modifyHead,
      ← List.splitOn_eq_splitOnP] at mem
    split at mem
    · rcases List.mem_cons.mp mem with rfl | mem
      · simp
      · exact ih mem
    · next other =>
      -- the character joins the first piece of the rest
      cases pieces : t.splitOn sep with
      | nil => simp [pieces] at mem
      | cons first others =>
        rw [pieces, List.modifyHead_cons] at mem
        rcases List.mem_cons.mp mem with rfl | mem
        · have apart : sep ∉ first := ih (by simp [pieces])
          have differs : c ≠ sep := by simpa using other
          rw [List.mem_cons, not_or]
          exact ⟨differs.symm, apart⟩
        · exact ih (by simp [pieces, mem])

theorem splitOn_flatMap_iff {sep : Char} {ts : List Text} :
    (ts.flatMap (· ++ [sep])).splitOn sep = ts ++ [[]] ↔ ∀ t ∈ ts, sep ∉ t := by
  constructor
  · intro pieces t mem
    apply not_mem_of_mem_splitOn
    rw [pieces]
    exact List.mem_append_left _ mem
  · intro apart
    have joined : ts.flatMap (· ++ [sep]) = [sep].intercalate (ts ++ [[]]) := by
      rw [← join, join_concat, List.append_nil]
    rw [joined]
    refine List.splitOn_intercalate sep (fun t mem => ?_) (by simp)
    rcases List.mem_append.mp mem with mem | mem
    · exact apart t mem
    · simp [List.mem_singleton.mp mem]

/- Lines. -/

def OneLine (t : Text) : Prop := ∀ c ∈ t, isLineEnd c = false

instance (t : Text) : Decidable (OneLine t) :=
  decidable_of_iff (t.all (fun c => !isLineEnd c) = true) (by simp [OneLine])

@[simp] theorem oneLine_append {s t : Text} : OneLine (s ++ t) ↔ OneLine s ∧ OneLine t := by
  simp [OneLine, or_imp, forall_and]

theorem OneLine.mono {s t : Text} (oneLine : OneLine t) (inside : s ⊆ t) : OneLine s :=
  fun c mem => oneLine c (inside mem)

theorem lines_cons {c : Char} (inner : isLineEnd c = false) (r : Text) :
    lines (c :: r) = match lines r with
      | [] => [[c]]
      | l :: ls => (c :: l) :: ls := by
  -- a carriage return ends a line, so this is not the line end of two characters
  have notReturn : ∀ s, c = '\r' → r = '\n' :: s → False := by
    rintro s rfl -
    simp [isLineEnd] at inner
  exact (lines.eq_3 c r notReturn).trans (if_neg (by simp [inner]))

theorem lines_append_lineFeed {l : Text} (oneLine : OneLine l) (r : Text) :
    lines (l ++ '\n' :: r) = l :: lines r := by
  induction l with
  | nil => simp [lines, isLineEnd]
  | cons c l ih =>
    have inner : isLineEnd c = false := oneLine c (by simp)
    rw [List.cons_append, lines_cons inner, ih fun d mem => oneLine d (by simp [mem])]

/-- The first line of a text that begins with characters of one line goes on as what is behind them. -/
theorem lines_append {k : Text} (oneLine : OneLine k) (nonempty : k ≠ []) (t : Text) :
    lines (k ++ t) = (k ++ (lines t).headD []) :: (lines t).tail := by
  induction k with
  | nil => exact absurd rfl nonempty
  | cons c k ih =>
    have inner : isLineEnd c = false := oneLine c (by simp)
    rw [List.cons_append, lines_cons inner]
    cases k with
    | nil => cases split : lines t <;> simp [split]
    | cons d k =>
      rw [ih (fun e mem => oneLine e (by simp [mem])) (by simp)]
      rfl

theorem lines_of_oneLine {l : Text} (oneLine : OneLine l) (nonempty : l ≠ []) : lines l = [l] := by
  simpa [lines] using lines_append oneLine nonempty []

theorem oneLine_of_mem_lines {t l : Text} (mem : l ∈ lines t) : OneLine l := by
  fun_induction lines t generalizing l with
  | case1 => simp at mem
  | case2 r ih | case3 c r notReturn ends ih =>
    rcases List.mem_cons.mp mem with rfl | mem
    · simp [OneLine]
    · exact ih mem
  | case4 c r notReturn inner nothing ih =>
    obtain rfl := List.mem_singleton.mp mem
    simpa [OneLine] using inner
  | case5 c r notReturn inner first others split ih =>
    rcases List.mem_cons.mp mem with rfl | mem
    · have oneLine : OneLine first := ih (by simp [split])
      exact List.forall_mem_cons.mpr ⟨by simpa using inner, oneLine⟩
    · exact ih (by simp [split, mem])

theorem mem_of_mem_lines {t l : Text} (mem : l ∈ lines t) {c : Char} (inside : c ∈ l) : c ∈ t := by
  fun_induction lines t generalizing l with
  | case1 => simp at mem
  | case2 r ih | case3 d r notReturn ends ih =>
    rcases List.mem_cons.mp mem with rfl | mem
    · simp at inside
    · simp [ih mem inside]
  | case4 d r notReturn inner nothing ih =>
    obtain rfl := List.mem_singleton.mp mem
    simpa using Or.inl (List.mem_singleton.mp inside)
  | case5 d r notReturn inner first others split ih =>
    rcases List.mem_cons.mp mem with rfl | mem
    · rcases List.mem_cons.mp inside with rfl | inside
      · simp
      · simp [ih (l := first) (by simp [split]) inside]
    · simp [ih (by simp [split, mem]) inside]

theorem filter_lines_join {ls : List Text} (oneLine : ∀ l ∈ ls, OneLine l) :
    (lines (join ['\n'] ls)).filter (fun l => !l.isAllBlank) =
      ls.filter fun l => !l.isAllBlank := by
  induction ls with
  | nil => rfl
  | cons l ls ih =>
    have first : OneLine l := oneLine l (by simp)
    cases ls with
    | nil =>
      cases l with
      | nil => rfl
      | cons c l => simp [join, lines_of_oneLine first]
    | cons m ms =>
      have split : join ['\n'] (l :: m :: ms) = l ++ '\n' :: join ['\n'] (m :: ms) := by
        simp [join, List.intercalate_cons_cons]
      rw [split, lines_append_lineFeed first, List.filter_cons, List.filter_cons,
        ih fun k mem => oneLine k (by simp [mem])]

end Text

end SelectorClauses
