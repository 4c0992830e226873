import Mathlib.Data.List.TakeWhile
import SelectorClauses.Text.Blank

/-!
Trimming. Main statement: `trim_eq_iff` says that trimming finds the one way to write a text as
blanks, a text with no blank at its ends, and blanks. So trimming twice is trimming once, and
padding a text makes no difference to what is left of it.
-/
namespace SelectorClauses

namespace Text

def AllBlank (t : Text) : Prop := ∀ c ∈ t, isBlank c = true

structure Trimmed (t : Text) : Prop where
  head : ∀ c ∈ t.head?, isBlank c = false
  last : ∀ c ∈ t.getLast?, isBlank c = false

theorem isAllBlank_iff {t : Text} : t.isAllBlank = true ↔ AllBlank t := List.all_eq_true

@[simp] theorem isAllBlank_append (s t : Text) :
    isAllBlank (s ++ t) = (s.isAllBlank && t.isAllBlank) := List.all_append

theorem allBlank_nil : AllBlank [] := by simp [AllBlank]

theorem AllBlank.append {s t : Text} (first : AllBlank s) (second : AllBlank t) :
    AllBlank (s ++ t) := by
  intro c mem
  rcases List.mem_append.mp mem with mem | mem
  · exact first c mem
  · exact second c mem

theorem trimStart_append {pre : Text} (blank : AllBlank pre) (t : Text) :
    (pre ++ t).trimStart = t.trimStart := List.dropWhile_append_of_pos blank

theorem trimEnd_append {post : Text} (blank : AllBlank post) (t : Text) :
    (t ++ post).trimEnd = t.trimEnd := by
  have blank' : ∀ c ∈ post.reverse, isBlank c = true := fun c mem => blank c (by simpa using mem)
  rw [trimEnd, List.reverse_append, List.dropWhile_append_of_pos blank']
  rfl

theorem trimStart_of_head {t : Text} (head : ∀ c ∈ t.head?, isBlank c = false) :
    t.trimStart = t := by
  cases t with
  | nil => rfl
  | cons c r =>
    have notBlank : isBlank c = false := head c rfl
    simp [trimStart, notBlank]

theorem trimEnd_of_last {t : Text} (last : ∀ c ∈ t.getLast?, isBlank c = false) :
    t.trimEnd = t := by
  have reversed : trimStart t.reverse = t.reverse := by
    apply trimStart_of_head
    simpa using last
  exact (congrArg List.reverse reversed).trans t.reverse_reverse

theorem exists_trimStart (t : Text) :
    ∃ pre, AllBlank pre ∧ t = pre ++ t.trimStart ∧
      ∀ c ∈ t.trimStart.head?, isBlank c = false := by
  refine ⟨t.takeWhile isBlank, fun c mem => List.mem_takeWhile_imp mem,
    List.takeWhile_append_dropWhile.symm, ?_⟩
  intro c head
  have := List.head?_dropWhile_not isBlank t
  rw [show t.dropWhile isBlank = t.trimStart from rfl, Option.mem_def.mp head] at this
  simpa using this

theorem exists_trimEnd (t : Text) :
    ∃ post, AllBlank post ∧ t = t.trimEnd ++ post ∧
      ∀ c ∈ t.trimEnd.getLast?, isBlank c = false := by
  obtain ⟨pre, blank, split, head⟩ := exists_trimStart t.reverse
  refine ⟨pre.reverse, fun c mem => blank c (by simpa using mem), ?_, ?_⟩
  · have := congrArg List.reverse split
    rwa [List.reverse_reverse, List.reverse_append] at this
  · intro c last
    rw [trimEnd, List.getLast?_reverse] at last
    exact head c last

theorem head?_trimEnd {t : Text} (head : ∀ c ∈ t.head?, isBlank c = false) :
    ∀ c ∈ t.trimEnd.head?, isBlank c = false := by
  intro c mem
  obtain ⟨post, -, split, -⟩ := exists_trimEnd t
  apply head c
  rw [split, List.head?_append, Option.mem_def.mp mem]
  rfl

theorem exists_trim (t : Text) :
    ∃ pre post, AllBlank pre ∧ AllBlank post ∧ t = pre ++ t.trim ++ post ∧ Trimmed t.trim := by
  obtain ⟨pre, blank, splitStart, head⟩ := exists_trimStart t
  obtain ⟨post, blank', splitEnd, last⟩ := exists_trimEnd t.trimStart
  refine ⟨pre, post, blank, blank', ?_, head?_trimEnd head, last⟩
  rw [trim, List.append_assoc, ← splitEnd, ← splitStart]

theorem trim_subset (t : Text) : t.trim ⊆ t := by
  obtain ⟨pre, post, -, -, split, -⟩ := exists_trim t
  intro c mem
  rw [split]
  simp [mem]

theorem trim_of_trimmed {k pre post : Text} (trimmed : Trimmed k) (blank : AllBlank pre)
    (blank' : AllBlank post) : (pre ++ k ++ post).trim = k := by
  cases k with
  | nil =>
    -- nothing is left of blanks
    have all := blank.append blank'
    have gone := trimStart_append all []
    rw [List.append_nil] at gone
    rw [List.append_nil, trim, gone]
    rfl
  | cons c r =>
    have start : (pre ++ (c :: r) ++ post).trimStart = (c :: r) ++ post := by
      rw [List.append_assoc, trimStart_append blank]
      exact trimStart_of_head trimmed.head
    rw [trim, start, trimEnd_append blank', trimEnd_of_last trimmed.last]

theorem trim_append {k post : Text} (head : ∀ c ∈ (k ++ post).head?, isBlank c = false)
    (last : ∀ c ∈ k.getLast?, isBlank c = false) (blank : AllBlank post) :
    (k ++ post).trim = k := by
  have trimmed : Trimmed k := by
    refine ⟨?_, last⟩
    intro c mem
    apply head c
    rw [List.head?_append, Option.mem_def.mp mem]
    rfl
  exact trim_of_trimmed trimmed allBlank_nil blank

theorem trim_eq_iff {t k : Text} :
    t.trim = k ↔
      ∃ pre post, AllBlank pre ∧ AllBlank post ∧ t = pre ++ k ++ post ∧ Trimmed k := by
  constructor
  · intro same
    subst same
    exact exists_trim t
  · intro h
    obtain ⟨pre, post, blank, blank', rfl, trimmed⟩ := h
    exact trim_of_trimmed trimmed blank blank'

@[simp] theorem isAllBlank_trim (t : Text) : t.trim.isAllBlank = t.isAllBlank := by
  obtain ⟨pre, post, blank, blank', split, -⟩ := exists_trim t
  conv => rhs; rw [split]
  rw [isAllBlank_append, isAllBlank_append, isAllBlank_iff.mpr blank, isAllBlank_iff.mpr blank',
    Bool.true_and, Bool.and_true]

theorem trim_ne_nil {t : Text} (nonBlank : t.isAllBlank = false) : t.trim ≠ [] := by
  intro empty
  rw [← isAllBlank_trim, empty] at nonBlank
  cases nonBlank

@[simp] theorem trim_trim (t : Text) : t.trim.trim = t.trim := by
  obtain ⟨-, -, -, -, -, trimmed⟩ := exists_trim t
  simpa using trim_of_trimmed trimmed allBlank_nil allBlank_nil

theorem trim_pad {pre post : Text} (blank : AllBlank pre) (blank' : AllBlank post) (t : Text) :
    (pre ++ t ++ post).trim = t.trim := by
  obtain ⟨pre', post', inner, inner', split, trimmed⟩ := exists_trim t
  refine trim_eq_iff.mpr ⟨pre ++ pre', post' ++ post, blank.append inner, inner'.append blank', ?_,
    trimmed⟩
  conv => lhs; rw [split]
  simp

end Text

end SelectorClauses
