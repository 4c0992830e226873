import SelectorClauses.Fault
import SelectorClauses.Token.Basic

/-!
Reading one token at a position. A negation is looked for at the position counted from the end
when it is negative, the clause itself at the position counted from the front; the two differ
only for positions outside the text. A clause is not looked for at a position that is no word.
-/
namespace SelectorClauses

structure Found where
  start : Nat
  clause : Clause
deriving DecidableEq, Repr

namespace Found

def stop (f : Found) : Nat := f.start + f.clause.print.length

/-- The parts of the clause: its name, and for an attribute the operator and the operand. -/
def parts (f : Found) : List (Option Text) :=
  match f.clause with
  | .attr n t => [some n, t.map fun t => t.operator.print, t.map Test.operand]
  | c => [some c.name]

end Found

namespace Clause

/-- The clause of a kind that starts at a position from which the text can be searched. -/
def find? (kind : Kind) (source : Text) (position : Int) : Option Found :=
  let start := source.clampedIndex position
  (read? kind (source.drop start)).map fun (c, _) => ⟨start, c⟩

def search (kind : Kind) (source : Text) (position : Int) : Except Unsearchable (Option Found) :=
  if source.isSearchable position then .ok (find? kind source position) else .error ⟨position⟩

theorem print_ne_nil_of_find? {kind : Kind} {source : Text} {position : Int} {f : Found}
    (h : find? kind source position = some f) : f.clause.print ≠ [] := by
  obtain ⟨⟨c, r⟩, hc, rfl⟩ := Option.map_eq_some_iff.1 h
  exact print_ne_nil_of_read? hc

theorem stop_le_of_find? {kind : Kind} {source : Text} {position : Int} {f : Found}
    (h : find? kind source position = some f) : f.stop ≤ source.length := by
  obtain ⟨⟨c, r⟩, hc, rfl⟩ := Option.map_eq_some_iff.1 h
  have rest := congrArg List.length (eq_print_of_read? hc)
  have start : source.clampedIndex position ≤ source.length := Nat.min_le_right _ _
  rw [List.length_drop, List.length_append] at rest
  simp only [Found.stop]
  omega

/-- A position that is not in the text is moved into it before anything is read. -/
theorem add_length_le_stop_of_find? {kind : Kind} {source : Text} {position : Int} {f : Found}
    (h : find? kind source position = some f) : position + f.clause.print.length ≤ f.stop := by
  have inside := stop_le_of_find? h
  have some_character := List.length_pos_iff.mpr (print_ne_nil_of_find? h)
  obtain ⟨⟨c, r⟩, -, rfl⟩ := Option.map_eq_some_iff.1 h
  simp only [Found.stop, Text.clampedIndex] at inside some_character ⊢
  omega

theorem search_eq_ok {kind : Kind} {source : Text} {position : Int} {found : Option Found}
    (h : search kind source position = .ok found) : find? kind source position = found := by
  unfold search at h
  split at h
  · exact Except.ok.inj h
  · cases h

theorem isSearchable_of_search {kind : Kind} {source : Text} {position : Int}
    {found : Option Found} (h : search kind source position = .ok found) :
    source.isSearchable position = true := by
  unfold search at h
  split at h
  · next searchable => exact searchable
  · cases h

theorem search_of_isSearchable {source : Text} {position : Int}
    (searchable : source.isSearchable position = true) (kind : Kind) :
    search kind source position = .ok (find? kind source position) := if_pos searchable

end Clause

namespace Token

def isNegatedAt (source : Text) (position : Int) : Bool :=
  negationOpen.isPrefixOf (source.drop (source.countedIndex position))

def clauseStart (source : Text) (position : Int) : Int :=
  if isNegatedAt source position then position + negationOpen.length else position

/-- The token of a clause that was found: a fault where a negated clause is not closed. -/
def ofFound (source : Text) (negated : Bool) (f : Found) : Except Fault Token :=
  if negated then
    if (source.drop f.stop).head? = some negationClose then .ok (ofClause true f.clause)
    else .error (.unterminatedNegation (negationOpen ++ f.clause.print) f.stop)
  else .ok (ofClause false f.clause)

/-- The token of a kind at a position, and none where no clause of the kind starts. -/
def readAt (source : Text) (position : Int) (kind : Kind) : Except ReadError (Option Token) :=
  match Clause.search kind source (clauseStart source position) with
  | .error refused => .error (.unsearchable refused)
  | .ok none => .ok none
  | .ok (some f) => ((ofFound source (isNegatedAt source position) f).mapError .fault).map some

def readFirst (source : Text) (position : Int) : List Kind → Except ReadError (Option Token)
  | [] => .ok none
  | kind :: kinds =>
    match readAt source position kind with
    | .ok none => readFirst source position kinds
    | found => found

/- What an answer says about the clause that was found. -/

theorem ofFound_eq_ok {source : Text} {negated : Bool} {f : Found} {t : Token}
    (h : ofFound source negated f = .ok t) : t = ofClause negated f.clause ∧
      (negated = true → (source.drop f.stop).head? = some negationClose) := by
  unfold ofFound at h
  cases negated with
  | false => exact ⟨(Except.ok.inj h).symm, nofun⟩
  | true =>
    rw [if_pos rfl] at h
    split at h
    · next closed => exact ⟨(Except.ok.inj h).symm, fun _ => closed⟩
    · cases h

theorem exists_search_of_readAt {source : Text} {position : Int} {kind : Kind} {t : Token}
    (h : readAt source position kind = .ok (some t)) :
    ∃ f, Clause.search kind source (clauseStart source position) = .ok (some f) ∧
      ofFound source (isNegatedAt source position) f = .ok t := by
  unfold readAt at h
  split at h
  · cases h
  · cases h
  · next f found =>
    refine ⟨f, found, ?_⟩
    cases answer : ofFound source (isNegatedAt source position) f with
    | ok t' =>
      rw [answer] at h
      cases h
      rfl
    | error g =>
      rw [answer] at h
      cases h

theorem length_pos_of_readAt {source : Text} {position : Int} {kind : Kind} {t : Token}
    (h : readAt source position kind = .ok (some t)) : 0 < t.length := by
  obtain ⟨f, found, made⟩ := exists_search_of_readAt h
  rw [(ofFound_eq_ok made).1]
  exact length_ofClause_pos (Clause.print_ne_nil_of_find? (Clause.search_eq_ok found))

theorem add_length_le_of_readAt {source : Text} {position : Int} {kind : Kind} {t : Token}
    (h : readAt source position kind = .ok (some t)) :
    position + t.length ≤ source.length := by
  obtain ⟨f, found, made⟩ := exists_search_of_readAt h
  obtain ⟨rfl, closed⟩ := ofFound_eq_ok made
  have inside := Clause.stop_le_of_find? (Clause.search_eq_ok found)
  have far := Clause.add_length_le_stop_of_find? (Clause.search_eq_ok found)
  cases negated : isNegatedAt source position with
  | false =>
    rw [clauseStart, negated, if_neg Bool.false_ne_true] at far
    simp only [ofClause, length, Bool.false_eq_true, if_false]
    omega
  | true =>
    -- the parenthesis that closes the negation stands behind the clause
    have behind : f.stop < source.length := by
      have last := closed negated
      rw [List.head?_drop] at last
      exact (List.getElem?_eq_some_iff.mp last).1
    rw [clauseStart, negated, if_pos rfl] at far
    simp only [ofClause, length, if_true, List.length_append, List.length_singleton]
    omega

theorem isSearchable_clauseStart {source : Text} {position : Int}
    (searchable : source.isSearchable position = true) :
    source.isSearchable (clauseStart source position) = true := by
  unfold clauseStart
  split
  · next negated =>
    have long := (List.isPrefixOf_iff_prefix.mp negated).length_le
    rw [List.length_drop, Text.countedIndex] at long
    have some_character : 0 < negationOpen.length := by decide
    have above := (Text.isSearchable_iff.mp searchable).1
    apply Text.isSearchable_of_le
    · omega
    · split at long <;> omega
  · exact searchable

theorem readAt_ne_unsearchable {source : Text} {position : Int}
    (searchable : source.isSearchable position = true) (kind : Kind) (refused : Unsearchable) :
    readAt source position kind ≠ .error (.unsearchable refused) := by
  rw [readAt, Clause.search_of_isSearchable (isSearchable_clauseStart searchable)]
  cases Clause.find? kind source (clauseStart source position) with
  | none => simp
  | some f =>
    cases answer : ofFound source (isNegatedAt source position) f <;>
      simp only [answer] <;> nofun

theorem exists_readAt_of_readFirst {source : Text} {position : Int} {kinds : List Kind}
    {found : Except ReadError (Option Token)} (h : readFirst source position kinds = found)
    (answered : found ≠ .ok none) : ∃ kind, readAt source position kind = found := by
  induction kinds with
  | nil => exact absurd h.symm answered
  | cons k ks ih =>
    rw [readFirst] at h
    split at h
    · exact ih h
    · exact ⟨k, h⟩

theorem length_pos_of_readFirst {source : Text} {position : Int} {kinds : List Kind} {t : Token}
    (h : readFirst source position kinds = .ok (some t)) : 0 < t.length := by
  obtain ⟨kind, read⟩ := exists_readAt_of_readFirst h (by simp)
  exact length_pos_of_readAt read

theorem add_length_le_of_readFirst {source : Text} {position : Int} {kinds : List Kind} {t : Token}
    (h : readFirst source position kinds = .ok (some t)) :
    position + t.length ≤ source.length := by
  obtain ⟨kind, read⟩ := exists_readAt_of_readFirst h (by simp)
  exact add_length_le_of_readAt read

theorem readFirst_ne_unsearchable {source : Text} {position : Int}
    (searchable : source.isSearchable position = true) (kinds : List Kind)
    (refused : Unsearchable) :
    readFirst source position kinds ≠ .error (.unsearchable refused) := by
  intro h
  obtain ⟨kind, read⟩ := exists_readAt_of_readFirst h (by simp)
  exact readAt_ne_unsearchable searchable kind refused read

end Token

end SelectorClauses
