import SelectorClauses.Proofs.Tokenizing.Run

/-!
The order in which the kinds of clauses are tried. At every position, also at one outside of the text,
one kind at most has a token or a fault, so that no kind can take from another what it would have
read. Main statement: `kinds_in_any_order`.
-/
namespace SelectorClauses

namespace Token

theorem exists_only_kind {source : Text} {position : Int}
    (searchable : source.isSearchable (clauseStart source position) = true) :
    ∃ k, ∀ j, j ≠ k → readAt source position j = .ok none := by
  by_cases silent : ∀ j, readAt source position j = .ok none
  · exact ⟨.tag, fun j _ => silent j⟩
  · obtain ⟨k, speaks⟩ := not_forall.mp silent
    exact ⟨k, fun j different => readAt_eq_none_of_ne different searchable speaks⟩

theorem readFirst_eq_of_forall_mem {ks js : List Kind} (inFirst : ∀ k, k ∈ ks)
    (inSecond : ∀ k, k ∈ js) (source : Text) (position : Int) :
    readFirst source position ks = readFirst source position js := by
  by_cases searchable : source.isSearchable (clauseStart source position) = true
  · obtain ⟨k, others⟩ := exists_only_kind searchable
    by_cases silent : readAt source position k = .ok none
    · have all : ∀ j, readAt source position j = .ok none := by
        intro j
        by_cases same : j = k
        · rw [same, silent]
        · exact others j same
      rw [readFirst_eq_none fun j _ => all j, readFirst_eq_none fun j _ => all j]
    · rw [readFirst_eq_of_mem (inFirst k) searchable silent,
        readFirst_eq_of_mem (inSecond k) searchable silent]
  · rw [readFirst_of_not_isSearchable searchable (List.ne_nil_of_mem (inFirst .tag)),
      readFirst_of_not_isSearchable searchable (List.ne_nil_of_mem (inSecond .tag))]

end Token

namespace Cursor

theorem runOf_eq_of_nextOf_eq {ks js : List Kind} (same : ∀ c : Cursor, c.nextOf ks = c.nextOf js)
    (c : Cursor) : c.runOf ks = c.runOf js := by
  fun_induction runOf ks c with
  | case1 c unfinished t found rest ih =>
    rw [same] at found
    rw [runOf_eq_of_nextOf_some unfinished found, ← ih]
    rfl
  | case2 c unfinished found =>
    rw [same] at found
    rw [runOf_eq_of_nextOf_none unfinished found]
  | case3 c unfinished f found =>
    rw [same] at found
    rw [runOf_eq_of_nextOf_error unfinished found]
  | case4 c finished => rw [runOf_eq_of_not_lt finished]

end Cursor

/-- Over a text, trying the kinds in the order of the list comes to trying them in their own order. -/
structure OrderMakesNoDifference (kinds : List Kind) (source : Text) : Prop where
  only : ∀ position : Int, -0x8000000000000000 ≤ position → position < 0x8000000000000000 →
    ∃ k, ∀ j, j ≠ k → Token.readAt source position j = .ok none
  only_or_refused : ∀ position : Int,
    (∃ k, ∀ j, j ≠ k → Token.readAt source position j = .ok none) ∨
      ∃ refused, ∀ k, Token.readAt source position k = .error (.unsearchable refused)
  next_eq : ∀ position length : Int,
    (Cursor.mk source position length).nextOf kinds = (Cursor.mk source position length).next
  run_eq : ∀ position length : Int,
    (Cursor.mk source position length).runOf kinds = (Cursor.mk source position length).run
  tokenize_eq : ((Cursor.ofText source).runOf kinds).result = (tokenize source).mapError .fault

/-- The four kinds never compete, so that they can be tried in any order. -/
theorem kinds_in_any_order {kinds : List Kind} (perm : kinds.Perm Kind.all) (source : Text) :
    OrderMakesNoDifference kinds source := by
  have complete : ∀ k, k ∈ kinds := fun k => perm.mem_iff.mpr (Token.mem_all k)
  have next : ∀ c : Cursor, c.nextOf kinds = c.next := by
    intro c
    exact Token.readFirst_eq_of_forall_mem complete Token.mem_all c.source c.position
  have run : ∀ c : Cursor, c.runOf kinds = c.run := Cursor.runOf_eq_of_nextOf_eq next
  constructor
  · intro position above below
    have searchable : source.isSearchable position = true :=
      Text.isSearchable_iff.mpr ⟨above, Or.inl below⟩
    exact Token.exists_only_kind (Token.isSearchable_clauseStart searchable)
  · intro position
    by_cases searchable : source.isSearchable (Token.clauseStart source position) = true
    · exact Or.inl (Token.exists_only_kind searchable)
    · exact Or.inr ⟨_, Token.readAt_of_not_isSearchable searchable⟩
  · intro position length
    exact next _
  · intro position length
    exact run _
  · rw [run, result_run_ofText]

/-- Behind the last word no kind is silent: all four refuse the position. -/
theorem all_kinds_refused :
    (∀ k, Token.readAt ['a'] 0x8000000000000000 k =
      .error (.unsearchable ⟨0x8000000000000000⟩)) ∧
    ¬ ∃ k, ∀ j, j ≠ k → Token.readAt ['a'] 0x8000000000000000 j = .ok none := by
  have refused : ∀ k, Token.readAt ['a'] 0x8000000000000000 k =
      .error (.unsearchable ⟨0x8000000000000000⟩) := by
    intro k
    cases k <;> decide +kernel
  refine ⟨refused, ?_⟩
  intro only
  obtain ⟨k, silent⟩ := only
  have other : ∃ j : Kind, j ≠ k := by
    cases k with
    | tag => exact ⟨.id, nofun⟩
    | _ => exact ⟨.tag, nofun⟩
  obtain ⟨j, different⟩ := other
  cases (refused j).symm.trans (silent j different)

/-- A negation stands five characters before the end, and the clause behind it is looked for at the
start of the text. -/
theorem kinds_in_any_order_reversed :
    [Kind.attr, .cls, .id, .tag].Perm Kind.all ∧
      OrderMakesNoDifference [.attr, .cls, .id, .tag] "[b]:not(".toList ∧
      (Cursor.mk "[b]:not(".toList (-5) 8).nextOf [.attr, .cls, .id, .tag] =
        .error (.fault (.unterminatedNegation ":not([b]".toList 3)) := by
  have perm : [Kind.attr, .cls, .id, .tag].Perm Kind.all := by decide
  have same := kinds_in_any_order perm "[b]:not(".toList
  refine ⟨perm, same, ?_⟩
  rw [same.next_eq]
  decide +kernel

end SelectorClauses
