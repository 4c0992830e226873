import SelectorClauses.Proofs.Tokenizing.Acceptance
import SelectorClauses.Selector

/-!
Texts put one behind the other. Main statement: `tokenize_append` says that a text which splits
into tokens keeps them whatever comes behind it, unless an identifier at its end could go on there,
and that what comes behind is read as it is on its own.
-/
namespace SelectorClauses

open Token

/-- A mark stands where the texts meet, or there is nothing to meet: the text `s` with the tokens
`ts` ends in a bracket or a parenthesis, or the text behind it begins with a sigil or a colon. -/
def MeetsAtMark (s : Text) (ts : List Token) (t : Text) : Prop :=
  t = [] ∨ (∃ c ∈ t.head?, c = '#' ∨ c = '.' ∨ c = '[' ∨ c = ':') ∨ s = [] ∨
    ∃ last ∈ ts.getLast?, last.negated = true ∨ last.kind = .attr

theorem isOpen_eq_false_of_mark {t : Token} (mark : t.negated = true ∨ t.kind = .attr) :
    t.isOpen = false := by
  rcases mark with negated | attr
  · simp [isOpen, negated]
  · simp [isOpen, attr]

theorem continuesName_eq_false_of_mark {c : Char}
    (mark : c = '#' ∨ c = '.' ∨ c = '[' ∨ c = ':') : continuesName c = false := by
  rcases mark with rfl | rfl | rfl | rfl <;> decide

/-- Tokens that make up a text are still read when a text that meets it at a mark is behind it. -/
theorem reads_append {s t : Text} {ts : List Token} (accepted : tokenize s = .ok ts)
    (meets : MeetsAtMark s ts t) : Reads (s ++ t) ts t := by
  obtain ⟨normal, rfl⟩ := reads_nil_iff.mp (tokenize_eq_ok_iff_reads.mp accepted)
  refine reads_iff.mpr ⟨normal, rfl, ?_⟩
  intro last mem
  have wellFormed : last.WellFormed := normal.wellFormed last (List.mem_of_getLast? mem)
  rcases meets with rfl | ⟨c, head, mark⟩ | empty | ⟨u, mem', mark⟩
  · exact stands_nil wellFormed
  · apply stands_of_head wellFormed
    intro d head'
    obtain rfl : c = d := Option.mem_unique head head'
    exact continuesName_eq_false_of_mark mark
  · -- a text without characters has no tokens, so none is the last
    have none_read : ts = [] := by
      rw [empty, tokenize_nil] at accepted
      exact (Except.ok.inj accepted).symm
    simp [none_read] at mem
  · obtain rfl : u = last := Option.mem_unique mem' mem
    exact stands_of_not_isOpen wellFormed (isOpen_eq_false_of_mark mark)

theorem mem_attributesOf_append {ss ts : List Token} {a : Text} :
    a ∈ attributesOf (ss ++ ts) ↔ a ∈ attributesOf ss ∨ a ∈ attributesOf ts := by
  simp only [attributesOf, NameSet.mem_ofList, List.filterMap_append, List.mem_append]

/-- Behind a text that splits into tokens, another one is read as it is on its own: it has the same
tokens and adds their attributes, and it has the same fault, which lies further back by what is
before it. -/
theorem tokenize_append {s t : Text} {ts : List Token} (accepted : tokenize s = .ok ts)
    (meets : MeetsAtMark s ts t) :
    (Accepted (s ++ t) ↔ Accepted t) ∧
      (∀ us, tokenize t = .ok us → tokenize (s ++ t) = .ok (ts ++ us) ∧
        ∀ a, a ∈ attributesOf (ts ++ us) ↔ a ∈ attributesOf ts ∨ a ∈ attributesOf us) ∧
      ∀ f, tokenize t = .error f → tokenize (s ++ t) = .error (f.moved s.length) := by
  have whole : textOf ts = s := by
    obtain ⟨-, same⟩ := reads_nil_iff.mp (tokenize_eq_ok_iff_reads.mp accepted)
    exact same.symm
  have both := tokenize_of_reads (reads_append accepted meets)
  rw [whole] at both
  refine ⟨?_, ?_, ?_⟩
  · unfold Accepted
    rw [both]
    cases tokenize t with
    | ok us => simp [Except.mapError, Except.map]
    | error f => simp [Except.mapError, Except.map]
  · intro us read
    refine ⟨?_, fun a => mem_attributesOf_append⟩
    rw [both, read]
    rfl
  · intro f fault
    rw [both, fault]
    rfl

theorem tokenize_append_negation :
    tokenize "a:not(.b)".toList = .ok [ofClause false (.tag ['a']), ofClause true (.cls ['b'])] ∧
      MeetsAtMark "a:not(.b)".toList
        [ofClause false (.tag ['a']), ofClause true (.cls ['b'])] "c >".toList ∧
      tokenize "c >".toList = .error (.unrecognizedSyntax " >".toList 1) ∧
      tokenize "a:not(.b)c >".toList = .error (.unrecognizedSyntax " >".toList 10) := by
  have first : tokenize "a:not(.b)".toList =
      .ok [ofClause false (.tag ['a']), ofClause true (.cls ['b'])] := by decide +kernel
  have meets : MeetsAtMark "a:not(.b)".toList
      [ofClause false (.tag ['a']), ofClause true (.cls ['b'])] "c >".toList :=
    Or.inr (Or.inr (Or.inr ⟨_, rfl, Or.inl rfl⟩))
  have fault : tokenize "c >".toList = .error (.unrecognizedSyntax " >".toList 1) := by
    decide +kernel
  exact ⟨first, meets, fault, (tokenize_append first meets).2.2 _ fault⟩

end SelectorClauses
