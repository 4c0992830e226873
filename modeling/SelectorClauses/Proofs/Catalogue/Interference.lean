import SelectorClauses.Proofs.Catalogue.Operations

/-!
Look-ups that are overtaken. A look-up that misses decides to parse before it has the lock, and by
the time it has it others may have been there. Main statement: `overtaken_get` says that the second
look makes up for this: the look-up comes to the same as one that is made after the others, and a
key is parsed and stored by one caller only.
-/
namespace SelectorClauses

namespace Catalogue

structure Overtaken (c : Catalogue) (r : Registry) (source : Value) (others : List Request) :
    Prop where
  same_answer : (c.getInterrupted r source others).result.map Handle.selector =
    (c.get r source).result.map Handle.selector
  result_eq : (c.getInterrupted r source others).result =
    ((c.getEach others).1.get r source).result
  after_eq : (c.getInterrupted r source others).after = (c.getEach (others ++ [(r, source)])).1
  journal_eq : (c.getInterrupted r source others).journal = (c.getEach (others ++ [(r, source)])).2
  nodup_keys : ∀ r', ((c.getInterrupted r source others).after.keys r').Nodup
  built : ∀ l ∈ c.lookups others, l.registry = r → l.key = keyOf source → ∀ h, l.result = .ok h →
    c.getInterrupted r source others = ⟨.ok h, (c.getEach others).1, (c.getEach others).2⟩
  failed : ∀ l ∈ c.lookups others, l.registry = r → l.key = keyOf source → ∀ e,
    l.result = .error e → ∃ f, tokenize (keyOf source) = .error f ∧
      c.getInterrupted r source others = ⟨.error e, (c.getEach others).1, (c.getEach others).2 ++
        (.parsing (keyOf source) :: Entry.ofFault (keyOf source) f ++
          [.rejected (keyOf source) (.fault f)])⟩

/-- In every state that a run leads to, a look-up that misses may be overtaken by any others. A
contended look-up is overtaken by one of the same source. -/
theorem overtaken_get (os : List Operation) (r : Registry) (source : Value) (others : List Request)
    (absent : (runAfter [] os).contains r source = false) :
    Overtaken (runAfter [] os) r source others := by
  have late := getInterrupted_of_find?_eq_none (contains_eq_false_iff.mp absent) others
  have sound := sound_runAfter os
  have between := sound.getEach others
  generalize runAfter [] os = c at late sound between ⊢
  have gets := gets_get (c.getEach others).1 r source
  constructor
  · -- both answers are that of the key alone
    rw [late, gets.result_eq between]
    exact ((gets_get c r source).result_eq sound).symm
  · rw [late]
  · rw [late, getEach_concat]
  · rw [late, getEach_concat]
  · intro r'
    rw [late]
    exact (gets.sound between (trim_keyOf source)).nodup_keys r'
  · intro l mem registry key h ok
    subst registry
    rw [late, get_after_success mem ok key.symm, List.append_nil]
  · intro l mem registry key e error
    subst registry
    obtain ⟨f, fault, again⟩ := sound.get_after_failure mem error key.symm
    exact ⟨f, fault, by rw [late, again]⟩

/-- Another registry builds the key first, which makes no difference, then the same one does, and
its selector is the third of all; a third caller fails with a key of its own. -/
theorem overtaken_get_built_between :
    (runAfter [] [.get (.own 0) (.text ['a'])]).contains (.own 0) (.text [' ', 'b']) = false ∧
      ((runAfter [] [.get (.own 0) (.text ['a'])]).getInterrupted (.own 0) (.text [' ', 'b'])
        [(.own 1, .text ['b']), (.own 0, .text ['b', ' ']), (.own 0, .text ['>'])]).result =
          .ok ⟨2, ⟨['b'], [Token.ofClause false (.tag ['b'])]⟩⟩ := by
  have absent : (runAfter [] [.get (.own 0) (.text ['a'])]).contains (.own 0)
      (.text [' ', 'b']) = false := by decide +kernel
  have overtaken := overtaken_get [.get (.own 0) (.text ['a'])] (.own 0) (.text [' ', 'b'])
    [(.own 1, .text ['b']), (.own 0, .text ['b', ' ']), (.own 0, .text ['>'])] absent
  have whole := overtaken.built _ (List.mem_cons_of_mem _ List.mem_cons_self) rfl
    (by decide +kernel) ⟨2, ⟨['b'], [Token.ofClause false (.tag ['b'])]⟩⟩ (by decide +kernel)
  exact ⟨absent, congrArg Answer.result whole⟩

end Catalogue

end SelectorClauses
