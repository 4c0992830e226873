import SelectorClauses.Proofs.Tokenizing.Acceptance
import SelectorClauses.Token.Pool

/-!
Tokens on their own. A token that was read from some text is read from its value again, so the value
determines all parts of it, also those that the comparison of tokens leaves out. Main statement:
`tokens_compare_by_value`.
-/
namespace SelectorClauses

open Token

namespace Token

theorem alike_iff {s t : Token} :
    s.alike t = true ↔ s.kind = t.kind ∧ s.value = t.value ∧ s.negated = t.negated := by
  simp [alike, and_assoc]

theorem wellFormed_of_tokenize {source : Text} {ts : List Token}
    (accepted : tokenize source = .ok ts) {t : Token} (mem : t ∈ ts) : t.WellFormed :=
  (tokenize_eq_ok_iff_reads.mp accepted).normalForm.wellFormed t mem

theorem WellFormed.tokenize_value {t : Token} (h : t.WellFormed) : tokenize t.value = .ok [t] := by
  have alone : NormalForm [t] := ⟨by simpa using h, .singleton t⟩
  have read := tokenize_textOf alone
  rwa [textOf_cons, textOf_nil, List.append_nil] at read

theorem WellFormed.eq_of_value_eq {s t : Token} (first : s.WellFormed) (second : t.WellFormed)
    (same : s.value = t.value) : s = t := by
  have read := first.tokenize_value
  rw [same, second.tokenize_value] at read
  simpa using read.symm

end Token

namespace Pooled

theorem alike_ofToken (s t : Token) : (ofToken s).alike (ofToken t) = s.alike t := by
  rw [Bool.eq_iff_iff, Token.alike_iff, alike, beq_iff_eq]
  simp only [identity, ofToken, Prod.mk.injEq]
  exact and_congr_left fun _ => ⟨Kind.label_injective, congrArg Kind.label⟩

end Pooled

structure ComparedByValue (s t : Token) : Prop where
  alike_iff : s.alike t = true ↔ s.value = t.value
  pooled_iff : (Pooled.ofToken s).alike (Pooled.ofToken t) = true ↔ s.value = t.value
  parts : s.value = t.value → s.kind = t.kind ∧ s.negated = t.negated ∧ s.data = t.data ∧
    s.operator = t.operator ∧ s.operand = t.operand
  attribute_eq : s.value = t.value → s.attribute? = t.attribute?

theorem comparedByValue_of_wellFormed {s t : Token} (first : s.WellFormed) (second : t.WellFormed) :
    ComparedByValue s t := by
  have alike : s.alike t = true ↔ s.value = t.value := by
    rw [Token.alike_iff]
    constructor
    · intro h
      exact h.2.1
    · intro same
      obtain rfl := first.eq_of_value_eq second same
      exact ⟨rfl, rfl, rfl⟩
  refine ⟨alike, by rw [Pooled.alike_ofToken, alike], ?_, ?_⟩
  · intro same
    obtain rfl := first.eq_of_value_eq second same
    exact ⟨rfl, rfl, rfl, rfl, rfl⟩
  · intro same
    rw [first.eq_of_value_eq second same]

/-- Tokens that were read, from one text or from two, are alike exactly if their values are the
same, and then no other part of them differs. Each of them is what its value splits into. -/
theorem tokens_compare_by_value {source other : Text} {ss ts : List Token}
    (first : tokenize source = .ok ss) (second : tokenize other = .ok ts) :
    (∀ s ∈ ss, ∀ t ∈ ts, ComparedByValue s t) ∧ ∀ s ∈ ss, tokenize s.value = .ok [s] := by
  constructor
  · intro s memS t memT
    exact comparedByValue_of_wellFormed (Token.wellFormed_of_tokenize first memS)
      (Token.wellFormed_of_tokenize second memT)
  · intro s mem
    exact (Token.wellFormed_of_tokenize first mem).tokenize_value

theorem tokens_compare_by_value_negated :
    tokenize "a:not(.\\31 )".toList =
        .ok [ofClause false (.tag ['a']), ofClause true (.cls "\\31 ".toList)] ∧
      tokenize ":not(.\\31 )[a]".toList =
        .ok [ofClause true (.cls "\\31 ".toList), ofClause false (.attr ['a'] none)] ∧
      ComparedByValue (ofClause true (.cls "\\31 ".toList)) (ofClause true (.cls "\\31 ".toList)) ∧
      ComparedByValue (ofClause false (.tag ['a'])) (ofClause true (.cls "\\31 ".toList)) ∧
      tokenize ":not(.\\31 )".toList = .ok [ofClause true (.cls "\\31 ".toList)] := by
  have first : tokenize "a:not(.\\31 )".toList =
      .ok [ofClause false (.tag ['a']), ofClause true (.cls "\\31 ".toList)] := by decide +kernel
  have second : tokenize ":not(.\\31 )[a]".toList =
      .ok [ofClause true (.cls "\\31 ".toList), ofClause false (.attr ['a'] none)] := by
    decide +kernel
  obtain ⟨compared, alone⟩ := tokens_compare_by_value first second
  exact ⟨first, second, compared _ (by simp) _ (by simp), compared _ (by simp) _ (by simp),
    alone (ofClause true (.cls "\\31 ".toList)) (by simp)⟩

end SelectorClauses
