import SelectorClauses.Proofs.Catalogue.Operations
import SelectorClauses.Proofs.Tokenizing.Trimmed

/-!
Looking up a text that is fine as it stands. Keys are trimmed before they are parsed, so a look-up can
reject what splits into tokens. Main statement: `get_of_tokenize` says when it does, and what is
left of the tokens when it does not.
-/
namespace SelectorClauses

namespace Catalogue

/-- What comes of looking up a source whose text splits into the tokens `ts`. -/
structure GetsTrimmed (source : Value) (ts : List Token) (a : Answer) : Prop where
  head_not_blank : ∀ c ∈ source.display.head?, isBlank c = false
  fails_iff : (∃ e, a.result = .error e) ↔ EndsInEscapedBlank source.display
  unrecognized : ∀ e, a.result = .error e → ∃ remainder p,
    e = .construction (keyOf source) (.fault (.unrecognizedSyntax remainder p))
  tokens : ¬ EndsInEscapedBlank source.display →
    ∃ h, a.result = .ok h ∧ (h.selector.tokens = ts ∨ LosesEnding ts h.selector.tokens)

section

variable {source : Value} {ts : List Token} {a : Answer}
  (head : ∀ c ∈ source.display.head?, isBlank c = false)

include head

theorem getsTrimmed_of_ok (notEscaped : ¬ EndsInEscapedBlank source.display) {h : Handle}
    (ok : a.result = .ok h) (same : h.selector.tokens = ts ∨ LosesEnding ts h.selector.tokens) :
    GetsTrimmed source ts a := by
  have noError : ¬ ∃ e, a.result = .error e := by simp [ok]
  constructor
  · exact head
  · exact iff_of_false noError notEscaped
  · intro e error
    exact absurd ⟨e, error⟩ noError
  · intro _
    exact ⟨h, ok, same⟩

theorem getsTrimmed_of_unrecognized (escaped : EndsInEscapedBlank source.display)
    {remainder : Text} {p : Int} (rejects : a.result =
      .error (.construction (keyOf source) (.fault (.unrecognizedSyntax remainder p)))) :
    GetsTrimmed source ts a := by
  constructor
  · exact head
  · exact iff_of_true ⟨_, rejects⟩ escaped
  · intro e error
    rw [rejects] at error
    exact ⟨remainder, p, (Except.error.inj error).symm⟩
  · intro notEscaped
    exact absurd escaped notEscaped

end

theorem get_of_tokenize (os : List Operation) (r : Registry) {source : Value} {ts : List Token}
    (accepted : tokenize source.display = .ok ts) (plain : PlainBlanks source.display) :
    GetsTrimmed source ts ((runAfter [] os).get r source) := by
  obtain ⟨head, reading⟩ := tokenize_trim accepted plain
  have gets := gets_get (runAfter [] os) r source
  have sound := sound_runAfter os
  cases reading with
  | kept notEscaped read =>
    obtain ⟨h, ok, selector⟩ := gets.exists_ok sound read
    exact getsTrimmed_of_ok head notEscaped ok (Or.inl (by rw [selector]))
  | shortened us notEscaped read loses =>
    obtain ⟨h, ok, selector⟩ := gets.exists_ok sound read
    exact getsTrimmed_of_ok head notEscaped ok (Or.inr (by rwa [selector]))
  | dangling remainder p escaped fault =>
    exact getsTrimmed_of_unrecognized head escaped (gets.result_of_fault sound fault)

/-- The line break ends the digits of an escape and is lost without harm; the space is escaped, and
without it the backslash is nothing that can be read. -/
theorem get_of_tokenize_ends_in_blank :
    tokenize ".a#\\31\r\n".toList =
        .ok [Token.ofClause false (.cls ['a']), Token.ofClause false (.id "\\31\r\n".toList)] ∧
      PlainBlanks ".a#\\31\r\n".toList ∧
      (∃ h, ((runAfter [] []).get .shared (.text ".a#\\31\r\n".toList)).result = .ok h) ∧
      tokenize ".a#\\ ".toList =
        .ok [Token.ofClause false (.cls ['a']), Token.ofClause false (.id "\\ ".toList)] ∧
      PlainBlanks ".a#\\ ".toList ∧
      ∃ e, ((runAfter [] []).get .shared (.text ".a#\\ ".toList)).result = .error e := by
  have read : tokenize ".a#\\31\r\n".toList =
      .ok [Token.ofClause false (.cls ['a']), Token.ofClause false (.id "\\31\r\n".toList)] := by
    decide +kernel
  have plain : PlainBlanks ".a#\\31\r\n".toList := by decide +kernel
  have notEscaped : ¬ EndsInEscapedBlank ".a#\\31\r\n".toList := by
    intro escaped
    obtain ⟨pre, c, -, same⟩ := escaped
    have reversed := congrArg List.reverse same
    rw [List.reverse_append] at reversed
    exact absurd (List.cons.inj (List.cons.inj reversed).2).1 (by decide)
  have kept : GetsTrimmed (.text ".a#\\31\r\n".toList) _ ((runAfter [] []).get .shared _) :=
    get_of_tokenize [] .shared read plain
  obtain ⟨h, ok, -⟩ := kept.tokens notEscaped
  have read' : tokenize ".a#\\ ".toList =
      .ok [Token.ofClause false (.cls ['a']), Token.ofClause false (.id "\\ ".toList)] := by
    decide +kernel
  have plain' : PlainBlanks ".a#\\ ".toList := by decide +kernel
  have escaped : EndsInEscapedBlank ".a#\\ ".toList := ⟨".a#".toList, ' ', by decide, rfl⟩
  have rejected : GetsTrimmed (.text ".a#\\ ".toList) _ ((runAfter [] []).get .shared _) :=
    get_of_tokenize [] .shared read' plain'
  exact ⟨read, plain, ⟨h, ok⟩, read', plain', rejected.fails_iff.mpr escaped⟩

end Catalogue

end SelectorClauses
