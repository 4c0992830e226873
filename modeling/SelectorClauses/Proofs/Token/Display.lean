import Mathlib.Data.Nat.Digits.Lemmas
import SelectorClauses.Journal
import SelectorClauses.Proofs.Text.Unquoting
import SelectorClauses.Proofs.Tokenizing.Alone

/-!
Displays of tokens and selectors. Main statement: `displays_are_faithful` says that tokens are displayed
alike exactly if they are alike, and selectors exactly if their sources are the same, and that what was
quoted can be read off a display and off an entry of the journal.
-/
namespace SelectorClauses

open Text

/-- What a caller makes a token of. -/
structure Ingredients where
  kind : Value
  value : Text
  data : Text
  negated : Value
  operator : Option Text
  operand : Option Text

namespace Ingredients

def token? (a : Ingredients) : Except Refusal Token :=
  Token.make a.kind a.value a.data a.negated a.operator a.operand

structure Agree (a b : Ingredients) : Prop where
  kind : a.kind = b.kind
  value : a.value = b.value
  negated : a.negated.truthy = b.negated.truthy

end Ingredients

/- Tokens. -/

theorem Kind.eq_label_of_ofValue? {v : Value} {k : Kind} (h : ofValue? v = some k) :
    v = .text k.label := by
  cases v with
  | text t =>
    have same := List.find?_some h
    rw [beq_iff_eq.mp same]
  | _ => cases h

theorem Ingredients.parts {a : Ingredients} {t : Token} (made : a.token? = .ok t) :
    a.kind = .text t.kind.label ∧ t.value = a.value ∧ t.negated = a.negated.truthy := by
  rw [token?, Token.make] at made
  cases kind : Kind.ofValue? a.kind with
  | none =>
    rw [kind] at made
    cases made
  | some k =>
    rw [kind] at made
    cases made
    exact ⟨Kind.eq_label_of_ofValue? kind, rfl, rfl⟩

theorem Ingredients.alike_iff_agree {a b : Ingredients} {s t : Token} (made : a.token? = .ok s)
    (made' : b.token? = .ok t) : s.alike t = true ↔ a.Agree b := by
  obtain ⟨kind, value, negated⟩ := parts made
  obtain ⟨kind', value', negated'⟩ := parts made'
  rw [Token.alike_iff, value, value', negated, negated']
  constructor
  · intro same
    exact ⟨by rw [kind, kind', same.1], same.2.1, same.2.2⟩
  · intro agree
    have labels : Value.text s.kind.label = .text t.kind.label := by
      rw [← kind, ← kind', agree.kind]
    exact ⟨Kind.label_injective (Value.text.inj labels), agree.value, agree.negated⟩

def Kind.displayStart (k : Kind) : Text := "Token(".toList ++ k.label ++ ", ".toList

theorem Kind.unquoted_displayStart (k : Kind) : Unquoted k.displayStart := by
  cases k <;> decide

theorem Kind.displayStart_injective {j k : Kind} (h : j.displayStart = k.displayStart) : j = k := by
  revert h
  cases j <;> cases k <;> decide

def Token.displayEnd (t : Token) : Text :=
  if t.negated then ", negated=True)".toList else ")".toList

theorem Token.describe_eq (t : Token) :
    t.describe = t.kind.displayStart ++ t.value.quoted ++ t.displayEnd := rfl

theorem Token.displayEnd_eq_iff {s t : Token} :
    s.displayEnd = t.displayEnd ↔ s.negated = t.negated := by
  rw [displayEnd, displayEnd]
  cases s.negated <;> cases t.negated <;> decide

theorem Token.describe_eq_iff {s t : Token} : s.describe = t.describe ↔ s.alike t = true := by
  rw [alike_iff, describe_eq, describe_eq]
  constructor
  · intro same
    obtain ⟨front, value, behind⟩ :=
      quoted_append_inj s.kind.unquoted_displayStart t.kind.unquoted_displayStart same
    exact ⟨Kind.displayStart_injective front, value, displayEnd_eq_iff.mp behind⟩
  · intro same
    obtain ⟨kind, value, negated⟩ := same
    rw [kind, value, displayEnd_eq_iff.mpr negated]

theorem Token.quotedPart?_describe (t : Token) :
    quotedPart? t.describe = some (t.value, t.displayEnd) := by
  rw [describe_eq, quotedPart?_append t.kind.unquoted_displayStart]

/- Selectors. -/

namespace Selector

def displayStart : Text := "Selector(".toList

theorem unquoted_displayStart : Unquoted displayStart := by decide

theorem describe_eq (x : Selector) : x.describe = displayStart ++ x.source.quoted ++ [')'] := rfl

theorem describe_eq_iff {x y : Selector} : x.describe = y.describe ↔ x.source = y.source := by
  rw [describe_eq, describe_eq]
  constructor
  · intro same
    exact (quoted_append_inj unquoted_displayStart unquoted_displayStart same).2.1
  · intro same
    rw [same]

theorem quotedPart?_describe (x : Selector) : quotedPart? x.describe = some (x.source, [')']) := by
  rw [describe_eq, quotedPart?_append unquoted_displayStart]

end Selector

/- The journal. -/

theorem unquoted_ofNat (n : Nat) : Unquoted (Text.ofNat n) := by
  intro c mem
  have digit : c.isDigit = true := Nat.isDigit_of_mem_toDigits (by decide) (by decide) mem
  rw [← Bool.not_eq_true, isQuote_iff]
  rintro (rfl | rfl) <;> cases digit

theorem unquoted_ofInt (n : Int) : Unquoted (Text.ofInt n) := by
  cases n with
  | ofNat n => exact unquoted_ofNat n
  | negSucc n => exact List.forall_mem_cons.mpr ⟨rfl, unquoted_ofNat (n + 1)⟩

namespace Entry

def text : Entry → Text
  | .parsing key | .rejected key _ => key
  | .noToken _ source => source

/-- A position and the words of the program come before what is quoted, and an error behind it, which
may have quotes of its own. -/
theorem exists_quotedPart?_message (e : Entry) :
    ∃ behind, quotedPart? e.message = some (e.text, behind) := by
  cases e with
  | parsing key =>
    have front : Unquoted "Parsing selector ".toList := by decide
    exact ⟨[], quotedPart?_concat front key⟩
  | rejected key reason =>
    have front : Unquoted "Rejected selector ".toList := by decide
    have part := quotedPart?_append front key (": ".toList ++ reason.message)
    rw [← List.append_assoc] at part
    exact ⟨_, part⟩
  | noToken position source =>
    have offset : Unquoted "No token matches at offset ".toList := by decide
    have word : Unquoted " of ".toList := by decide
    have front := (offset.append (unquoted_ofInt position)).append word
    exact ⟨[], quotedPart?_concat front source⟩

end Entry

structure FaithfulDisplays (a b : Ingredients) (s t : Token) : Prop where
  describe_iff : s.describe = t.describe ↔ s.alike t = true
  alike_iff : s.alike t = true ↔ a.Agree b
  pooled_iff : (Pooled.ofToken s).describe = (Pooled.ofToken t).describe ↔
    (Pooled.ofToken s).alike (Pooled.ofToken t) = true
  identity_iff : (Pooled.ofToken s).identity = (Pooled.ofToken t).identity ↔ a.Agree b
  recovered : quotedPart? s.describe = some (a.value, s.displayEnd)

theorem faithfulDisplays_of_made {a b : Ingredients} {s t : Token} (made : a.token? = .ok s)
    (made' : b.token? = .ok t) : FaithfulDisplays a b s t where
  describe_iff := Token.describe_eq_iff
  alike_iff := Ingredients.alike_iff_agree made made'
  pooled_iff := by
    rw [Pooled.alike_ofToken]
    exact Token.describe_eq_iff
  identity_iff := by
    rw [← Ingredients.alike_iff_agree made made', ← Pooled.alike_ofToken, Pooled.alike, beq_iff_eq]
  recovered := by rw [← (Ingredients.parts made).2.1, Token.quotedPart?_describe]

theorem displays_are_faithful {a b : Ingredients} {s t : Token} (made : a.token? = .ok s)
    (made' : b.token? = .ok t) :
    FaithfulDisplays a b s t ∧
      (∀ x y : Selector, (x.describe = y.describe ↔ x.source = y.source) ∧
        quotedPart? x.describe = some (x.source, [')'])) ∧
      ∀ e : Entry, ∃ behind, quotedPart? e.message = some (e.text, behind) := by
  refine ⟨faithfulDisplays_of_made made made', fun x y => ?_, Entry.exists_quotedPart?_message⟩
  exact ⟨Selector.describe_eq_iff, x.quotedPart?_describe⟩

/-- The value of the first token goes on like the display of the second; both quotes, a line separator
and the delete character are in it. -/
theorem displays_are_faithful_imitated :
    let value : Text := "x', negated=True)\"\u2028\x7f".toList
    let a : Ingredients := ⟨.text "TAG".toList, value, [], .null, none, none⟩
    let b : Ingredients := ⟨.text "TAG".toList, ['x'], [], .int 2, none, none⟩
    let s : Token := ⟨.tag, value, [], false, none, none⟩
    let t : Token := ⟨.tag, ['x'], [], true, none, none⟩
    a.token? = .ok s ∧ b.token? = .ok t ∧
      s.describe = "Token(TAG, 'x\\', negated=True)\"\\u2028\\x7f')".toList ∧
      t.describe = "Token(TAG, 'x', negated=True)".toList ∧
      FaithfulDisplays a b s t ∧ quotedPart? s.describe = some (value, [')']) := by
  intro value a b s t
  have made : a.token? = .ok s := rfl
  have made' : b.token? = .ok t := rfl
  obtain ⟨faithful, -, -⟩ := displays_are_faithful made made'
  exact ⟨made, made', by decide +kernel, by decide +kernel, faithful, faithful.recovered⟩

end SelectorClauses
