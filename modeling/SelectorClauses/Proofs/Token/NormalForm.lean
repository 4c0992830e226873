import Mathlib.Data.List.Chain
import SelectorClauses.Proofs.Grammar.Reading
import SelectorClauses.Token.Basic

/-!
Normal forms. A token is well formed if its value is what its other parts print, and a list of
such tokens is in normal form if no plain tag follows a token whose identifier it would carry on.
Main statement: the texts that are made of items are exactly the texts of normal forms.
-/
namespace SelectorClauses

def Kind.sigil : Kind → Text
  | .tag => []
  | .id => ['#']
  | .cls => ['.']
  | .attr => ['[']

namespace Token

def print (t : Token) : Text :=
  (if t.negated then negationOpen else []) ++ t.kind.sigil ++ t.data ++ t.operator.getD []
    ++ t.operand.getD [] ++ (if t.kind = .attr then [']'] else [])
    ++ (if t.negated then [negationClose] else [])

def TestFits (t : Token) : Prop :=
  t.operator = none ∧ t.operand = none ∨
    t.kind = .attr ∧ ∃ (o : Operator) (v : Text), t.operator = some o.print ∧ t.operand = some v ∧
      (IsName v ∨ IsQuotation v)

structure WellFormed (t : Token) : Prop where
  value_eq : t.value = t.print
  data : IsIdentifier t.data
  test : t.TestFits

/-- No mark closes the token, so the identifier at its end could go on. -/
def isOpen (t : Token) : Bool := !t.negated && t.kind != .attr

def isPlainTag (t : Token) : Bool := !t.negated && t.kind == .tag

def Apart (s t : Token) : Prop := ¬ (s.isOpen = true ∧ t.isPlainTag = true)

structure NormalForm (ts : List Token) : Prop where
  wellFormed : ∀ t ∈ ts, t.WellFormed
  apart : ts.IsChain Apart

def textOf (ts : List Token) : Text := (ts.map value).flatten

@[simp] theorem textOf_nil : textOf [] = [] := rfl

@[simp] theorem textOf_cons (t : Token) (ts : List Token) :
    textOf (t :: ts) = t.value ++ textOf ts := rfl

@[simp] theorem textOf_append (ss ts : List Token) : textOf (ss ++ ts) = textOf ss ++ textOf ts := by
  simp [textOf]

/- Tokens and clauses. -/

@[simp] theorem isOpen_ofClause (negated : Bool) (c : Clause) :
    (ofClause negated c).isOpen = (!negated && c.kind != .attr) := rfl

theorem value_ofClause_false (c : Clause) : (ofClause false c).value = c.print := rfl

theorem value_ofClause_true (c : Clause) :
    (ofClause true c).value = negationOpen ++ c.print ++ [negationClose] := rfl

theorem print_ofClause (negated : Bool) (c : Clause) :
    (ofClause negated c).print = (ofClause negated c).value := by
  have printed : c.print = c.kind.sigil ++ c.name ++ (c.test?.map fun t => t.operator.print).getD []
      ++ (c.test?.map Test.operand).getD [] ++ (if c.kind = .attr then [']'] else []) := by
    cases c with
    | attr n test => cases test <;> simp [Clause.print, Clause.kind, Clause.name, Clause.test?,
        Kind.sigil, Test.print]
    | _ => simp [Clause.print, Clause.kind, Clause.name, Clause.test?, Kind.sigil]
  cases negated with
  | false => simpa [print, ofClause] using printed.symm
  | true =>
    simp only [print, ofClause, if_true, printed, List.append_assoc]

theorem wellFormed_ofClause (negated : Bool) {c : Clause} (h : c.WellFormed) :
    (ofClause negated c).WellFormed := by
  refine ⟨(print_ofClause negated c).symm, h.isIdentifier, ?_⟩
  cases c with
  | attr n test =>
    cases test with
    | none => exact Or.inl ⟨rfl, rfl⟩
    | some s => exact Or.inr ⟨rfl, s.operator, s.operand, rfl, rfl, h.2⟩
  | _ => exact Or.inl ⟨rfl, rfl⟩

theorem WellFormed.exists_ofClause {t : Token} (h : t.WellFormed) :
    ∃ c : Clause, c.WellFormed ∧ t = ofClause t.negated c := by
  -- the parts determine the token, since its value is what they print
  have same : ∀ c : Clause, c.kind = t.kind → c.name = t.data →
      (c.test?.map fun s => s.operator.print) = t.operator → c.test?.map Test.operand = t.operand →
      t = ofClause t.negated c := by
    intro c kind data operator operand
    have value : (ofClause t.negated c).value = t.value := by
      rw [← print_ofClause, h.value_eq]
      simp only [print, ofClause, kind, data, operator, operand]
    cases t
    simp_all [ofClause]
  rcases h.test with ⟨operator, operand⟩ | ⟨attr, o, v, operator, operand, fits⟩
  · cases kind : t.kind with
    | tag =>
      exact ⟨.tag t.data, h.data, same _ kind.symm rfl operator.symm operand.symm⟩
    | id =>
      exact ⟨.id t.data, h.data, same _ kind.symm rfl operator.symm operand.symm⟩
    | cls =>
      exact ⟨.cls t.data, h.data, same _ kind.symm rfl operator.symm operand.symm⟩
    | attr =>
      exact ⟨.attr t.data none, h.data, same _ kind.symm rfl operator.symm operand.symm⟩
  · exact ⟨.attr t.data (some ⟨o, v⟩), ⟨h.data, fits⟩,
      same _ attr.symm rfl operator.symm operand.symm⟩

theorem WellFormed.value_ne_nil {t : Token} (h : t.WellFormed) : t.value ≠ [] := by
  obtain ⟨c, wellFormed, same⟩ := h.exists_ofClause
  have printed := wellFormed.print_ne_nil
  rw [same]
  cases t.negated with
  | false => exact printed
  | true => simp [value_ofClause_true]

theorem isItem_iff {v : Text} : IsItem v ↔ ∃ t : Token, t.WellFormed ∧ t.value = v := by
  constructor
  · intro h
    rcases h with ⟨c, wellFormed, rfl⟩ | ⟨_, ⟨c, wellFormed, rfl⟩, rfl⟩
    · exact ⟨ofClause false c, wellFormed_ofClause false wellFormed, rfl⟩
    · exact ⟨ofClause true c, wellFormed_ofClause true wellFormed, rfl⟩
  · intro h
    obtain ⟨t, wellFormed, rfl⟩ := h
    obtain ⟨c, clause, same⟩ := wellFormed.exists_ofClause
    cases sign : t.negated with
    | false =>
      rw [sign] at same
      exact Or.inl ⟨c, clause, by rw [same]; rfl⟩
    | true =>
      rw [sign] at same
      exact Or.inr ⟨c.print, ⟨c, clause, rfl⟩, by rw [same]; rfl⟩

/- Bringing a list of tokens to normal form. -/

theorem isOpen_of_isPlainTag {t : Token} (h : t.isPlainTag = true) : t.isOpen = true := by
  simp only [isPlainTag, Bool.and_eq_true, beq_iff_eq] at h
  simp [isOpen, h.1, h.2]

theorem TestFits.untested {t : Token} (h : t.TestFits) (isOpen : t.isOpen = true) :
    t.operator = none ∧ t.operand = none := by
  rcases h with untested | ⟨attr, -⟩
  · exact untested
  · simp [Token.isOpen, attr] at isOpen

theorem WellFormed.value_eq_of_isOpen {t : Token} (h : t.WellFormed) (isOpen : t.isOpen = true) :
    t.value = t.kind.sigil ++ t.data := by
  obtain ⟨operator, operand⟩ := h.test.untested isOpen
  simp only [Token.isOpen, Bool.and_eq_true, Bool.not_eq_true', bne_iff_ne, ne_eq] at isOpen
  rw [h.value_eq]
  simp [print, isOpen.1, isOpen.2, operator, operand]

theorem value_eq_of_isPlainTag {t : Token} (wellFormed : t.WellFormed)
    (h : t.isPlainTag = true) : t.value = t.data := by
  have value := wellFormed.value_eq_of_isOpen (isOpen_of_isPlainTag h)
  simp only [isPlainTag, Bool.and_eq_true, beq_iff_eq] at h
  simpa [h.2, Kind.sigil] using value

def carryOn (v : Text) (t : Token) : Token := { t with value := t.value ++ v, data := t.data ++ v }

@[simp] theorem carryOn_nil (t : Token) : t.carryOn [] = t := by simp [carryOn]

@[simp] theorem kind_carryOn (v : Text) (t : Token) : (t.carryOn v).kind = t.kind := rfl

@[simp] theorem isOpen_carryOn (v : Text) (t : Token) : (t.carryOn v).isOpen = t.isOpen := rfl

theorem wellFormed_of_isOpen {t : Token} (isOpen : t.isOpen = true)
    (value : t.value = t.kind.sigil ++ t.data) (data : IsIdentifier t.data)
    (untested : t.operator = none ∧ t.operand = none) : t.WellFormed := by
  refine ⟨?_, data, Or.inl untested⟩
  simp only [Token.isOpen, Bool.and_eq_true, Bool.not_eq_true', bne_iff_ne, ne_eq] at isOpen
  simp [print, isOpen.1, isOpen.2, untested.1, untested.2, value]

theorem WellFormed.carryOn {t : Token} {v : Text} (h : t.WellFormed) (isOpen : t.isOpen = true)
    (longer : IsIdentifier (t.data ++ v)) : (t.carryOn v).WellFormed := by
  have value : (t.carryOn v).value = (t.carryOn v).kind.sigil ++ (t.carryOn v).data := by
    simp [Token.carryOn, h.value_eq_of_isOpen isOpen]
  exact wellFormed_of_isOpen (t := t.carryOn v) isOpen value longer (h.test.untested isOpen)

/-- A token whose identifier is cut short where another identifier ends. -/
theorem WellFormed.exists_carryOn {t : Token} {d v : Text} (h : t.WellFormed)
    (isOpen : t.isOpen = true) (split : t.data = d ++ v) (identifier : IsIdentifier d) :
    ∃ s : Token, t = s.carryOn v ∧ s.WellFormed ∧ s.data = d := by
  have value := h.value_eq_of_isOpen isOpen
  refine ⟨{ t with value := t.kind.sigil ++ d, data := d }, ?_, ?_, rfl⟩
  · rw [split, ← List.append_assoc] at value
    rw [Token.carryOn, ← value, ← split]
  · exact wellFormed_of_isOpen isOpen rfl identifier (h.test.untested isOpen)

/-- Puts a token in front of a normal form; a plain tag that it carries on becomes part of it. -/
def prepend (t : Token) : List Token → List Token
  | [] => [t]
  | s :: ts => if t.isOpen && s.isPlainTag then t.carryOn s.data :: ts else t :: s :: ts

theorem NormalForm.tail {t : Token} {ts : List Token} (h : NormalForm (t :: ts)) :
    NormalForm ts := ⟨fun s mem => h.wellFormed s (by simp [mem]), h.apart.tail⟩

theorem normalForm_concat_iff {ts : List Token} {t : Token} :
    NormalForm (ts ++ [t]) ↔ NormalForm ts ∧ t.WellFormed ∧ ∀ s ∈ ts.getLast?, Apart s t := by
  constructor
  · intro h
    refine ⟨⟨fun s mem => h.wellFormed s (by simp [mem]), h.apart.left_of_append⟩,
      h.wellFormed t (by simp), ?_⟩
    intro s mem
    exact (List.isChain_append.mp h.apart).2.2 s mem t (by simp)
  · intro h
    obtain ⟨before, last, apart⟩ := h
    constructor
    · intro s mem
      rcases List.mem_append.mp mem with mem | mem
      · exact before.wellFormed s mem
      · rw [List.mem_singleton.mp mem]
        exact last
    · apply before.apart.append (.singleton t)
      intro s mem u mem'
      obtain rfl : t = u := by simpa using mem'
      exact apart s mem

theorem textOf_prepend {t : Token} {ts : List Token} (normal : NormalForm ts) :
    textOf (prepend t ts) = t.value ++ textOf ts := by
  cases ts with
  | nil => rfl
  | cons s ts =>
    by_cases merges : (t.isOpen && s.isPlainTag) = true
    · have plain := (Bool.and_eq_true_iff.mp merges).2
      have same := value_eq_of_isPlainTag (normal.wellFormed s (by simp)) plain
      simp [prepend, merges, carryOn, same]
    · simp [prepend, merges]

theorem normalForm_prepend {t : Token} {ts : List Token} (wellFormed : t.WellFormed)
    (normal : NormalForm ts) : NormalForm (prepend t ts) := by
  cases ts with
  | nil => exact ⟨by simpa [prepend] using wellFormed, .singleton t⟩
  | cons s ts =>
    have first := normal.wellFormed s (by simp)
    by_cases merges : (t.isOpen && s.isPlainTag) = true
    · rw [prepend, if_pos merges]
      obtain ⟨isOpen, plain⟩ := Bool.and_eq_true_iff.mp merges
      refine ⟨?_, ?_⟩
      · intro u mem
        rcases List.mem_cons.mp mem with rfl | mem
        · exact wellFormed.carryOn isOpen (wellFormed.data.append first.data)
        · exact normal.tail.wellFormed u mem
      · -- what is apart from the tag is no plain tag, so it is apart from the longer token too
        apply normal.tail.apart.cons
        intro u mem both
        have apart := (List.isChain_cons.mp normal.apart).1 u mem
        exact apart ⟨isOpen_of_isPlainTag plain, both.2⟩
    · rw [prepend, if_neg merges]
      refine ⟨?_, normal.apart.cons_cons (by simpa [Apart] using merges)⟩
      intro u mem
      rcases List.mem_cons.mp mem with rfl | mem
      · exact wellFormed
      · exact normal.wellFormed u mem

theorem isItems_textOf {ts : List Token} (wellFormed : ∀ t ∈ ts, t.WellFormed) :
    IsItems (textOf ts) := by
  refine ⟨ts.map value, ?_, rfl⟩
  intro v mem
  obtain ⟨t, ht, rfl⟩ := List.mem_map.mp mem
  exact isItem_iff.mpr ⟨t, wellFormed t ht, rfl⟩

theorem exists_normalForm_of_isItems {u : Text} (h : IsItems u) :
    ∃ ts, NormalForm ts ∧ u = textOf ts := by
  obtain ⟨items, all, rfl⟩ := h
  induction items with
  | nil => exact ⟨[], ⟨by simp, .nil⟩, rfl⟩
  | cons item items ih =>
    obtain ⟨ts, normal, same⟩ := ih fun i mem => all i (by simp [mem])
    obtain ⟨t, wellFormed, rfl⟩ := isItem_iff.mp (all item (by simp))
    refine ⟨prepend t ts, normalForm_prepend wellFormed normal, ?_⟩
    rw [textOf_prepend normal, List.flatten_cons, same]

end Token

end SelectorClauses
