import SelectorClauses.Grammar.Clause

/-!
The languages of the grammar, said without the automata: which texts are escapes, names,
identifiers and quotations, which clauses are well formed, and which texts are items.
-/
namespace SelectorClauses

/-- What may end the digits of an escape: nothing, a single ending, or a carriage return and a
line feed. -/
def EscapeEnding (t : Text) : Prop :=
  t = [] ∨ t = ['\r', '\n'] ∨ ∃ c, isEscapeEnd c = true ∧ t = [c]

inductive Escape : Text → Prop
  | single (c : Char) : isHexDigit c = false → isEscapeStop c = false → Escape ['\\', c]
  | hex (digits ending : Text) : digits ≠ [] → digits.length ≤ 6 →
      (∀ d ∈ digits, isHexDigit d = true) → EscapeEnding ending →
      Escape ('\\' :: digits ++ ending)

inductive NameUnit : Text → Prop
  | char (c : Char) : isNameChar c = true → NameUnit [c]
  | escape (t : Text) : Escape t → NameUnit t

inductive NameStartUnit : Text → Prop
  | char (c : Char) : isNameStart c = true → NameStartUnit [c]
  | escape (t : Text) : Escape t → NameStartUnit t

def IsName (t : Text) : Prop :=
  ∃ units : List Text, units ≠ [] ∧ (∀ u ∈ units, NameUnit u) ∧ t = units.flatten

def IsIdentifier (t : Text) : Prop :=
  ∃ (hyphen start : Text) (units : List Text), (hyphen = [] ∨ hyphen = ['-']) ∧
    NameStartUnit start ∧ (∀ u ∈ units, NameUnit u) ∧ t = hyphen ++ start ++ units.flatten

def QuotedLineEnd (t : Text) : Prop :=
  t = ['\n'] ∨ t = ['\r', '\n'] ∨ t = ['\r'] ∨ t = ['\x0c']

inductive QuotationUnit (quote : Char) : Text → Prop
  | char (c : Char) : c ≠ quote → c ≠ '\\' → isEscapeStop c = false → QuotationUnit quote [c]
  | lineEnd (t : Text) : QuotedLineEnd t → QuotationUnit quote ('\\' :: t)
  | escape (t : Text) : Escape t → QuotationUnit quote t

def IsQuotation (t : Text) : Prop :=
  ∃ (quote : Char) (units : List Text), (quote = '"' ∨ quote = '\'') ∧
    (∀ u ∈ units, QuotationUnit quote u) ∧ t = quote :: units.flatten ++ [quote]

def Test.WellFormed (t : Test) : Prop := IsName t.operand ∨ IsQuotation t.operand

def Clause.WellFormed : Clause → Prop
  | .tag n | .id n | .cls n | .attr n none => IsIdentifier n
  | .attr n (some t) => IsIdentifier n ∧ t.WellFormed

def IsClause (t : Text) : Prop := ∃ c : Clause, c.WellFormed ∧ t = c.print

def IsItem (t : Text) : Prop :=
  IsClause t ∨ ∃ c, IsClause c ∧ t = negationOpen ++ c ++ [negationClose]

def IsItems (t : Text) : Prop := ∃ items : List Text, (∀ i ∈ items, IsItem i) ∧ t = items.flatten

end SelectorClauses
