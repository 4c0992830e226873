import SelectorClauses.Proofs.Grammar.Committed
import SelectorClauses.Proofs.Token.Next

/-!
What is found at a position of a text, and what the patterns match there. The clause that is found
is the one on which backtracking ends, and the scan that does not go back ends on it as well. Main
statements: `attribute_is_exact`, that an attribute clause can be read in one way only, and
`name_is_longest`, that of the names at a position the longest one is taken.
-/
namespace SelectorClauses

structure Match where
  start : Nat
  stop : Nat
  parts : List (Option Text)
deriving DecidableEq, Repr

def Found.toMatch (f : Found) : Match := ⟨f.start, f.stop, f.parts⟩

def Kind.groups : Kind → List Nat
  | .attr => [1, 2, 3]
  | _ => [1]

def Way.toMatch (k : Kind) (n : Nat) (a : Way) : Match :=
  ⟨n, n + a.taken.length, k.groups.map a.part?⟩

theorem Way.toMatch_ofClause (c : Clause) (n : Nat) (r : Text) :
    (Way.ofClause c r).toMatch c.kind n = Found.toMatch ⟨n, c⟩ := by
  cases c with
  | attr name test => cases test <;> rfl
  | _ => rfl

namespace Pattern

theorem mem_ways_attr_iff {t : Text} {a : Way} : a ∈ (ofKind .attr).ways t ↔
    ∃ c, Clause.read? .attr t = some (c, a.rest) ∧ a = .ofClause c a.rest := by
  rw [finds_ofKind .attr t a]
  constructor
  · intro h
    obtain ⟨split, c, wellFormed, kind, taken, captured⟩ := h
    cases c with
    | attr n test =>
      refine ⟨.attr n test, ?_, ?_⟩
      · rw [split, taken, Clause.read?_attr_print_append wellFormed]
      · rw [Way.ofClause, ← taken, ← captured]
    | _ => cases kind
  · intro h
    obtain ⟨c, read, same⟩ := h
    obtain ⟨split, kind, stands⟩ := Clause.read?_eq_some_iff.mp read
    rw [same]
    exact ⟨split, c, stands.wellFormed, kind, rfl, rfl⟩

theorem way_attr_unique {t : Text} {a b : Way} (memA : a ∈ (ofKind .attr).ways t)
    (memB : b ∈ (ofKind .attr).ways t) : a = b := by
  obtain ⟨c, readA, sameA⟩ := mem_ways_attr_iff.mp memA
  obtain ⟨d, readB, sameB⟩ := mem_ways_attr_iff.mp memB
  obtain ⟨rfl, rest⟩ := by simpa using readA.symm.trans readB
  rw [sameA, sameB, rest]

theorem steady_ofKind (k : Kind) : (ofKind k).Steady := by
  cases k with
  | tag => exact steady_identifier.group 1
  | id => exact (steady_identifier.group 1).one_seq _
  | cls => exact (steady_identifier.group 1).one_seq _
  | attr =>
    funext t
    rw [first?]
    cases all : (ofKind .attr).ways t with
    | nil =>
      cases found : (ofKind .attr).committed? t with
      | none => rfl
      | some a =>
        have mem := mem_ways_of_committed? found
        rw [all] at mem
        contradiction
    | cons a others =>
      have mem : a ∈ (ofKind .attr).ways t := by simp [all]
      obtain ⟨c, read, same⟩ := mem_ways_attr_iff.mp mem
      rw [committed?_ofKind, read, List.head?_cons, same]
      rfl

end Pattern

theorem Clause.search_ofNat {text : Text} {n : Nat} (inside : n ≤ text.length) (k : Kind) :
    search k text n = .ok (find? k text n) :=
  search_of_isSearchable (Text.isSearchable_ofNat inside) k

theorem Clause.read?_of_find? {k : Kind} {text : Text} {n : Nat} {f : Found}
    (h : find? k text n = some f) :
    f.start = n ∧ ∃ r, read? k (text.drop n) = some (f.clause, r) := by
  rw [find?_natCast] at h
  obtain ⟨⟨c, r⟩, read, rfl⟩ := Option.map_eq_some_iff.mp h
  exact ⟨rfl, r, read⟩

/-- The clause that is found is the one on which backtracking ends. -/
theorem find?_toMatch (k : Kind) (text : Text) (n : Nat) :
    (Clause.find? k text n).map Found.toMatch =
      ((Pattern.ofKind k).first? (text.drop n)).map (Way.toMatch k n) := by
  rw [Clause.find?_natCast, ← Pattern.steady_ofKind, Pattern.committed?_ofKind]
  cases read : Clause.read? k (text.drop n) with
  | none => rfl
  | some p =>
    obtain ⟨c, r⟩ := p
    obtain ⟨-, rfl, -⟩ := Clause.read?_eq_some_iff.mp read
    exact congrArg some (Way.toMatch_ofClause c n r).symm

/- Attribute clauses. -/

/-- The texts of attribute clauses, with the parts that they are put together from. -/
inductive AttributeText : Text → List (Option Text) → Prop
  | untested (n : Text) : IsIdentifier n → AttributeText ('[' :: n ++ [']']) [some n, none, none]
  | tested (n : Text) (o : Operator) (v : Text) : IsIdentifier n → IsName v ∨ IsQuotation v →
      AttributeText ('[' :: n ++ o.print ++ v ++ [']']) [some n, some o.print, some v]

theorem attributeText_of_wellFormed {c : Clause} (wellFormed : c.WellFormed)
    (kind : c.kind = .attr) (n : Nat) : AttributeText c.print (Found.parts ⟨n, c⟩) := by
  cases c with
  | attr name test =>
    cases test with
    | none => exact .untested name wellFormed
    | some s =>
      have whole := AttributeText.tested name s.operator s.operand wellFormed.1 wellFormed.2
      simpa [Clause.print, Test.print, Found.parts] using whole
  | _ => cases kind

theorem AttributeText.exists_clause {w : Text} {parts : List (Option Text)}
    (h : AttributeText w parts) : ∃ c : Clause, c.WellFormed ∧ c.kind = .attr ∧ w = c.print ∧
      ∀ n, parts = Found.parts ⟨n, c⟩ := by
  cases h with
  | untested name identifier => exact ⟨.attr name none, identifier, rfl, rfl, fun _ => rfl⟩
  | tested name o v identifier operand =>
    exact ⟨.attr name (some ⟨o, v⟩), ⟨identifier, operand⟩, rfl,
      by simp [Clause.print, Test.print], fun _ => rfl⟩

theorem AttributeText.read? {w : Text} {parts : List (Option Text)} (h : AttributeText w parts)
    (r : Text) : ∃ c : Clause, Clause.read? .attr (w ++ r) = some (c, r) ∧ w = c.print ∧
      ∀ n, parts = Found.parts ⟨n, c⟩ := by
  obtain ⟨c, wellFormed, kind, rfl, same⟩ := h.exists_clause
  cases c with
  | attr name test => exact ⟨_, Clause.read?_attr_print_append wellFormed r, rfl, same⟩
  | _ => cases kind

structure ExactAttribute (text : Text) (n : Nat) : Prop where
  searches : n ≤ text.length → Clause.search .attr text n = .ok (Clause.find? .attr text n)
  unique : ∀ v w r s ps qs, text.drop n = v ++ r → text.drop n = w ++ s →
    AttributeText v ps → AttributeText w qs → v = w ∧ ps = qs
  missing : Clause.find? .attr text n = none ↔
    ∀ w r ps, text.drop n = w ++ r → ¬ AttributeText w ps
  found : ∀ f, Clause.find? .attr text n = some f →
    ∃ w r, text.drop n = w ++ r ∧ AttributeText w f.parts ∧ f.start = n ∧ f.stop = n + w.length
  paths : ∀ a ∈ (Pattern.ofKind .attr).ways (text.drop n),
    ∀ b ∈ (Pattern.ofKind .attr).ways (text.drop n), a = b
  searched : (Clause.find? .attr text n).map Found.toMatch =
    ((Pattern.ofKind .attr).first? (text.drop n)).map (Way.toMatch .attr n)
  scanned : (Clause.find? .attr text n).map Found.toMatch =
    ((Pattern.ofKind .attr).committed? (text.drop n)).map (Way.toMatch .attr n)
  escapes : ∀ i, ∀ b ∈ Pattern.escape.ways (text.drop i),
    ∃ a, Pattern.escape.committed? (text.drop i) = some a ∧ b.taken.length ≤ a.taken.length

/-- An attribute clause is read in one way, however many ways there are to read its escapes. -/
theorem attribute_is_exact (text : Text) (n : Nat) : ExactAttribute text n where
  searches inside := Clause.search_ofNat inside .attr
  unique := by
    intro v w r s ps qs splitV splitW textV textW
    obtain ⟨c, readV, rfl, partsV⟩ := textV.read? r
    obtain ⟨d, readW, rfl, partsW⟩ := textW.read? s
    rw [← splitV] at readV
    rw [← splitW] at readW
    obtain ⟨rfl, rfl⟩ := by simpa using readV.symm.trans readW
    exact ⟨rfl, (partsV n).trans (partsW n).symm⟩
  missing := by
    rw [Clause.find?_natCast, Option.map_eq_none_iff]
    constructor
    · intro nothing w r ps split whole
      obtain ⟨c, read, -, -⟩ := whole.read? r
      rw [← split, nothing] at read
      contradiction
    · intro no_attribute
      cases read : Clause.read? .attr (text.drop n) with
      | none => rfl
      | some p =>
        obtain ⟨split, kind, stands⟩ := Clause.read?_eq_some_iff.mp read
        exact absurd (attributeText_of_wellFormed stands.wellFormed kind n)
          (no_attribute _ _ _ split)
  found := by
    intro f found
    obtain ⟨start, r, read⟩ := Clause.read?_of_find? found
    obtain ⟨split, kind, stands⟩ := Clause.read?_eq_some_iff.mp read
    exact ⟨f.clause.print, r, split, attributeText_of_wellFormed stands.wellFormed kind f.start,
      start, by rw [Found.stop, start]⟩
  paths := fun _ memA _ memB => Pattern.way_attr_unique memA memB
  searched := find?_toMatch .attr text n
  scanned := by rw [Pattern.steady_ofKind, find?_toMatch]
  escapes := fun _ _ => Pattern.committed?_escape_longest

/- Names. -/

theorem Clause.print_eq_sigil_append {c : Clause} (notAttr : c.kind ≠ .attr) :
    c.print = c.kind.sigil ++ c.name := by
  cases c with
  | attr name test => exact absurd rfl notAttr
  | _ => rfl

theorem exists_clause_of_isIdentifier {k : Kind} (notAttr : k ≠ .attr) {name : Text}
    (identifier : IsIdentifier name) : ∃ c : Clause, c.WellFormed ∧ c.kind = k ∧ c.name = name := by
  cases k with
  | tag => exact ⟨.tag name, identifier, rfl, rfl⟩
  | id => exact ⟨.id name, identifier, rfl, rfl⟩
  | cls => exact ⟨.cls name, identifier, rfl, rfl⟩
  | attr => exact absurd rfl notAttr

theorem Clause.Stands.length_le {c : Clause} {other r s : Text} (stands : c.Stands r)
    (notAttr : c.kind ≠ .attr) (identifier : IsIdentifier other)
    (same : c.name ++ r = other ++ s) : other.length ≤ c.name.length := by
  rcases List.append_eq_append_iff.mp same with ⟨v, rfl, behind⟩ | ⟨v, before, -⟩
  · have nothing := stands.ends notAttr v s behind identifier
    simp [nothing]
  · rw [before, List.length_append]
    omega

theorem Pattern.length_taken_le_first? {k : Kind} (notAttr : k ≠ .attr) {t : Text} {a b : Way}
    (first : (ofKind k).first? t = some a) (mem : b ∈ (ofKind k).ways t) :
    b.taken.length ≤ a.taken.length := by
  obtain ⟨splitB, d, wellFormed, kind, taken, -⟩ := (finds_ofKind k t b).mp mem
  rw [← steady_ofKind, committed?_ofKind] at first
  obtain ⟨⟨c, r⟩, read, rfl⟩ := Option.map_eq_some_iff.mp first
  obtain ⟨split, rfl, stands⟩ := Clause.read?_eq_some_iff.mp read
  have printC := Clause.print_eq_sigil_append notAttr
  have printD := Clause.print_eq_sigil_append (c := d) (by rw [kind]; exact notAttr)
  rw [split, taken, printC, printD, kind, List.append_assoc, List.append_assoc] at splitB
  have shorter := stands.length_le notAttr wellFormed.isIdentifier
    (List.append_cancel_left splitB)
  change b.taken.length ≤ c.print.length
  rw [taken, printC, printD, kind, List.length_append, List.length_append]
  omega

structure LongestName (k : Kind) (text : Text) (n : Nat) : Prop where
  searches : n ≤ text.length → Clause.search k text n = .ok (Clause.find? k text n)
  missing : Clause.find? k text n = none ↔
    ∀ name r, text.drop n = k.sigil ++ name ++ r → ¬ IsIdentifier name
  found : ∀ f, Clause.find? k text n = some f →
    ∃ name r, text.drop n = k.sigil ++ name ++ r ∧ IsIdentifier name ∧
      (∀ other s, text.drop n = k.sigil ++ other ++ s → IsIdentifier other →
        other.length ≤ name.length) ∧
      f.start = n ∧ f.stop = n + (k.sigil ++ name).length ∧ f.parts = [some name]
  searched : (Clause.find? k text n).map Found.toMatch =
    ((Pattern.ofKind k).first? (text.drop n)).map (Way.toMatch k n)
  scanned : (Clause.find? k text n).map Found.toMatch =
    ((Pattern.ofKind k).committed? (text.drop n)).map (Way.toMatch k n)
  longest : ∀ a, (Pattern.ofKind k).first? (text.drop n) = some a →
    ∀ b ∈ (Pattern.ofKind k).ways (text.drop n), b.taken.length ≤ a.taken.length

/-- A greedy search can end early in general; on names, also with escapes in them, it does not. -/
theorem name_is_longest {k : Kind} (notAttr : k ≠ .attr) (text : Text) (n : Nat) :
    LongestName k text n where
  searches inside := Clause.search_ofNat inside k
  missing := by
    rw [Clause.find?_natCast, Option.map_eq_none_iff]
    constructor
    · intro nothing name r split identifier
      obtain ⟨c, wellFormed, rfl, rfl⟩ := exists_clause_of_isIdentifier notAttr identifier
      obtain ⟨p, read⟩ := Clause.exists_read?_print_append wellFormed r
      rw [Clause.print_eq_sigil_append notAttr, ← split, nothing] at read
      contradiction
    · intro no_name
      cases read : Clause.read? k (text.drop n) with
      | none => rfl
      | some p =>
        obtain ⟨split, rfl, stands⟩ := Clause.read?_eq_some_iff.mp read
        rw [Clause.print_eq_sigil_append notAttr] at split
        exact absurd stands.wellFormed.isIdentifier (no_name _ _ split)
  found := by
    intro f found
    obtain ⟨start, r, read⟩ := Clause.read?_of_find? found
    obtain ⟨split, rfl, stands⟩ := Clause.read?_eq_some_iff.mp read
    have print := Clause.print_eq_sigil_append notAttr
    refine ⟨f.clause.name, r, print ▸ split, stands.wellFormed.isIdentifier, ?_, start, ?_, ?_⟩
    · intro other s splitOther identifier
      rw [split, print, List.append_assoc, List.append_assoc] at splitOther
      exact stands.length_le notAttr identifier (List.append_cancel_left splitOther)
    · rw [Found.stop, start, print]
    · unfold Found.parts
      split
      · next attr => exact absurd (by rw [attr]; rfl) notAttr
      · rfl
  searched := find?_toMatch k text n
  scanned := by rw [Pattern.steady_ofKind, find?_toMatch]
  longest := fun _ first _ mem => Pattern.length_taken_le_first? notAttr first mem

/-- The first escape takes the blank behind its digit, and the second one the line end. -/
theorem name_is_longest_escaped :
    Kind.cls ≠ .attr ∧
      Clause.find? .cls "a.-\\31 \\2f\r\n9[b]".toList 1 = some ⟨1, .cls "-\\31 \\2f\r\n9".toList⟩ ∧
      LongestName .cls "a.-\\31 \\2f\r\n9[b]".toList 1 :=
  ⟨by decide, by decide +kernel, name_is_longest (by decide) _ 1⟩

end SelectorClauses
