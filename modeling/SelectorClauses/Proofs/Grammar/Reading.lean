import SelectorClauses.Proofs.Grammar.Identifier
import SelectorClauses.Proofs.Grammar.Quoting

/-!
Clauses at the start of a text. Main statements: `read?_eq_some_iff` says which clause of a kind
is read, `kind_eq_of_read?` that no two kinds are read at one place, and `first?_eq_some_iff` and
`first?_eq_none_iff` what is read when every kind is tried.
-/
namespace SelectorClauses

namespace Test

theorem operand?_sound {t v r : Text} (h : operand? t = some (v, r)) :
    IsName v ∨ IsQuotation v := by
  unfold operand? at h
  split at h
  · next name => exact Or.inl (Name.name?_eq_some_iff.mp (name.trans h)).2.1
  · exact Or.inr (Quotation.quotation?_eq_some_iff.mp h).2

theorem operand?_append_cons {v : Text} {c : Char} (operand : IsName v ∨ IsQuotation v)
    (stop : continuesName c = false) (r : Text) :
    operand? (v ++ c :: r) = some (v, c :: r) := by
  unfold operand?
  rcases operand with name | quotation
  · rw [Name.name?_append_cons name stop]
  · -- no name begins with a quote
    have notName : Name.name? (v ++ c :: r) = none := by
      refine Name.name?_eq_none_iff.mpr ?_
      intro w r' same name
      obtain ⟨quote, units, isQuote, -, rfl⟩ := quotation
      obtain ⟨nonempty, tail⟩ := isName_iff.mp name
      cases w with
      | nil => exact nonempty rfl
      | cons d w =>
        obtain ⟨rfl, -⟩ := List.cons.inj (by simpa using same)
        rw [nameTail_cons] at tail
        rcases isQuote with rfl | rfl <;> simp [isNameChar, isNameStart] at tail
    rw [notName]
    exact Quotation.quotation?_eq_some_iff.mpr ⟨rfl, quotation⟩

theorem wellFormed_of_read? {t r : Text} {s : Test} (h : read? t = some (s, r)) :
    s.WellFormed := by
  simp only [read?, Option.bind_eq_bind, Option.bind_eq_some_iff, Prod.exists, Option.pure_def,
    Option.some.injEq, Prod.mk.injEq] at h
  obtain ⟨o, u, -, v, w, operand, rfl, rfl⟩ := h
  exact operand?_sound operand

theorem read?_print_append_cons {s : Test} {c : Char} (wellFormed : s.WellFormed)
    (stop : continuesName c = false) (r : Text) :
    read? (s.print ++ c :: r) = some (s, c :: r) := by
  simp [read?, print, Operator.read?_print, operand?_append_cons wellFormed stop]

end Test

theorem Operator.continuesName_of_print {o : Operator} {t : Text} :
    ∀ c ∈ (o.print ++ t).head?, continuesName c = false := by
  cases o <;> simp [print] <;> decide

namespace Clause

/-- A clause in front of a text: if an identifier is at its end, the text does not carry it on. -/
structure Stands (c : Clause) (rest : Text) : Prop where
  wellFormed : c.WellFormed
  ends : c.kind ≠ .attr → Name.EndsAt c.name rest

theorem WellFormed.isIdentifier {c : Clause} (h : c.WellFormed) : IsIdentifier c.name := by
  cases c with
  | tag n => exact h
  | id n => exact h
  | cls n => exact h
  | attr n test =>
    cases test with
    | none => exact h
    | some s => exact h.1

theorem stands_of_head {c : Clause} {rest : Text} (wellFormed : c.WellFormed)
    (stop : ∀ d ∈ rest.head?, continuesName d = false) : c.Stands rest :=
  ⟨wellFormed, fun _ => Name.endsAt_of_head wellFormed.isIdentifier stop⟩

theorem stands_of_map_identifier? {f : Text → Clause} (named : ∀ n, (f n).name = n)
    (notAttr : ∀ n, (f n).kind ≠ .attr) {t r : Text} {c : Clause}
    (h : ((Name.identifier? t).map fun (n, u) => (f n, u)) = some (c, r)) : c.Stands r := by
  obtain ⟨⟨n, u⟩, name, made⟩ := Option.map_eq_some_iff.mp h
  obtain ⟨rfl, rfl⟩ := by simpa using made
  obtain ⟨-, identifier, ends⟩ := Name.identifier?_eq_some_iff.mp name
  rw [← named n] at identifier ends
  have unlike := notAttr n
  generalize f n = d at identifier ends unlike ⊢
  refine ⟨?_, fun _ => ends⟩
  cases d with
  | attr m test => exact absurd rfl unlike
  | _ => exact identifier

theorem Stands.identifier? {c : Clause} {r : Text} (stands : c.Stands r)
    (notAttr : c.kind ≠ .attr) : Name.identifier? (c.name ++ r) = some (c.name, r) :=
  Name.identifier?_eq_some_iff.mpr ⟨rfl, stands.wellFormed.isIdentifier, stands.ends notAttr⟩

theorem wellFormed_of_attr? {t r : Text} {c : Clause} (h : attr? t = some (c, r)) :
    c.WellFormed := by
  simp only [attr?, Option.bind_eq_bind, Option.bind_eq_some_iff, Prod.exists] at h
  obtain ⟨n, u, name, h⟩ := h
  have identifier := (Name.identifier?_eq_some_iff.mp name).2.1
  split at h
  · simp only [Option.pure_def, Option.some.injEq, Prod.mk.injEq] at h
    obtain ⟨rfl, -⟩ := h
    exact identifier
  · simp only [Option.bind_eq_some_iff, Prod.exists] at h
    obtain ⟨s, v, test, h⟩ := h
    split at h
    · simp only [Option.pure_def, Option.some.injEq, Prod.mk.injEq] at h
      obtain ⟨rfl, -⟩ := h
      exact ⟨identifier, Test.wellFormed_of_read? test⟩
    · simp at h

theorem read?_attr_print_append {n : Text} {test : Option Test}
    (wellFormed : (attr n test).WellFormed) (r : Text) :
    read? .attr ((attr n test).print ++ r) = some (attr n test, r) := by
  cases test with
  | none =>
    have name : Name.identifier? (n ++ ']' :: r) = some (n, ']' :: r) :=
      Name.identifier?_append_of_head wellFormed (by simp; decide)
    simp [print, read?, attr?, name]
  | some s =>
    have name : Name.identifier? (n ++ (s.print ++ ']' :: r)) = some (n, s.print ++ ']' :: r) := by
      refine Name.identifier?_append_of_head wellFormed.1 ?_
      simpa [Test.print] using
        Operator.continuesName_of_print (o := s.operator) (t := s.operand ++ ']' :: r)
    have test := Test.read?_print_append_cons wellFormed.2 (c := ']') (by decide) r
    have notClosed : ∀ rest, s.print ++ ']' :: r ≠ ']' :: rest := by
      intro rest
      cases h : s.operator <;> simp [Test.print, Operator.print, h]
    simp only [print, read?, attr?, List.cons_append, List.append_assoc, List.nil_append, name,
      Option.bind_eq_bind, Option.bind_some, test]
    rfl

theorem read?_eq_some_iff {k : Kind} {t r : Text} {c : Clause} :
    read? k t = some (c, r) ↔ t = c.print ++ r ∧ c.kind = k ∧ c.Stands r := by
  constructor
  · intro h
    refine ⟨eq_print_of_read? h, kind_of_read? h, ?_⟩
    unfold read? at h
    split at h
    · exact stands_of_map_identifier? (f := tag) (fun _ => rfl) (by simp [kind]) h
    · exact stands_of_map_identifier? (f := id) (fun _ => rfl) (by simp [kind]) h
    · exact stands_of_map_identifier? (f := cls) (fun _ => rfl) (by simp [kind]) h
    · exact ⟨wellFormed_of_attr? h, fun notAttr => absurd (kind_of_attr? h) notAttr⟩
    · simp at h
  · intro h
    obtain ⟨rfl, rfl, stands⟩ := h
    cases c with
    | tag n =>
      have name : Name.identifier? (n ++ r) = some (n, r) := stands.identifier? (by simp [kind])
      simp [read?, kind, print, name]
    | id n =>
      have name : Name.identifier? (n ++ r) = some (n, r) := stands.identifier? (by simp [kind])
      simp [read?, kind, print, name]
    | cls n =>
      have name : Name.identifier? (n ++ r) = some (n, r) := stands.identifier? (by simp [kind])
      simp [read?, kind, print, name]
    | attr n test => exact read?_attr_print_append stands.wellFormed r

def kindOfHead (c : Char) : Kind :=
  if c = '#' then .id else if c = '.' then .cls else if c = '[' then .attr else .tag

theorem kind_eq_kindOfHead {c : Clause} {d : Char} {u r : Text} (wellFormed : c.WellFormed)
    (same : d :: u = c.print ++ r) : c.kind = kindOfHead d := by
  cases c with
  | tag n =>
    cases n with
    | nil => exact absurd rfl wellFormed.isIdentifier.ne_nil
    | cons e n =>
      obtain ⟨rfl, -⟩ := List.cons.inj same
      have inName := wellFormed.isIdentifier.continuesName_head
      have notHash : d ≠ '#' := ne_of_apply_ne continuesName (by rw [inName]; decide)
      have notStop : d ≠ '.' := ne_of_apply_ne continuesName (by rw [inName]; decide)
      have notBracket : d ≠ '[' := ne_of_apply_ne continuesName (by rw [inName]; decide)
      simp [kind, kindOfHead, notHash, notStop, notBracket]
  | id n =>
    obtain ⟨rfl, -⟩ := List.cons.inj same
    rfl
  | cls n =>
    obtain ⟨rfl, -⟩ := List.cons.inj same
    rfl
  | attr n test =>
    have bracket : d = '[' := by
      cases test with
      | none => exact (List.cons.inj same).1
      | some s => exact (List.cons.inj same).1
    subst bracket
    rfl

theorem WellFormed.print_append_ne_negationOpen {c : Clause} (h : c.WellFormed) (r u : Text) :
    c.print ++ r ≠ negationOpen ++ u := by
  intro same
  cases c with
  | tag n =>
    cases n with
    | nil => exact h.isIdentifier.ne_nil rfl
    | cons d n =>
      obtain ⟨rfl, -⟩ := List.cons.inj same
      have inName := h.isIdentifier.continuesName_head
      revert inName
      decide
  | attr n test => cases test <;> simp [print, negationOpen] at same
  | _ => simp [print, negationOpen] at same

theorem WellFormed.print_ne_nil {c : Clause} (h : c.WellFormed) : c.print ≠ [] := by
  cases c with
  | tag n => exact h.isIdentifier.ne_nil
  | attr n test => cases test <;> simp [print]
  | _ => simp [print]

theorem kind_eq_of_print_append_eq {b c : Clause} {r s : Text} (hb : b.WellFormed)
    (hc : c.WellFormed) (same : b.print ++ r = c.print ++ s) : b.kind = c.kind := by
  obtain ⟨d, u, split⟩ := List.exists_cons_of_ne_nil hb.print_ne_nil
  have atB : d :: (u ++ r) = b.print ++ r := by rw [split]; rfl
  rw [kind_eq_kindOfHead hb atB, kind_eq_kindOfHead hc (atB.trans same)]

theorem kind_eq_of_read? {j k : Kind} {t : Text} {p q : Clause × Text}
    (hj : read? j t = some p) (hk : read? k t = some q) : j = k := by
  obtain ⟨splitP, rfl, standsP⟩ := read?_eq_some_iff.mp hj
  obtain ⟨splitQ, rfl, standsQ⟩ := read?_eq_some_iff.mp hk
  exact kind_eq_of_print_append_eq standsP.wellFormed standsQ.wellFormed
    (splitP.symm.trans splitQ)

theorem exists_read?_print_append {c : Clause} (wellFormed : c.WellFormed) (rest : Text) :
    ∃ p, read? c.kind (c.print ++ rest) = some p := by
  obtain ⟨v, r, -, found⟩ := Name.exists_identifier?_append wellFormed.isIdentifier rest
  cases c with
  | tag n =>
    simp only [name] at found
    exact ⟨(.tag (n ++ v), r), by simp [read?, kind, print, found]⟩
  | id n =>
    simp only [name] at found
    exact ⟨(.id (n ++ v), r), by simp [read?, kind, print, found]⟩
  | cls n =>
    simp only [name] at found
    exact ⟨(.cls (n ++ v), r), by simp [read?, kind, print, found]⟩
  | attr n test => exact ⟨(.attr n test, rest), read?_attr_print_append wellFormed rest⟩

def first? (t : Text) : Option (Clause × Text) := Kind.all.findSome? fun k => read? k t

theorem first?_eq_of_read? {k : Kind} {t : Text} {p : Clause × Text} (h : read? k t = some p) :
    first? t = some p := by
  have others : ∀ j, j ≠ k → read? j t = none := by
    intro j different
    cases found : read? j t with
    | none => rfl
    | some q => exact absurd (kind_eq_of_read? found h) different
  cases k <;> simp [first?, Kind.all, List.findSome?, h, others]

theorem exists_read?_of_first? {t : Text} {p : Clause × Text} (h : first? t = some p) :
    ∃ k, read? k t = some p := by
  obtain ⟨k, -, found⟩ := List.exists_of_findSome?_eq_some h
  exact ⟨k, found⟩

theorem read?_eq_none_of_first? {t : Text} (h : first? t = none) (k : Kind) :
    read? k t = none := by
  cases found : read? k t with
  | none => rfl
  | some p => simp [first?_eq_of_read? found] at h

theorem first?_eq_some_iff {t r : Text} {c : Clause} :
    first? t = some (c, r) ↔ t = c.print ++ r ∧ c.Stands r := by
  constructor
  · intro h
    obtain ⟨k, found⟩ := exists_read?_of_first? h
    obtain ⟨split, -, stands⟩ := read?_eq_some_iff.mp found
    exact ⟨split, stands⟩
  · intro h
    exact first?_eq_of_read? (read?_eq_some_iff.mpr ⟨h.1, rfl, h.2⟩)

theorem first?_eq_none_iff {t : Text} :
    first? t = none ↔ ∀ (c : Clause) (r : Text), c.WellFormed → t ≠ c.print ++ r := by
  constructor
  · intro nothing c r wellFormed split
    obtain ⟨p, found⟩ := exists_read?_print_append wellFormed r
    rw [split, first?_eq_of_read? found] at nothing
    contradiction
  · intro none_begins
    cases found : first? t with
    | none => rfl
    | some p =>
      obtain ⟨split, stands⟩ := first?_eq_some_iff.mp found
      exact absurd split (none_begins p.1 p.2 stands.wellFormed)

end Clause

end SelectorClauses
