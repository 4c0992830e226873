import SelectorClauses.Proofs.Grammar.Greedy
import SelectorClauses.Proofs.Grammar.Reading

/-!
The scan that does not go back. It can miss what backtracking finds, as when a repetition takes
what comes after it. In the grammar an escape that is taken as long as it goes never takes
anything that is needed later. Main statement: `committed?_ofKind`, that the scan finds the clause
that is read.
-/
namespace SelectorClauses

namespace Pattern

/- What the scan finds is one of the ways. -/

theorem greedily_mem_repeated {next : Text → Option Way} {step : Text → List Way}
    (sound : ∀ t a, next t = some a → a ∈ step t) (n : Nat) (t : Text) :
    greedily next n t ∈ repeated step n t := by
  induction n generalizing t with
  | zero => simp [greedily, repeated]
  | succ n ih =>
    rw [greedily, repeated]
    split
    · simp
    · next a found =>
      simp only [List.mem_append, List.mem_flatMap, List.mem_map]
      exact Or.inl ⟨a, sound t a found, _, ih a.rest, rfl⟩

theorem mem_ways_of_committed? {p : Pattern} {t : Text} {a : Way} (h : p.committed? t = some a) :
    a ∈ p.ways t := by
  induction p generalizing t a with
  | one inClass => exact List.mem_of_mem_head? h
  | seq p q first second =>
    obtain ⟨b, foundB, h⟩ := Option.bind_eq_some_iff.mp h
    obtain ⟨c, foundC, rfl⟩ := Option.map_eq_some_iff.mp h
    simp only [ways, List.mem_flatMap, List.mem_map]
    exact ⟨b, first foundB, c, second foundC, rfl⟩
  | either p q left right =>
    rw [ways, List.mem_append]
    rcases Option.or_eq_some_iff.mp h with found | ⟨-, found⟩
    · exact Or.inl (left found)
    · exact Or.inr (right found)
  | upTo n p inner =>
    obtain rfl := Option.some.inj h
    exact greedily_mem_repeated (fun _ _ => inner) n t
  | many p inner =>
    obtain rfl := Option.some.inj h
    exact greedily_mem_repeated (fun _ _ => inner) t.length t
  | group i p inner =>
    obtain ⟨b, found, rfl⟩ := Option.map_eq_some_iff.mp h
    rw [ways, List.mem_map]
    exact ⟨b, inner found, rfl⟩

theorem committed?_seq (p q : Pattern) (t : Text) : (p.seq q).committed? t =
    (p.committed? t).bind fun a => (q.committed? a.rest).map a.followedBy := rfl

theorem committed?_one_cons (inClass : Char → Bool) (c : Char) (r : Text) :
    (one inClass).committed? (c :: r) = if inClass c then some (.ofChar c r) else none :=
  first?_one_cons inClass c r

theorem committed?_char (c : Char) (r : Text) :
    (char c).committed? (c :: r) = some (.ofChar c r) := by
  simp [char, committed?_one_cons]

theorem committed?_char_eq_none {c : Char} {t : Text} (other : ∀ r, t ≠ c :: r) :
    (char c).committed? t = none := by
  cases t with
  | nil => rfl
  | cons d r =>
    rw [char, committed?_one_cons, if_neg]
    intro same
    exact other r (by rw [beq_iff_eq.mp same])

theorem committed?_one_seq_cons (inClass : Char → Bool) (q : Pattern) (c : Char) (r : Text) :
    ((one inClass).seq q).committed? (c :: r) =
      if inClass c then (q.committed? r).map (Way.ofChar c r).followedBy else none := by
  rw [committed?_seq, committed?_one_cons]
  split <;> rfl

theorem committed?_either (p q : Pattern) (t : Text) :
    (p.either q).committed? t = (p.committed? t).or (q.committed? t) := rfl

theorem committed?_optional (p : Pattern) (t : Text) :
    p.optional.committed? t = some ((p.committed? t).getD (.nothing t)) := by
  change some (greedily p.committed? 1 t) = _
  rw [greedily]
  cases p.committed? t with
  | none => rfl
  | some a => simp [greedily]

/- Where the scan prefers what backtracking prefers. -/

/-- The scan ends on the way on which backtracking ends. -/
def Steady (p : Pattern) : Prop := p.committed? = p.first?

section

variable {p q : Pattern}

theorem steady_one (inClass : Char → Bool) : (one inClass).Steady := rfl

theorem Steady.either (left : p.Steady) (right : q.Steady) : (p.either q).Steady := by
  funext t
  rw [committed?, left, right, first?_either]

theorem Steady.upTo (h : p.Steady) (n : Nat) : (p.upTo n).Steady := by
  funext t
  rw [committed?, h, first?_upTo]

theorem Steady.many (h : p.Steady) : p.many.Steady := by
  funext t
  rw [committed?, h, first?_many]

theorem Steady.group (h : p.Steady) (i : Nat) : (p.group i).Steady := by
  funext t
  change (p.committed? t).map _ = ((p.ways t).map _).head?
  rw [h, List.head?_map]
  rfl

theorem Steady.one_seq (inClass : Char → Bool) (h : q.Steady) :
    ((one inClass).seq q).Steady := by
  funext t
  cases t with
  | nil => rfl
  | cons c r =>
    rw [committed?_one_seq_cons, first?_one_seq_cons, h]

theorem Steady.seq_of_total (first : p.Steady) (second : q.Steady)
    (total : ∀ t, ∃ b, q.first? t = some b) : (p.seq q).Steady := by
  funext t
  rw [committed?_seq, first, second, first?_seq_of_total total]

theorem Steady.seq_many (first : p.Steady) (second : q.Steady) : (p.seq q.many).Steady :=
  first.seq_of_total second.many fun t => ⟨_, first?_many q t⟩

end

theorem steady_escapeEnding : escapeEnding.Steady :=
  (((steady_one _).one_seq _).either (steady_one _)).upTo 1

theorem steady_escape : escape.Steady := by
  have digits := ((steady_one isHexDigit).upTo 5).seq_of_total steady_escapeEnding
    exists_first?_escapeEnding
  exact ((digits.one_seq _).one_seq _).either ((steady_one _).one_seq _)

theorem steady_nameUnit : nameUnit.Steady :=
  (steady_one _).either ((steady_one _).either steady_escape)

theorem steady_started : started.Steady :=
  ((steady_one _).either ((steady_one _).either steady_escape)).seq_many steady_nameUnit

theorem steady_name : name.Steady := steady_nameUnit.seq_many steady_nameUnit

theorem steady_identifier : identifier.Steady := by
  have hyphen : (optional (char '-')).Steady := (steady_one _).upTo 1
  funext t
  have scanned : identifier.committed? t =
      let a := ((char '-').first? t).getD (.nothing t)
      (started.first? a.rest).map a.followedBy := by
    rw [identifier, committed?_seq, hyphen, steady_started, first?_optional, Option.bind_some]
  rw [scanned]
  cases t with
  | nil => rfl
  | cons c r =>
    rw [first?_identifier_cons, char, first?_one_cons]
    by_cases same : c = '-'
    · simp [same, Way.ofChar]
    · simp [same]

/- Escapes. Whatever can be read behind some end of an escape can be read behind the end that the
   scan takes, if digits and endings make no difference there. -/

section

variable {next : Text → Prop} (absorbs : Absorbs next)

include absorbs

theorem committed?_escapeEnding_of_afterEnding {t : Text} (h : AfterEnding next t) :
    ∃ a, escapeEnding.committed? t = some a ∧ next a.rest := by
  rw [steady_escapeEnding]
  cases t with
  | nil => exact ⟨_, rfl, afterEnding_nil.mp h⟩
  | cons c r =>
    rw [afterEnding_cons absorbs] at h
    by_cases carriage : c = '\r'
    · subst carriage
      rw [if_pos rfl] at h
      cases r with
      | nil => exact ⟨_, rfl, afterReturn_nil.mp h⟩
      | cons d s =>
        rw [afterReturn_cons absorbs] at h
        by_cases feed : d = '\n'
        · subst feed
          exact ⟨_, first?_escapeEnding_returnFeed s, by simpa using h⟩
        · rw [if_neg feed] at h
          exact ⟨_, first?_escapeEnding_return (by simpa using feed), h⟩
    · rw [if_neg carriage] at h
      refine ⟨_, first?_escapeEnding_cons carriage r, ?_⟩
      split at h
      · next ends => simpa [ends, Way.ofChar] using h
      · next plain => simpa [plain, Way.nothing] using h

theorem afterEnding_of_afterDigits {left : Nat} {t : Text} (h : AfterDigits left next t) :
    AfterEnding next (greedily (one isHexDigit).committed? left t).rest := by
  induction left generalizing t with
  | zero =>
    cases t with
    | nil => exact afterEnding_of_next (afterDigits_nil.mp h)
    | cons c r => exact (afterDigits_cons_of_end (by simp)).mp h
  | succ n ih =>
    cases t with
    | nil => exact afterEnding_of_next (afterDigits_nil.mp h)
    | cons c r =>
      rw [greedily, committed?_one_cons]
      by_cases digit : isHexDigit c = true
      · rw [if_pos digit]
        exact ih ((afterDigits_cons_of_digit absorbs digit (Nat.succ_pos n)).mp h)
      · rw [if_neg digit]
        exact (afterDigits_cons_of_end (by simp [digit])).mp h

theorem committed?_escape_of_afterBackslash {t : Text} (h : AfterBackslash next t) :
    ∃ a, escape.committed? ('\\' :: t) = some a ∧ next a.rest := by
  cases t with
  | nil => exact absurd h not_afterBackslash_nil
  | cons c r =>
    rw [afterBackslash_cons] at h
    by_cases digit : isHexDigit c = true
    · rw [if_pos digit] at h
      obtain ⟨a, found, rest⟩ :=
        committed?_escapeEnding_of_afterEnding absorbs (afterEnding_of_afterDigits absorbs h)
      have digits : ((upTo 5 (one isHexDigit)).seq escapeEnding).committed? r =
          some ((greedily (one isHexDigit).committed? 5 r).followedBy a) := by
        change (escapeEnding.committed? _).map _ = _
        rw [found]
        rfl
      refine ⟨(Way.ofChar '\\' (c :: r)).followedBy ((Way.ofChar c r).followedBy
        ((greedily (one isHexDigit).committed? 5 r).followedBy a)), ?_, rest⟩
      simp [escape, escapeByDigits, char, committed?_either, committed?_one_seq_cons, digit,
        digits]
    · rw [if_neg digit] at h
      split at h
      · exact h.elim
      · next free =>
        refine ⟨(Way.ofChar '\\' (c :: r)).followedBy (.ofChar c r), ?_, h⟩
        simp [escape, escapeByDigits, escapeOfOne, char, committed?_either,
          committed?_one_seq_cons, committed?_one_cons, digit, free]

end

theorem absorbs_length_le (n : Nat) : Absorbs fun t => t.length ≤ n := by
  intro c t _ short
  exact Nat.le_of_succ_le short

/-- No way to read an escape takes more of the text than the scan does. -/
theorem committed?_escape_longest {t : Text} {b : Way} (mem : b ∈ escape.ways t) :
    ∃ a, escape.committed? t = some a ∧ b.taken.length ≤ a.taken.length := by
  obtain ⟨split, form, -⟩ := (findsTexts_escape t b).mp mem
  obtain ⟨c, e, taken⟩ := List.exists_cons_of_ne_nil fun empty => not_escape_nil (empty ▸ form)
  rw [taken] at split form
  obtain ⟨rfl, -⟩ := escape_cons_iff.mp form
  -- an escape that takes more leaves less of the text
  have behind : AfterBackslash (fun s => s.length ≤ b.rest.length) (e ++ b.rest) :=
    ⟨e, b.rest, form, Nat.le_refl _, rfl⟩
  obtain ⟨a, found, shorter⟩ :=
    committed?_escape_of_afterBackslash (absorbs_length_le b.rest.length) behind
  have whole := congrArg List.length ((findsTexts_escape _ a).mp (mem_ways_of_committed? found)).1
  refine ⟨a, by rw [split]; exact found, ?_⟩
  simp only [taken, List.length_append, List.length_cons] at whole ⊢
  omega

/- Quotations. -/

theorem committed?_quotationUnit_slash (quote : Char) (t : Text) :
    (quotationUnit quote).committed? ('\\' :: t) =
      ((lineEnd.committed? t).map (Way.ofChar '\\' t).followedBy).or
        (escape.committed? ('\\' :: t)) := by
  simp [quotationUnit, char, committed?_either, committed?_one_seq_cons, committed?_one_cons]

theorem committed?_lineEnd_of_not_stop {c : Char} (notStop : isEscapeStop c = false) (r : Text) :
    lineEnd.committed? (c :: r) = none := by
  have notFeed : c ≠ '\n' := ne_of_apply_ne isEscapeStop (by rw [notStop]; decide)
  have notReturn : c ≠ '\r' := ne_of_apply_ne isEscapeStop (by rw [notStop]; decide)
  have notForm : c ≠ '\x0c' := ne_of_apply_ne isEscapeStop (by rw [notStop]; decide)
  simp [lineEnd, char, committed?_either, committed?_one_seq_cons, committed?_one_cons, notFeed,
    notReturn, notForm]

theorem committed?_lineEnd_of_afterReturn {next : Text → Prop} (absorbs : Absorbs next) {t : Text}
    (h : AfterReturn next t) : ∃ a, lineEnd.committed? ('\r' :: t) = some a ∧ next a.rest := by
  cases t with
  | nil => exact ⟨_, rfl, afterReturn_nil.mp h⟩
  | cons c r =>
    rw [afterReturn_cons absorbs] at h
    by_cases feed : c = '\n'
    · subst feed
      exact ⟨_, rfl, by simpa using h⟩
    · rw [if_neg feed] at h
      refine ⟨.ofChar '\r' (c :: r), ?_, h⟩
      simp [lineEnd, char, committed?_either, committed?_one_seq_cons, committed?_one_cons, feed]

def Closes (quote : Char) (t : Text) : Prop := ∃ v r, QuotationTail quote v ∧ t = v ++ r

theorem not_closes_nil {quote : Char} : ¬ Closes quote [] := by
  intro h
  obtain ⟨v, r, tail, same⟩ := h
  obtain ⟨rfl, -⟩ := List.nil_eq_append_iff.mp same
  exact not_quotationTail_nil tail

theorem closes_cons {quote c : Char} {t : Text} (h : Closes quote (c :: t)) :
    c = quote ∨ ∃ u s, QuotationUnit quote (c :: u) ∧ Closes quote s ∧ t = u ++ s := by
  obtain ⟨v, r, tail, same⟩ := h
  cases v with
  | nil => exact absurd tail not_quotationTail_nil
  | cons d v =>
    obtain ⟨rfl, rfl⟩ := List.cons.inj same
    rcases quotationTail_cons_iff_unit.mp tail with ⟨closing, -⟩ | ⟨u, w, unit, rest, rfl⟩
    · exact Or.inl closing
    · exact Or.inr ⟨u, w ++ r, unit, ⟨w, r, rest, rfl⟩, List.append_assoc u w r⟩

theorem finds_quotation_cons {quote : Char} {t : Text} {a : Way}
    (mem : a ∈ (quotation quote).ways (quote :: t)) :
    ∃ v, QuotationTail quote v ∧ t = v ++ a.rest ∧ a = ⟨quote :: v, [], a.rest⟩ := by
  obtain ⟨split, ⟨v, tail, taken⟩, captured⟩ := (finds_quotation quote _ a).mp mem
  obtain ⟨taken', captured', rest⟩ := a
  obtain ⟨rfl, rfl⟩ : taken' = quote :: v ∧ captured' = [] := ⟨taken, captured⟩
  exact ⟨v, tail, by simpa using split, rfl⟩

section

variable {quote : Char} (isQuote : quote = '"' ∨ quote = '\'')

include isQuote

theorem absorbs_closes : Absorbs (Closes quote) := by
  intro c t h closes
  obtain ⟨v, r, tail, same⟩ := closes
  cases v with
  | nil => exact absurd tail not_quotationTail_nil
  | cons d v =>
    obtain ⟨rfl, rfl⟩ := List.cons.inj same
    exact ⟨v, r, absorbs_quotationTail isQuote c v h tail, rfl⟩

theorem committed?_quotationUnit_backslash {t : Text}
    (h : AfterQuotedBackslash (Closes quote) t) :
    ∃ a, (quotationUnit quote).committed? ('\\' :: t) = some a ∧ Closes quote a.rest := by
  have absorbs := absorbs_closes isQuote
  cases t with
  | nil => exact absurd h not_afterQuotedBackslash_nil
  | cons c r =>
    rw [afterQuotedBackslash_cons] at h
    rw [committed?_quotationUnit_slash]
    by_cases stop : isEscapeStop c = true
    · have ends : ∃ a, lineEnd.committed? (c :: r) = some a ∧ Closes quote a.rest := by
        rcases isEscapeStop_cases stop with rfl | rfl | rfl
        · exact ⟨_, rfl, h⟩
        · exact committed?_lineEnd_of_afterReturn absorbs h
        · exact ⟨_, rfl, h⟩
      obtain ⟨a, found, rest⟩ := ends
      rw [found]
      exact ⟨(Way.ofChar '\\' (c :: r)).followedBy a, rfl, rest⟩
    · have notReturn : c ≠ '\r' := by
        intro same
        exact stop (by rw [same]; decide)
      have behind : AfterBackslash (Closes quote) (c :: r) := by
        rw [afterBackslash_cons]
        simpa [stop, notReturn] using h
      rw [committed?_lineEnd_of_not_stop (by simpa using stop)]
      exact committed?_escape_of_afterBackslash absorbs behind

theorem committed?_quotationUnit_of_closes {c : Char} {t : Text} (h : Closes quote (c :: t))
    (notQuote : c ≠ quote) :
    ∃ a, (quotationUnit quote).committed? (c :: t) = some a ∧ Closes quote a.rest := by
  obtain ⟨u, s, unit, rest, rfl⟩ := (closes_cons h).resolve_left notQuote
  rcases quotationUnit_cons_iff.mp unit with ⟨⟨-, notSlash, notStop⟩, rfl⟩ | ⟨rfl, escape | ends⟩
  · refine ⟨.ofChar c s, ?_, rest⟩
    simp [quotationUnit, committed?_either, committed?_one_cons, notQuote, notSlash, notStop]
  · exact committed?_quotationUnit_backslash isQuote (Or.inl ⟨u, s, escape, rest, rfl⟩)
  · exact committed?_quotationUnit_backslash isQuote (Or.inr ⟨u, s, ends, rest, rfl⟩)

theorem rest_greedily_of_closes {n : Nat} {t : Text} (h : Closes quote t) (room : t.length ≤ n) :
    ∃ r, (greedily (quotationUnit quote).committed? n t).rest = quote :: r := by
  induction n generalizing t with
  | zero =>
    obtain rfl : t = [] := List.eq_nil_of_length_eq_zero (by omega)
    exact absurd h not_closes_nil
  | succ n ih =>
    rw [greedily]
    cases t with
    | nil => exact absurd h not_closes_nil
    | cons c r =>
      by_cases closing : c = quote
      · subst closing
        have stuck : (quotationUnit c).committed? (c :: r) = none := by
          rcases isQuote with rfl | rfl <;> rfl
        rw [stuck]
        exact ⟨r, rfl⟩
      · obtain ⟨a, found, rest⟩ := committed?_quotationUnit_of_closes isQuote h closing
        have shorter := (findsTexts_quotationUnit quote).length_rest_lt not_quotationUnit_nil
          (mem_ways_of_committed? found)
        rw [found]
        exact ih rest (by omega)

theorem committed?_quotation (t : Text) :
    (quotation quote).committed? (quote :: t) =
      ((Quotation.automaton quote).longest? .inside t).map
        fun (w, r) => ⟨quote :: w, [], r⟩ := by
  have sound : ∀ a, (quotation quote).committed? (quote :: t) = some a →
      ∃ w r, (Quotation.automaton quote).longest? .inside t = some (w, r) ∧
        a = ⟨quote :: w, [], r⟩ := by
    intro a found
    obtain ⟨v, tail, split, same⟩ := finds_quotation_cons (mem_ways_of_committed? found)
    exact ⟨v, a.rest, (Quotation.longest?_inside_eq_some_iff isQuote).mpr ⟨split, tail⟩, same⟩
  cases found : (quotation quote).committed? (quote :: t) with
  | some a =>
    obtain ⟨w, r, read, rfl⟩ := sound a found
    rw [read]
    rfl
  | none =>
    cases read : (Quotation.automaton quote).longest? .inside t with
    | none => rfl
    | some p =>
      obtain ⟨split, tail⟩ := (Quotation.longest?_inside_eq_some_iff isQuote).mp read
      obtain ⟨r, behind⟩ := rest_greedily_of_closes isQuote ⟨p.1, p.2, tail, split⟩ (Nat.le_refl _)
      simp [quotation, char, committed?_seq, committed?, behind, first?_one_cons] at found

end

/- Clauses. -/

theorem committed?_name (t : Text) :
    name.committed? t = (Name.name? t).map fun (w, r) => ⟨w, [], r⟩ := by
  rw [steady_name, first?_name]

theorem committed?_identifier (t : Text) :
    identifier.committed? t = (Name.identifier? t).map fun (w, r) => ⟨w, [], r⟩ := by
  rw [steady_identifier, first?_identifier]

theorem committed?_quotation_of_ne {quote c : Char} (other : c ≠ quote) (t : Text) :
    (quotation quote).committed? (c :: t) = none := by
  simp [quotation, char, committed?_one_seq_cons, other]

theorem committed?_operand (t : Text) :
    operand.committed? t = (Test.operand? t).map fun (v, r) => ⟨v, [], r⟩ := by
  have quotations : ((quotation '"').either (quotation '\'')).committed? t =
      (Quotation.quotation? t).map fun (v, r) => ⟨v, [], r⟩ := by
    cases t with
    | nil => rfl
    | cons c t =>
      rw [committed?_either, Quotation.quotation?]
      by_cases double : c = '"'
      · subst double
        rw [committed?_quotation (Or.inl rfl), committed?_quotation_of_ne (by decide),
          Option.or_none, if_pos (Or.inl rfl), Option.map_map]
        rfl
      · rw [committed?_quotation_of_ne double, Option.none_or]
        by_cases single : c = '\''
        · subst single
          rw [committed?_quotation (Or.inr rfl), if_pos (Or.inr rfl), Option.map_map]
          rfl
        · rw [committed?_quotation_of_ne single, if_neg (by simp [double, single])]
          rfl
  rw [operand, committed?_either, quotations, committed?_name, Test.operand?]
  cases Name.name? t <;> rfl

theorem committed?_operator_print (o : Operator) (r : Text) :
    operator.committed? (o.print ++ r) = some ⟨o.print, [], r⟩ := by
  cases o <;> rfl

theorem committed?_operator (t : Text) :
    operator.committed? t = (Operator.read? t).map fun (o, r) => ⟨o.print, [], r⟩ := by
  cases read : Operator.read? t with
  | some p =>
    rw [Operator.eq_print_of_read? read, committed?_operator_print]
    rfl
  | none =>
    cases found : operator.committed? t with
    | none => rfl
    | some a =>
      obtain ⟨split, ⟨o, taken⟩, -⟩ := (findsTexts_operator t a).mp (mem_ways_of_committed? found)
      rw [split, taken, Operator.read?_print] at read
      contradiction

theorem committed?_test (t : Text) :
    test.committed? t = (Test.read? t).map fun (s, r) =>
      ⟨s.print, [(3, s.operand), (2, s.operator.print)], r⟩ := by
  have scanned : test.committed? t = ((operator.committed? t).map (Way.capturedAs 2)).bind fun a =>
      ((operand.committed? a.rest).map (Way.capturedAs 3)).map a.followedBy := rfl
  rw [scanned, committed?_operator, Test.read?]
  cases Operator.read? t with
  | none => rfl
  | some p =>
    obtain ⟨o, u⟩ := p
    simp only [Option.map_some, Option.bind_some, Option.bind_eq_bind, Way.capturedAs]
    rw [committed?_operand]
    cases Test.operand? u <;> rfl

end Pattern

def Way.ofClause (c : Clause) (rest : Text) : Way := ⟨c.print, c.captured, rest⟩

namespace Pattern

theorem committed?_bracketed (t : Text) :
    bracketed.committed? ('[' :: t) = (Clause.attr? t).map fun (c, r) => .ofClause c r := by
  have scanned : bracketed.committed? ('[' :: t) =
      (((identifier.committed? t).map (Way.capturedAs 1)).bind fun a =>
        (((optional test).seq (char ']')).committed? a.rest).map a.followedBy).map
          (Way.ofChar '[' t).followedBy := rfl
  rw [scanned, committed?_identifier, Clause.attr?]
  cases Name.identifier? t with
  | none => rfl
  | some p =>
    obtain ⟨n, r⟩ := p
    have tested := committed?_test r
    simp only [Option.map_some, Option.bind_some, Option.bind_eq_bind, Way.capturedAs,
      committed?_seq, committed?_optional]
    split
    · next rest => rfl
    · next notClosed =>
      cases read : Test.read? r with
      | none =>
        rw [read, Option.map_none] at tested
        simp [tested, committed?_char_eq_none notClosed]
      | some q =>
        obtain ⟨s, u⟩ := q
        rw [read, Option.map_some] at tested
        simp only [tested, Option.getD_some, Option.bind_some]
        split
        · next rest =>
          simp [committed?_char, Way.followedBy, Way.ofChar, Way.ofClause, Clause.print,
            Clause.captured]
        · next notClosed => simp [committed?_char_eq_none notClosed]

theorem committed?_ofKind (k : Kind) (t : Text) :
    (ofKind k).committed? t = (Clause.read? k t).map fun (c, r) => .ofClause c r := by
  cases read : Clause.read? k t with
  | none =>
    cases found : (ofKind k).committed? t with
    | none => rfl
    | some a =>
      obtain ⟨split, c, wellFormed, rfl, taken, -⟩ :=
        (finds_ofKind k t a).mp (mem_ways_of_committed? found)
      obtain ⟨p, other⟩ := Clause.exists_read?_print_append wellFormed a.rest
      rw [split, taken, other] at read
      contradiction
  | some p =>
    obtain ⟨c, r⟩ := p
    obtain ⟨rfl, rfl, stands⟩ := Clause.read?_eq_some_iff.mp read
    have named : c.kind ≠ .attr → (group 1 identifier).committed? (c.name ++ r) =
        some ⟨c.name, [(1, c.name)], r⟩ := by
      intro notAttr
      change (identifier.committed? (c.name ++ r)).map _ = _
      rw [committed?_identifier, stands.identifier? notAttr]
      rfl
    cases c with
    | tag n => exact named (by simp [Clause.kind])
    | id n =>
      have behind : (group 1 identifier).committed? (n ++ r) = _ := named (by simp [Clause.kind])
      change ((char '#').seq (group 1 identifier)).committed? ('#' :: (n ++ r)) = _
      rw [char, committed?_one_seq_cons, behind]
      rfl
    | cls n =>
      have behind : (group 1 identifier).committed? (n ++ r) = _ := named (by simp [Clause.kind])
      change ((char '.').seq (group 1 identifier)).committed? ('.' :: (n ++ r)) = _
      rw [char, committed?_one_seq_cons, behind]
      rfl
    | attr n test =>
      obtain ⟨t, bracket⟩ : ∃ t, (Clause.attr n test).print ++ r = '[' :: t := by
        cases test <;> exact ⟨_, rfl⟩
      rw [bracket] at read ⊢
      have inside : Clause.attr? t = some (.attr n test, r) := read
      exact (committed?_bracketed t).trans (by rw [inside])

end Pattern

end SelectorClauses
