import SelectorClauses.Proofs.Grammar.Identifier
import SelectorClauses.Proofs.Grammar.Quoting
import SelectorClauses.Proofs.Grammar.Ways

/-!
The patterns of the grammar. Each of them finds the language that it is named for, whichever way
the escapes are read. Main statements: `findsTexts_identifier` and `finds_ofKind`.
-/
namespace SelectorClauses

namespace Pattern

/- Names. -/

theorem findsTexts_escapeEnding : escapeEnding.FindsTexts EscapeEnding := by
  have returnFeed := (findsTexts_char '\n').char_seq '\r'
  apply (returnFeed.either (findsTexts_one isEscapeEnd)).optional.congr
  intro w
  simp [EscapeEnding]
  grind

theorem findsTexts_escape : escape.FindsTexts Escape := by
  have digits := (findsTexts_upTo_one 5 isHexDigit).seq findsTexts_escapeEnding
  have byDigits := ((findsTexts_one isHexDigit).seq digits).char_seq '\\'
  have ofOne := (findsTexts_one fun c => !(isEscapeStop c || isHexDigit c)).char_seq '\\'
  apply (byDigits.either ofOne).congr
  intro w
  constructor
  · intro h
    rcases h with ⟨_, ⟨_, _, ⟨d, digit, rfl⟩, ⟨ds, e, ⟨short, all⟩, ending, rfl⟩, rfl⟩, rfl⟩ |
      ⟨_, ⟨c, free, rfl⟩, rfl⟩
    · refine Escape.hex (d :: ds) e (by simp) ?_ (by simpa [digit] using all) ending
      rw [List.length_cons]
      omega
    · obtain ⟨notStop, notHex⟩ := by simpa using free
      exact .single c notHex notStop
  · intro h
    cases h with
    | single c notHex notStop => exact Or.inr ⟨[c], ⟨c, by simp [notHex, notStop], rfl⟩, rfl⟩
    | hex digits ending some_digit short all ends =>
      cases digits with
      | nil => exact absurd rfl some_digit
      | cons d ds =>
        rw [List.length_cons] at short
        have rest : ∀ c ∈ ds, isHexDigit c = true := fun c mem => all c (by simp [mem])
        exact Or.inl ⟨_, ⟨[d], ds ++ ending, ⟨d, all d (by simp), rfl⟩,
          ⟨ds, ending, ⟨by omega, rest⟩, ends, rfl⟩, rfl⟩, rfl⟩

theorem findsTexts_unit {inAscii inClass : Char → Bool}
    (same : ∀ c, inClass c = (inAscii c || decide (0x7f < c.toNat))) :
    ((one inAscii).either (beyondAscii.either escape)).FindsTexts fun w =>
      (∃ c, inClass c = true ∧ w = [c]) ∨ Escape w := by
  have beyond := findsTexts_one fun c => decide (0x7f < c.toNat)
  apply ((findsTexts_one inAscii).either (beyond.either findsTexts_escape)).congr
  intro w
  rw [← or_assoc, ← exists_or]
  apply or_congr_left
  apply exists_congr
  intro c
  rw [same, Bool.or_eq_true, or_and_right]

theorem isNameStart_eq (c : Char) :
    isNameStart c = (isLetter c || decide (0x7f < c.toNat)) := rfl

theorem isNameChar_eq (c : Char) : isNameChar c =
    ((isLetter c || ('0' ≤ c && c ≤ '9') || c == '-') || decide (0x7f < c.toNat)) := by
  simp only [isNameChar, isNameStart, isLetter]
  ac_rfl

theorem findsTexts_nameStart : nameStart.FindsTexts NameStartUnit := by
  apply (findsTexts_unit isNameStart_eq).congr
  intro w
  constructor
  · intro h
    rcases h with ⟨c, inside, rfl⟩ | escape
    · exact .char c inside
    · exact .escape w escape
  · intro h
    cases h with
    | char c inside => exact Or.inl ⟨c, inside, rfl⟩
    | escape w escape => exact Or.inr escape

theorem findsTexts_nameUnit : nameUnit.FindsTexts NameUnit := by
  apply (findsTexts_unit isNameChar_eq).congr
  intro w
  constructor
  · intro h
    rcases h with ⟨c, inside, rfl⟩ | escape
    · exact .char c inside
    · exact .escape w escape
  · intro h
    cases h with
    | char c inside => exact Or.inl ⟨c, inside, rfl⟩
    | escape w escape => exact Or.inr escape

theorem findsTexts_started : started.FindsTexts NameStarted := by
  apply (findsTexts_nameStart.seq (findsTexts_nameUnit.many not_nameUnit_nil)).congr
  intro w
  rfl

theorem findsTexts_identifier : identifier.FindsTexts IsIdentifier := by
  apply ((findsTexts_char '-').optional.seq findsTexts_started).congr
  intro w
  rw [isIdentifier_iff]
  constructor
  · intro h
    obtain ⟨_, v, rfl | rfl, started, rfl⟩ := h
    · exact Or.inr ⟨v, rfl, started⟩
    · exact Or.inl started
  · intro h
    rcases h with started | ⟨v, rfl, started⟩
    · exact ⟨[], w, Or.inr rfl, started, rfl⟩
    · exact ⟨['-'], v, Or.inl rfl, started, rfl⟩

theorem findsTexts_name : name.FindsTexts IsName := by
  apply (findsTexts_nameUnit.seq (findsTexts_nameUnit.many not_nameUnit_nil)).congr
  intro w
  constructor
  · intro h
    obtain ⟨u, _, unit, ⟨units, all, rfl⟩, rfl⟩ := h
    exact ⟨u :: units, by simp, by simpa [unit] using all, rfl⟩
  · intro h
    obtain ⟨units, some_unit, all, rfl⟩ := h
    cases units with
    | nil => exact absurd rfl some_unit
    | cons u us =>
      exact ⟨u, us.flatten, all u (by simp), ⟨us, fun v mem => all v (by simp [mem]), rfl⟩, rfl⟩

/- Operands. -/

theorem findsTexts_lineEnd : lineEnd.FindsTexts QuotedLineEnd := by
  have returnFeed := (findsTexts_char '\n').char_seq '\r'
  apply ((findsTexts_char '\n').either
    (returnFeed.either ((findsTexts_char '\r').either (findsTexts_char '\x0c')))).congr
  intro w
  simp [QuotedLineEnd]

theorem findsTexts_quotationUnit (quote : Char) :
    (quotationUnit quote).FindsTexts (QuotationUnit quote) := by
  have free := findsTexts_one fun c => !(isEscapeStop c || c == '\\' || c == quote)
  apply (free.either ((findsTexts_lineEnd.char_seq '\\').either findsTexts_escape)).congr
  intro w
  constructor
  · intro h
    rcases h with ⟨c, plain, rfl⟩ | ⟨e, ends, rfl⟩ | escape
    · obtain ⟨⟨notStop, notSlash⟩, notQuote⟩ := by simpa using plain
      exact .char c notQuote notSlash notStop
    · exact .lineEnd e ends
    · exact .escape w escape
  · intro h
    cases h with
    | char c notQuote notSlash notStop =>
      exact Or.inl ⟨c, by simp [notQuote, notSlash, notStop], rfl⟩
    | lineEnd e ends => exact Or.inr (Or.inl ⟨e, ends, rfl⟩)
    | escape w escape => exact Or.inr (Or.inr escape)

theorem finds_quotation (quote : Char) :
    (quotation quote).FindsTexts fun w => ∃ v, QuotationTail quote v ∧ w = quote :: v := by
  have inside := (findsTexts_quotationUnit quote).many not_quotationUnit_nil
  apply ((inside.seq (findsTexts_char quote)).char_seq quote).congr
  intro w
  simp [QuotationTail]

theorem findsTexts_operand : operand.FindsTexts fun w => IsName w ∨ IsQuotation w := by
  apply (findsTexts_name.either ((finds_quotation '"').either (finds_quotation '\''))).congr
  intro w
  apply or_congr_right
  cases w with
  | nil => simp [IsQuotation]
  | cons c t =>
    rw [isQuotation_cons_iff]
    grind

theorem findsTexts_beforeEqual (c : Char) : (beforeEqual c).FindsTexts fun w => w = [c, '='] := by
  apply ((findsTexts_char '=').char_seq c).congr
  simp

theorem findsTexts_operator : operator.FindsTexts fun w => ∃ o : Operator, w = o.print := by
  apply ((findsTexts_char '=').either ((findsTexts_beforeEqual '~').either
    ((findsTexts_beforeEqual '|').either ((findsTexts_beforeEqual '^').either
      ((findsTexts_beforeEqual '$').either (findsTexts_beforeEqual '*')))))).congr
  intro w
  constructor
  · intro h
    rcases h with rfl | rfl | rfl | rfl | rfl | rfl
    · exact ⟨.equal, rfl⟩
    · exact ⟨.includes, rfl⟩
    · exact ⟨.dashMatch, rfl⟩
    · exact ⟨.startsWith, rfl⟩
    · exact ⟨.endsWith, rfl⟩
    · exact ⟨.contains, rfl⟩
  · intro h
    obtain ⟨o, rfl⟩ := h
    cases o <;> simp [Operator.print]

end Pattern

/- Clauses. -/

def Clause.captured : Clause → List (Nat × Text)
  | .tag n | .id n | .cls n | .attr n none => [(1, n)]
  | .attr n (some s) => [(3, s.operand), (2, s.operator.print), (1, n)]

namespace Pattern

theorem finds_test : test.Finds fun w g =>
    ∃ s : Test, s.WellFormed ∧ w = s.print ∧ g = [(3, s.operand), (2, s.operator.print)] := by
  apply ((findsTexts_operator.group 2).seq (findsTexts_operand.group 3)).congr
  intro w g
  constructor
  · intro h
    obtain ⟨_, _, v, _, ⟨⟨o, rfl⟩, rfl⟩, ⟨fits, rfl⟩, rfl, rfl⟩ := h
    exact ⟨⟨o, v⟩, fits, rfl, rfl⟩
  · intro h
    obtain ⟨s, fits, rfl, rfl⟩ := h
    exact ⟨_, _, _, _, ⟨⟨s.operator, rfl⟩, rfl⟩, ⟨fits, rfl⟩, rfl, rfl⟩

theorem finds_bracketed : bracketed.Finds fun w g =>
    ∃ c : Clause, c.WellFormed ∧ c.kind = .attr ∧ w = c.print ∧ g = c.captured := by
  have closed := finds_test.optional.seq_char ']'
  apply (((findsTexts_identifier.group 1).seq closed).char_seq '[').congr
  intro w g
  constructor
  · intro h
    obtain ⟨_, ⟨n, _, _, _, ⟨identifier, rfl⟩, ⟨v, tested | untested, rfl⟩, rfl, rfl⟩, rfl⟩ := h
    · obtain ⟨s, fits, rfl, rfl⟩ := tested
      exact ⟨.attr n (some s), ⟨identifier, fits⟩, rfl, by simp [Clause.print], rfl⟩
    · obtain ⟨rfl, rfl⟩ := untested
      exact ⟨.attr n none, identifier, rfl, by simp [Clause.print], rfl⟩
  · intro h
    obtain ⟨c, wellFormed, kind, rfl, rfl⟩ := h
    cases c with
    | attr n s =>
      cases s with
      | none =>
        exact ⟨n ++ [']'], ⟨n, [(1, n)], [']'], [], ⟨wellFormed, rfl⟩,
          ⟨[], Or.inr ⟨rfl, rfl⟩, rfl⟩, rfl, rfl⟩, rfl⟩
      | some s =>
        exact ⟨n ++ (s.print ++ [']']), ⟨n, [(1, n)], s.print ++ [']'], _,
          ⟨wellFormed.1, rfl⟩, ⟨s.print, Or.inl ⟨s, wellFormed.2, rfl, rfl⟩, rfl⟩, rfl, rfl⟩,
          by simp [Clause.print]⟩
    | _ => cases kind

theorem Finds.clauses {p : Pattern} {k : Kind} (ofName : Text → Clause)
    (named : p.Finds fun w g => ∃ n, IsIdentifier n ∧ w = (ofName n).print ∧ g = [(1, n)])
    (captured : ∀ n, (ofName n).captured = [(1, n)])
    (made : ∀ c : Clause, c.WellFormed ∧ c.kind = k ↔ ∃ n, IsIdentifier n ∧ c = ofName n) :
    p.Finds fun w g => ∃ c : Clause, c.WellFormed ∧ c.kind = k ∧ w = c.print ∧ g = c.captured := by
  apply named.congr
  intro w g
  constructor
  · intro h
    obtain ⟨n, identifier, rfl, rfl⟩ := h
    obtain ⟨wellFormed, kind⟩ := (made (ofName n)).mpr ⟨n, identifier, rfl⟩
    exact ⟨ofName n, wellFormed, kind, rfl, (captured n).symm⟩
  · intro h
    obtain ⟨c, wellFormed, kind, rfl, rfl⟩ := h
    obtain ⟨n, identifier, rfl⟩ := (made c).mp ⟨wellFormed, kind⟩
    exact ⟨n, identifier, rfl, captured n⟩

theorem finds_ofKind (k : Kind) : (ofKind k).Finds fun w g =>
    ∃ c : Clause, c.WellFormed ∧ c.kind = k ∧ w = c.print ∧ g = c.captured := by
  have named := findsTexts_identifier.group 1
  cases k with
  | tag =>
    refine (named.congr ?_).clauses Clause.tag (fun _ => rfl) ?_
    · simp [Clause.print]
    · intro c
      cases c <;> simp [Clause.WellFormed, Clause.kind]
  | id =>
    refine ((named.char_seq '#').congr ?_).clauses Clause.id (fun _ => rfl) ?_
    · intro w g
      simp only [Clause.print]
      grind
    · intro c
      cases c <;> simp [Clause.WellFormed, Clause.kind]
  | cls =>
    refine ((named.char_seq '.').congr ?_).clauses Clause.cls (fun _ => rfl) ?_
    · intro w g
      simp only [Clause.print]
      grind
    · intro c
      cases c <;> simp [Clause.WellFormed, Clause.kind]
  | attr => exact finds_bracketed

end Pattern

end SelectorClauses
