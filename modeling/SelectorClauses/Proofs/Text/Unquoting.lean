import Mathlib.Algebra.Group.Nat.Defs
import Mathlib.Data.List.TakeWhile
import Mathlib.Tactic.SplitIfs
import SelectorClauses.Text.Quoted

/-!
Reading quoted text. Main statements: `quotedPart?_append` finds a quoted text among others and gives it
back as it was, with nothing taken of what is behind its closing quote, and `quoted_append_inj` says that a
text with a quoted one in it can be taken apart in one way only.
-/
namespace SelectorClauses

def hexNumber? (digits : Text) : Option Nat :=
  digits.foldlM (fun n d => (hexValue? d).map (16 * n + ·)) 0

theorem hexNumber?_append (digits : Text) (d : Char) :
    hexNumber? (digits ++ [d]) =
      (hexNumber? digits).bind fun n => (hexValue? d).map (16 * n + ·) := by
  simp [hexNumber?]

theorem hexNumber?_hexText (width n : Nat) :
    hexNumber? (hexText width n) = some (n % 16 ^ width) := by
  induction width generalizing n with
  | zero => simp [hexText, hexNumber?, Nat.mod_one]
  | succ width ih =>
    have digit : n % 16 < 16 := Nat.mod_lt n (by decide)
    have together : 16 * (n / 16 % 16 ^ width) + n % 16 = n % 16 ^ (width + 1) := by
      rw [Nat.pow_succ, Nat.mul_comm (16 ^ width) 16, Nat.mod_mul]
      omega
    rw [hexText, hexNumber?_append, ih, hexValue?_hexDigit digit, ← together]
    rfl

namespace Text

/- The reader. -/

def isQuote (c : Char) : Bool := c == '\'' || c == '"'

def escapeWidth? : Char → Option Nat
  | 'x' => some 2
  | 'u' => some 4
  | 'U' => some 8
  | _ => none

def escapedLetter? : Char → Option Char
  | 't' => some '\t'
  | 'n' => some '\n'
  | 'r' => some '\r'
  | c => if isQuote c || c == '\\' then some c else none

def escaped? : Text → Option (Char × Text)
  | [] => none
  | c :: r =>
    match escapeWidth? c with
    | some width => (hexNumber? (r.take width)).map fun n => (Char.ofNat n, r.drop width)
    | none => (escapedLetter? c).map fun d => (d, r)

theorem length_le_of_escaped? {t r : Text} {c : Char} (h : escaped? t = some (c, r)) :
    r.length ≤ t.length := by
  cases t with
  | nil => cases h
  | cons d s =>
    rw [escaped?] at h
    cases width : escapeWidth? d with
    | some width =>
      simp only [width, Option.map_eq_some_iff, Prod.mk.injEq] at h
      obtain ⟨n, -, -, rfl⟩ := h
      rw [List.length_drop, List.length_cons]
      omega
    | none =>
      simp only [width, Option.map_eq_some_iff, Prod.mk.injEq] at h
      obtain ⟨e, -, -, rfl⟩ := h
      exact Nat.le_succ s.length

/-- Reads a quoted text behind its opening quote: the text, and what is behind its closing quote. -/
def untilQuote? (quote : Char) : Text → Option (Text × Text)
  | [] => none
  | c :: r =>
    if c = quote then some ([], r)
    else if c = '\\' then
      match _h : escaped? r with
      | none => none
      | some (d, behind) => (untilQuote? quote behind).map fun (t, rest) => (d :: t, rest)
    else (untilQuote? quote r).map fun (t, rest) => (c :: t, rest)
termination_by t => t.length
decreasing_by
  · have := length_le_of_escaped? _h
    simp only [List.length_cons]
    omega
  · simp

def quotedPart? (t : Text) : Option (Text × Text) :=
  match t.dropWhile fun c => !isQuote c with
  | [] => none
  | quote :: r => untilQuote? quote r

/- One character. -/

theorem isQuote_quoteFor (t : Text) : isQuote t.quoteFor = true := by
  unfold quoteFor
  split <;> rfl

theorem isQuote_iff {c : Char} : isQuote c = true ↔ c = '\'' ∨ c = '"' := by simp [isQuote]

theorem ne_backslash_of_isQuote {quote : Char} (h : isQuote quote = true) : quote ≠ '\\' := by
  rintro rfl
  cases h

theorem untilQuote?_plain {quote c : Char} (notQuote : c ≠ quote) (notBackslash : c ≠ '\\') (u : Text) :
    untilQuote? quote (c :: u) = (untilQuote? quote u).map fun (t, rest) => (c :: t, rest) := by
  rw [untilQuote?, if_neg notQuote, if_neg notBackslash]

theorem untilQuote?_escape {quote c : Char} (quotes : isQuote quote = true) {r u : Text}
    (read : escaped? r = some (c, u)) :
    untilQuote? quote ('\\' :: r) = (untilQuote? quote u).map fun (t, rest) => (c :: t, rest) := by
  rw [untilQuote?, if_neg (ne_backslash_of_isQuote quotes).symm, if_pos rfl]
  split
  · next nothing =>
    rw [read] at nothing
    cases nothing
  · next d behind found =>
    rw [read] at found
    obtain ⟨rfl, rfl⟩ := Prod.mk.inj (Option.some.inj found)
    rfl

theorem escaped?_hexText {letter c : Char} {width : Nat} (isWidth : escapeWidth? letter = some width)
    (fits : c.toNat < 16 ^ width) (u : Text) :
    escaped? (letter :: (hexText width c.toNat ++ u)) = some (c, u) := by
  have digits : (hexText width c.toNat ++ u).take width = hexText width c.toNat :=
    List.take_left' (hexText_length width c.toNat)
  have behind : (hexText width c.toNat ++ u).drop width = u :=
    List.drop_left' (hexText_length width c.toNat)
  simp only [escaped?, isWidth, digits, behind, hexNumber?_hexText, Nat.mod_eq_of_lt fits,
    Option.map_some, Char.ofNat_toNat]

theorem untilQuote?_quotedChar {quote : Char} (quotes : isQuote quote = true) (c : Char) (u : Text) :
    untilQuote? quote (quotedChar quote c ++ u) =
      (untilQuote? quote u).map fun (t, rest) => (c :: t, rest) := by
  have whole : c.toNat < 16 ^ 8 := by
    have valid : c.toNat < 0xd800 ∨ 0xdfff < c.toNat ∧ c.toNat < 0x110000 := c.valid
    omega
  unfold quotedChar
  split_ifs with mark tab feed ret printable narrow basic
  · refine untilQuote?_escape quotes ?_
    rcases mark with rfl | rfl
    · rcases isQuote_iff.mp quotes with rfl | rfl <;> rfl
    · rfl
  · exact untilQuote?_escape quotes (by rw [tab]; rfl)
  · exact untilQuote?_escape quotes (by rw [feed]; rfl)
  · exact untilQuote?_escape quotes (by rw [ret]; rfl)
  · obtain ⟨notQuote, notBackslash⟩ := not_or.mp mark
    exact untilQuote?_plain notQuote notBackslash u
  · exact untilQuote?_escape quotes (escaped?_hexText rfl narrow u)
  · exact untilQuote?_escape quotes (escaped?_hexText rfl basic u)
  · exact untilQuote?_escape quotes (escaped?_hexText rfl whole u)

/- Whole texts. -/

theorem untilQuote?_flatMap {quote : Char} (quotes : isQuote quote = true) (t rest : Text) :
    untilQuote? quote (t.flatMap (quotedChar quote) ++ quote :: rest) = some (t, rest) := by
  induction t with
  | nil => simp [untilQuote?]
  | cons c t ih =>
    rw [List.flatMap_cons, List.append_assoc, untilQuote?_quotedChar quotes, ih]
    rfl

def Unquoted (t : Text) : Prop := ∀ c ∈ t, isQuote c = false

instance (t : Text) : Decidable (Unquoted t) :=
  decidable_of_iff (t.all (fun c => !isQuote c) = true) (by simp [Unquoted])

theorem Unquoted.append {s t : Text} (first : Unquoted s) (second : Unquoted t) : Unquoted (s ++ t) :=
  List.forall_mem_append.mpr ⟨first, second⟩

theorem quoted_append (t rest : Text) :
    t.quoted ++ rest =
      t.quoteFor :: (t.flatMap (quotedChar t.quoteFor) ++ t.quoteFor :: rest) := by
  simp [quoted]

theorem dropWhile_append_quoted {pre : Text} (plain : Unquoted pre) (t rest : Text) :
    (pre ++ t.quoted ++ rest).dropWhile (fun c => !isQuote c) = t.quoted ++ rest := by
  have notQuote : ∀ c ∈ pre, (!isQuote c) = true := fun c mem => by simp [plain c mem]
  rw [List.append_assoc, List.dropWhile_append_of_pos notQuote, quoted_append]
  simp [isQuote_quoteFor]

theorem takeWhile_append_quoted {pre : Text} (plain : Unquoted pre) (t rest : Text) :
    (pre ++ t.quoted ++ rest).takeWhile (fun c => !isQuote c) = pre := by
  have whole : (pre ++ t.quoted ++ rest).takeWhile (fun c => !isQuote c) ++ (t.quoted ++ rest) =
      pre ++ (t.quoted ++ rest) := by
    rw [← dropWhile_append_quoted plain, List.takeWhile_append_dropWhile, dropWhile_append_quoted plain,
      List.append_assoc]
  exact List.append_cancel_right whole

theorem quotedPart?_append {pre : Text} (plain : Unquoted pre) (t rest : Text) :
    quotedPart? (pre ++ t.quoted ++ rest) = some (t, rest) := by
  rw [quotedPart?, dropWhile_append_quoted plain, quoted_append]
  exact untilQuote?_flatMap (isQuote_quoteFor t) t rest

theorem quotedPart?_concat {pre : Text} (plain : Unquoted pre) (t : Text) :
    quotedPart? (pre ++ t.quoted) = some (t, []) := by
  rw [← List.append_nil (pre ++ t.quoted), quotedPart?_append plain]

/-- Whatever the quoted texts hold, also what looks like the end of a quoted text. -/
theorem quoted_append_inj {pre pre' t t' rest rest' : Text} (plain : Unquoted pre)
    (plain' : Unquoted pre') (same : pre ++ t.quoted ++ rest = pre' ++ t'.quoted ++ rest') :
    pre = pre' ∧ t = t' ∧ rest = rest' := by
  have front := takeWhile_append_quoted plain t rest
  rw [same, takeWhile_append_quoted plain'] at front
  have part := quotedPart?_append plain t rest
  rw [same, quotedPart?_append plain'] at part
  obtain ⟨text, behind⟩ := Prod.mk.inj (Option.some.inj part)
  exact ⟨front.symm, text.symm, behind.symm⟩

end Text

end SelectorClauses
