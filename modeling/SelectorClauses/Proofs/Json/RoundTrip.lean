import Mathlib.Tactic.SplitIfs
import SelectorClauses.Json.Print
import SelectorClauses.Json.Read

/-!
Reading printed JSON. Main statements: `string?_flatMap_escapedChar`, that any text comes back from its
escapes, with nothing taken of what is behind the closing quote, and `read?_print`, that a value without
numbers comes back from its printed form.
-/
namespace SelectorClauses

namespace Json

/- The characters of a string. -/

theorem exists_hexText {n : Nat} (small : n < 0x10000) :
    ∃ a b c d, hexText 4 n = [a, b, c, d] ∧ hexUnit? a b c d = some n := by
  refine ⟨hexDigit (n / 16 / 16 / 16 % 16), hexDigit (n / 16 / 16 % 16), hexDigit (n / 16 % 16),
    hexDigit (n % 16), rfl, ?_⟩
  simp only [hexUnit?, hexValue?_hexDigit (Nat.mod_lt _ (show 16 > 0 by decide)), Option.bind_eq_bind,
    Option.bind_some, Option.pure_def, Option.some.injEq]
  omega

theorem isHighSurrogate_iff {n : Nat} : isHighSurrogate n = true ↔ 0xd800 ≤ n ∧ n < 0xdc00 := by
  simp [isHighSurrogate]

theorem isLowSurrogate_iff {n : Nat} : isLowSurrogate n = true ↔ 0xdc00 ≤ n ∧ n < 0xe000 := by
  simp [isLowSurrogate]

theorem not_surrogate (c : Char) :
    isHighSurrogate c.toNat = false ∧ isLowSurrogate c.toNat = false := by
  have valid : c.toNat < 0xd800 ∨ 0xdfff < c.toNat ∧ c.toNat < 0x110000 := c.valid
  rw [← Bool.not_eq_true, ← Bool.not_eq_true, isHighSurrogate_iff, isLowSurrogate_iff]
  omega

theorem string?_unicodeEscape {c : Char} (basic : c.toNat < 0x10000) (u : Text) :
    string? (unicodeEscape c.toNat ++ u) = (string? u).map fun (t, rest) => (c :: t, rest) := by
  obtain ⟨a, b, d, e, digits, unit⟩ := exists_hexText basic
  obtain ⟨notHigh, notLow⟩ := not_surrogate c
  rw [unicodeEscape, digits]
  simp [string?, unit, notHigh, notLow]

theorem string?_surrogates {c : Char} (beyond : 0x10000 ≤ c.toNat) (u : Text) :
    string? (unicodeEscape (surrogates c.toNat).1 ++ unicodeEscape (surrogates c.toNat).2 ++ u) =
      (string? u).map fun (t, rest) => (c :: t, rest) := by
  have valid : c.toNat < 0x110000 := by
    have valid : c.toNat < 0xd800 ∨ 0xdfff < c.toNat ∧ c.toNat < 0x110000 := c.valid
    omega
  generalize high : (surrogates c.toNat).1 = m
  generalize low : (surrogates c.toNat).2 = n
  simp only [surrogates] at high low
  have highRange : isHighSurrogate m = true := isHighSurrogate_iff.mpr (by omega)
  have lowRange : isLowSurrogate n = true := isLowSurrogate_iff.mpr (by omega)
  obtain ⟨a, b, d, e, digits, unit⟩ := exists_hexText (show m < 0x10000 by omega)
  obtain ⟨a', b', d', e', digits', unit'⟩ := exists_hexText (show n < 0x10000 by omega)
  have together : 0x10000 + (m - 0xd800) * 0x400 + (n - 0xdc00) = c.toNat := by omega
  rw [unicodeEscape, unicodeEscape, digits, digits']
  simp [string?, unit, unit', highRange, lowRange, together]

theorem string?_plain {c : Char} (notQuote : c ≠ '"') (notBackslash : c ≠ '\\')
    (printable : 0x20 ≤ c.toNat) (u : Text) :
    string? (c :: u) = (string? u).map fun (t, rest) => (c :: t, rest) := by
  have allowed : ¬(c = '\\' ∨ c.toNat < 0x20) := not_or.mpr ⟨notBackslash, by omega⟩
  rw [string?.eq_5 c u notQuote (fun _ _ _ _ _ same => absurd same notBackslash)
    (fun _ _ same => absurd same notBackslash), if_neg allowed]

theorem string?_escapedChar (c : Char) (u : Text) :
    string? (escapedChar c ++ u) = (string? u).map fun (t, rest) => (c :: t, rest) := by
  unfold escapedChar
  split_ifs with mark feed ret tab back form plain basic
  · rcases mark with rfl | rfl <;> simp [string?, letterEscape?]
  · simp [string?, letterEscape?, feed]
  · simp [string?, letterEscape?, ret]
  · simp [string?, letterEscape?, tab]
  · simp [string?, letterEscape?, back]
  · simp [string?, letterEscape?, form]
  · obtain ⟨notQuote, notBackslash⟩ := not_or.mp mark
    exact string?_plain notQuote notBackslash plain.1 u
  · exact string?_unicodeEscape basic u
  · exact string?_surrogates (by omega) u

theorem string?_flatMap_escapedChar (t rest : Text) :
    string? (t.flatMap escapedChar ++ '"' :: rest) = some (t, rest) := by
  induction t with
  | nil => simp [string?]
  | cons c t ih =>
    rw [List.flatMap_cons, List.append_assoc, string?_escapedChar, ih]
    rfl

theorem string_append (t rest : Text) :
    string t ++ rest = '"' :: (t.flatMap escapedChar ++ '"' :: rest) := by
  simp [string]

/- Between the values: space, separators and keys. -/

def AllSpace (t : Text) : Prop := ∀ c ∈ t, isSpace c = true

theorem allSpace_newLine (depth : Nat) : AllSpace (newLine depth) := by
  intro c mem
  rcases List.mem_cons.mp mem with rfl | mem
  · rfl
  · rw [List.eq_of_mem_replicate mem]
    rfl

theorem skipSpace_append {space : Text} (blank : AllSpace space) (t : Text) :
    skipSpace (space ++ t) = skipSpace t := List.dropWhile_append_of_pos blank

theorem skipSpace_cons {c : Char} (solid : isSpace c = false) (t : Text) :
    skipSpace (c :: t) = c :: t := List.dropWhile_cons_of_neg (by simp [solid])

theorem value?_append {space : Text} (blank : AllSpace space) (fuel : Nat) (t : Text) :
    value? fuel (space ++ t) = value? fuel t := by
  cases fuel with
  | zero => rfl
  | succ fuel => simp only [value?, skipSpace_append blank]

theorem value?_blank (fuel : Nat) (t : Text) : value? fuel (' ' :: t) = value? fuel t := by
  have blank : AllSpace [' '] := by simp [AllSpace, isSpace]
  exact value?_append blank fuel t

theorem items?_newLine (fuel depth : Nat) (t : Text) :
    items? fuel (newLine depth ++ t) = items? fuel t := by
  cases fuel with
  | zero => rfl
  | succ fuel => simp only [items?, value?_append (allSpace_newLine depth)]

theorem fields?_newLine (fuel depth : Nat) (t : Text) :
    fields? fuel (newLine depth ++ t) = fields? fuel t := by
  cases fuel with
  | zero => rfl
  | succ fuel => simp only [fields?, key?, skipSpace_append (allSpace_newLine depth)]

theorem separator?_comma (closing : Char) (t : Text) :
    separator? closing (',' :: t) = some (true, t) := by
  simp [separator?, skipSpace_cons, isSpace]

theorem separator?_closing {closing : Char} (solid : isSpace closing = false)
    (notComma : closing ≠ ',') (depth : Nat) (rest : Text) :
    separator? closing (newLine depth ++ closing :: rest) = some (false, rest) := by
  simp [separator?, skipSpace_append (allSpace_newLine depth), skipSpace_cons solid, notComma]

theorem key?_string (k rest : Text) : key? (string k ++ ':' :: rest) = some (k, rest) := by
  rw [string_append, key?, skipSpace_cons (by rfl)]
  simp [string?_flatMap_escapedChar, skipSpace_cons, isSpace]

/- Values. -/

inductive Numberless : Value → Prop
  | null : Numberless .null
  | bool (b : Bool) : Numberless (.bool b)
  | text (t : Text) : Numberless (.text t)
  | list {vs : List Value} (items : ∀ v ∈ vs, Numberless v) : Numberless (.list vs)
  | record {fields : List (Text × Value)} (values : ∀ f ∈ fields, Numberless f.2) :
      Numberless (.record fields)

/-- The printed value is read again at any depth, with as much fuel as it has characters. -/
def Returns (v : Value) : Prop :=
  ∀ depth fuel rest, (print depth v).length ≤ fuel →
    value? fuel (print depth v ++ rest) = some (v, rest)

theorem Numberless.exists_print_cons {v : Value} (h : Numberless v) (depth : Nat) :
    ∃ c r, print depth v = c :: r ∧ isSpace c = false ∧ c ≠ ']' := by
  cases h with
  | null => exact ⟨'n', _, by rw [print], by decide, by decide⟩
  | bool b =>
    cases b with
    | true => exact ⟨'t', _, by rw [print], by decide, by decide⟩
    | false => exact ⟨'f', _, by rw [print], by decide, by decide⟩
  | text t => exact ⟨'"', _, by rw [print, string, List.cons_append], by decide, by decide⟩
  | @list vs _ =>
    cases vs with
    | nil => exact ⟨'[', _, by rw [print], by decide, by decide⟩
    | cons v vs => exact ⟨'[', _, by simp only [print, List.cons_append]; rfl, by decide, by decide⟩
  | @record fields _ =>
    cases fields with
    | nil => exact ⟨'\x7b', _, by rw [print], by decide, by decide⟩
    | cons f fields =>
      exact ⟨'\x7b', _, by simp only [print, List.cons_append]; rfl, by decide, by decide⟩

theorem length_newLine (depth : Nat) : (newLine depth).length = 2 * depth + 1 := by simp [newLine]

theorem items?_print {v : Value} {vs : List Value} (first : Returns v)
    (others : ∀ u ∈ vs, Returns u) (outer inner : Nat) {fuel : Nat}
    (enough : (print inner v).length + (printItems inner vs).length < fuel) (rest : Text) :
    items? fuel (print inner v ++ (printItems inner vs ++ (newLine outer ++ ']' :: rest))) =
      some (v :: vs, rest) := by
  -- each item takes one of the fuel, and the comma before the next one makes up for it
  induction vs generalizing v fuel with
  | nil =>
    obtain ⟨fuel, rfl⟩ := Nat.exists_eq_add_one_of_ne_zero (Nat.ne_zero_of_lt enough)
    rw [items?, first inner fuel _ (by omega)]
    simp [printItems, separator?_closing, isSpace]
  | cons u us ih =>
    obtain ⟨fuel, rfl⟩ := Nat.exists_eq_add_one_of_ne_zero (Nat.ne_zero_of_lt enough)
    simp only [printItems, List.length_append, List.length_cons, length_newLine] at enough
    have behind := ih (others u (by simp)) (fun w mem => others w (by simp [mem]))
      (show _ < fuel by omega)
    rw [items?, first inner fuel _ (by omega)]
    simp [printItems, separator?_comma, items?_newLine, behind]

theorem fields?_print (k : Text) {v : Value} {fields : List (Text × Value)} (first : Returns v)
    (others : ∀ f ∈ fields, Returns f.2) (outer inner : Nat) {fuel : Nat}
    (enough : (print inner v).length + (printFields inner fields).length < fuel) (rest : Text) :
    fields? fuel (string k ++ ':' :: ' ' :: (print inner v ++
      (printFields inner fields ++ (newLine outer ++ '\x7d' :: rest)))) =
      some ((k, v) :: fields, rest) := by
  induction fields generalizing k v fuel with
  | nil =>
    obtain ⟨fuel, rfl⟩ := Nat.exists_eq_add_one_of_ne_zero (Nat.ne_zero_of_lt enough)
    rw [fields?, key?_string]
    simp [value?_blank, first inner fuel _ (by omega), printFields, separator?_closing, isSpace]
  | cons f fields ih =>
    obtain ⟨k', u⟩ := f
    obtain ⟨fuel, rfl⟩ := Nat.exists_eq_add_one_of_ne_zero (Nat.ne_zero_of_lt enough)
    simp only [printFields, List.length_append, List.length_cons, length_newLine] at enough
    have first' : Returns u := others (k', u) (by simp)
    have behind := ih k' first' (fun g mem => others g (by simp [mem])) (show _ < fuel by omega)
    rw [fields?, key?_string]
    simp [value?_blank, first inner fuel _ (by omega), printFields, separator?_comma, fields?_newLine,
      behind]

/-- A printed value has a character, so there is some fuel. -/
theorem Numberless.returns_of_succ {v : Value} (h : Numberless v)
    (reads : ∀ depth fuel rest, (print depth v).length ≤ fuel + 1 →
      value? (fuel + 1) (print depth v ++ rest) = some (v, rest)) : Returns v := by
  intro depth fuel rest enough
  obtain ⟨c, r, printed, -, -⟩ := h.exists_print_cons depth
  have positive : 0 < (print depth v).length := by simp [printed]
  obtain ⟨fuel, rfl⟩ := Nat.exists_eq_add_one_of_ne_zero (show fuel ≠ 0 by omega)
  exact reads depth fuel rest enough

theorem returns_list {vs : List Value} (items : ∀ v ∈ vs, Numberless v)
    (each : ∀ v ∈ vs, Returns v) : Returns (.list vs) := by
  refine (Numberless.list items).returns_of_succ fun depth fuel rest enough => ?_
  cases vs with
  | nil => simp [print, value?, skipSpace_cons, isSpace]
  | cons v vs =>
    simp only [print, List.length_append, List.length_cons, length_newLine] at enough
    have others : ∀ u ∈ vs, Returns u := fun u mem => each u (by simp [mem])
    have inside := items?_print (each v (by simp)) others depth (depth + 1)
      (show _ < fuel by omega) rest
    obtain ⟨c, r, printed, solid, notClosing⟩ := (items v (by simp)).exists_print_cons (depth + 1)
    simp only [print, List.append_assoc, List.cons_append, List.nil_append, value?,
      skipSpace_cons (show isSpace '[' = false by rfl), skipSpace_append (allSpace_newLine _)]
    rw [printed, List.cons_append] at inside ⊢
    rw [skipSpace_cons solid]
    simp [inside, notClosing]

theorem returns_record {fields : List (Text × Value)} (values : ∀ f ∈ fields, Numberless f.2)
    (each : ∀ f ∈ fields, Returns f.2) : Returns (.record fields) := by
  refine (Numberless.record values).returns_of_succ fun depth fuel rest enough => ?_
  cases fields with
  | nil => simp [print, value?, skipSpace_cons, isSpace]
  | cons f fields =>
    obtain ⟨k, v⟩ := f
    simp only [print, List.length_append, List.length_cons, length_newLine] at enough
    have first : Returns v := each (k, v) (by simp)
    have others : ∀ g ∈ fields, Returns g.2 := fun g mem => each g (by simp [mem])
    have inside := fields?_print k first others depth (depth + 1) (show _ < fuel by omega) rest
    simp only [print, List.append_assoc, List.cons_append, List.nil_append, value?,
      skipSpace_cons (show isSpace '\x7b' = false by rfl), skipSpace_append (allSpace_newLine _)]
    rw [string_append] at inside ⊢
    rw [skipSpace_cons (by rfl)]
    simp [inside]

theorem Numberless.returns {v : Value} (h : Numberless v) : Returns v := by
  induction h with
  | null =>
    refine Numberless.null.returns_of_succ fun depth fuel rest _ => ?_
    simp [print, value?, skipSpace_cons, isSpace]
  | bool b =>
    refine (Numberless.bool b).returns_of_succ fun depth fuel rest _ => ?_
    cases b <;> simp [print, value?, skipSpace_cons, isSpace]
  | text t =>
    refine (Numberless.text t).returns_of_succ fun depth fuel rest _ => ?_
    simp [print, string_append, value?, skipSpace_cons, isSpace, string?_flatMap_escapedChar]
  | list items each => exact returns_list items each
  | record values each => exact returns_record values each

/-- A value without numbers comes back from its printed form, with space behind it or without. -/
theorem read?_print {v : Value} (h : Numberless v) {space : Text} (blank : AllSpace space) :
    read? (print 0 v ++ space) = some v := by
  have value := h.returns 0 ((print 0 v ++ space).length + 1) space (by simp; omega)
  have behind : skipSpace space = [] := by
    simpa [skipSpace] using skipSpace_append blank []
  rw [read?, value]
  simp [behind]

end Json

end SelectorClauses
