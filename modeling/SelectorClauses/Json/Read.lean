import SelectorClauses.Text.Hex
import SelectorClauses.Value.Basic

/-!
Reading JSON text. A number with a fraction or an exponent is a real number and any other an
integer. A text with a surrogate that has no partner is refused.
-/
namespace SelectorClauses

namespace Json

def isSpace (c : Char) : Bool := c == ' ' || c == '\t' || c == '\n' || c == '\r'

def skipSpace (t : Text) : Text := t.dropWhile isSpace

def hexUnit? (a b c d : Char) : Option Nat := do
  return (((← hexValue? a) * 16 + (← hexValue? b)) * 16 + (← hexValue? c)) * 16 + (← hexValue? d)

def isHighSurrogate (n : Nat) : Bool := 0xd800 ≤ n && n < 0xdc00

def isLowSurrogate (n : Nat) : Bool := 0xdc00 ≤ n && n < 0xe000

def letterEscape? : Char → Option Char
  | '"' => some '"'
  | '\\' => some '\\'
  | '/' => some '/'
  | 'b' => some '\x08'
  | 'f' => some '\x0c'
  | 'n' => some '\n'
  | 'r' => some '\r'
  | 't' => some '\t'
  | _ => none

def string? : Text → Option (Text × Text)
  | [] => none
  | '"' :: r => some ([], r)
  | '\\' :: 'u' :: a :: b :: c :: d :: r =>
    match hexUnit? a b c d with
    | none => none
    | some high =>
      if isHighSurrogate high then
        match r with
        | '\\' :: 'u' :: a :: b :: c :: d :: r =>
          match hexUnit? a b c d with
          | none => none
          | some low =>
            if isLowSurrogate low then
              (string? r).map fun (t, rest) =>
                (Char.ofNat (0x10000 + (high - 0xd800) * 0x400 + (low - 0xdc00)) :: t, rest)
            else none
        | _ => none
      else if isLowSurrogate high then none
      else (string? r).map fun (t, rest) => (Char.ofNat high :: t, rest)
  | '\\' :: c :: r =>
    match letterEscape? c with
    | none => none
    | some c => (string? r).map fun (t, rest) => (c :: t, rest)
  | c :: r =>
    if c = '\\' ∨ c.toNat < 0x20 then none
    else (string? r).map fun (t, rest) => (c :: t, rest)

def isDigit (c : Char) : Bool := '0' ≤ c && c ≤ '9'

def natOf (digits : Text) : Nat :=
  digits.foldl (fun n c => 10 * n + (c.toNat - '0'.toNat)) 0

/-- Digits behind a full stop: none without a full stop, and refused without a digit behind it. -/
def fraction? : Text → Option (Option Text × Text)
  | '.' :: r =>
    let digits := r.takeWhile isDigit
    if digits.isEmpty then none else some (some digits, r.dropWhile isDigit)
  | r => some (none, r)

def exponentDigits? (negative : Bool) (r : Text) : Option (Option Int × Text) :=
  let digits := r.takeWhile isDigit
  let n : Int := natOf digits
  if digits.isEmpty then none else some (some (if negative then -n else n), r.dropWhile isDigit)

def exponent? : Text → Option (Option Int × Text)
  | c :: r =>
    if c = 'e' ∨ c = 'E' then
      match r with
      | '-' :: r => exponentDigits? true r
      | '+' :: r => exponentDigits? false r
      | r => exponentDigits? false r
    else some (none, c :: r)
  | [] => some (none, [])

/-- The double nearest to `n * 10 ^ e`. Beyond the range of doubles no power is computed. -/
def realOf (n : Nat) (e : Int) : Float :=
  if n = 0 then 0
  else
    let leading : Int := (Nat.toDigits 10 n).length + e
    if 400 < leading then 1 / 0
    else if leading < -400 then 0
    else Float.ofScientific n (e < 0) e.natAbs

def number? (t : Text) : Option (Value × Text) := do
  let (negative, r) := match t with
    | '-' :: r => (true, r)
    | r => (false, r)
  let whole := r.takeWhile isDigit
  if whole.isEmpty || (1 < whole.length && whole.head? == some '0') then none
  else
    let (fraction, r) ← fraction? (r.dropWhile isDigit)
    let (exponent, rest) ← exponent? r
    if fraction.isNone && exponent.isNone then
      let n : Int := natOf whole
      return (.int (if negative then -n else n), rest)
    else
      let digits := fraction.getD []
      let x := realOf (natOf (whole ++ digits)) (exponent.getD 0 - digits.length)
      return (.real (if negative then -x else x), rest)

/-- What stands behind an item or a field: a comma, or the bracket that closes. -/
def separator? (closing : Char) (t : Text) : Option (Bool × Text) :=
  match skipSpace t with
  | c :: r => if c = ',' then some (true, r) else if c = closing then some (false, r) else none
  | [] => none

def key? (t : Text) : Option (Text × Text) :=
  match skipSpace t with
  | '"' :: r => do
    let (k, r) ← string? r
    match skipSpace r with
    | ':' :: r => return (k, r)
    | _ => none
  | _ => none

mutual

def value? : Nat → Text → Option (Value × Text)
  | 0, _ => none
  | fuel + 1, t =>
    match skipSpace t with
    | 'n' :: 'u' :: 'l' :: 'l' :: r => some (.null, r)
    | 't' :: 'r' :: 'u' :: 'e' :: r => some (.bool true, r)
    | 'f' :: 'a' :: 'l' :: 's' :: 'e' :: r => some (.bool false, r)
    | '"' :: r => (string? r).map fun (t, rest) => (.text t, rest)
    | '[' :: r =>
      match skipSpace r with
      | ']' :: r => some (.list [], r)
      | r => (items? fuel r).map fun (vs, rest) => (.list vs, rest)
    | '\x7b' :: r =>
      match skipSpace r with
      | '\x7d' :: r => some (.record [], r)
      | r => (fields? fuel r).map fun (fs, rest) => (.record fs, rest)
    | r => number? r

def items? : Nat → Text → Option (List Value × Text)
  | 0, _ => none
  | fuel + 1, t => do
    let (v, r) ← value? fuel t
    let (more, r) ← separator? ']' r
    if more then
      let (vs, rest) ← items? fuel r
      return (v :: vs, rest)
    else return ([v], r)

def fields? : Nat → Text → Option (List (Text × Value) × Text)
  | 0, _ => none
  | fuel + 1, t => do
    let (k, r) ← key? t
    let (v, r) ← value? fuel r
    let (more, r) ← separator? '\x7d' r
    if more then
      let (fs, rest) ← fields? fuel r
      return ((k, v) :: fs, rest)
    else return ([(k, v)], r)

end

/-- Reads a whole text as one value. Each level of nesting and each item takes a character, so
the length of the text bounds the recursion. -/
def read? (t : Text) : Option Value := do
  let (v, rest) ← value? (t.length + 1) t
  if (skipSpace rest).isEmpty then some v else none

end Json

end SelectorClauses
