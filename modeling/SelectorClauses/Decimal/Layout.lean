import SelectorClauses.Decimal.Shortest
import SelectorClauses.Text.Basic

/-!
How a decimal is laid out as text: positional with a digit on both sides of the point while the
exponent of the first digit is neither too small nor too large, and else with a mark and a signed
exponent of at least two digits.
-/
namespace SelectorClauses

namespace Decimal

structure Layout where
  leastPositional : Int
  mostPositional : Int
  mark : Char
  exponentWidth : Nat
  notANumber : Text
  infinite : Text

/-- Positional from 0.0001 up to below ten to the sixteenth. -/
def standardLayout : Layout :=
  ⟨-4, 15, 'e', 2, ['n', 'a', 'n'], ['i', 'n', 'f']⟩

def padZeros (width : Nat) (t : Text) : Text := List.replicate (width - t.length) '0' ++ t

/-- The digits with the point behind the digit of `leading`, the exponent of the first digit. -/
def positional (digits : Text) (leading : Int) : Text :=
  if leading < 0 then '0' :: '.' :: List.replicate (-leading - 1).toNat '0' ++ digits
  else
    let n := leading.toNat + 1
    let whole := digits.take n
    let fraction := digits.drop n
    whole ++ List.replicate (n - whole.length) '0' ++ ['.']
      ++ (if fraction.isEmpty then ['0'] else fraction)

def exponential (l : Layout) (digits : Text) (leading : Int) : Text :=
  let fraction := digits.drop 1
  digits.take 1 ++ (if fraction.isEmpty then [] else '.' :: fraction)
    ++ [l.mark, if leading < 0 then '-' else '+']
    ++ padZeros l.exponentWidth (Text.ofNat leading.natAbs)

def dropTrailingZeros (t : Text) : Text := (t.reverse.dropWhile (· == '0')).reverse

def Scaled.text (l : Layout) (d : Scaled) : Text :=
  let written := Text.ofNat d.digits
  let leading := d.exponent + written.length - 1
  let digits := dropTrailingZeros written
  if l.leastPositional ≤ leading ∧ leading ≤ l.mostPositional then positional digits leading
  else exponential l digits leading

def signed (negative : Bool) (t : Text) : Text := if negative then '-' :: t else t

def text (l : Layout) (x : Float) : Text :=
  match partsOf x with
  | .notANumber => l.notANumber
  | .infinite negative => signed negative l.infinite
  | .zero negative => signed negative ['0', '.', '0']
  | .finite negative m q narrow => signed negative ((shortest m q narrow).text l)

end Decimal

end SelectorClauses
