/-!
The shortest decimal of a double: the fewest digits that read back as the same number and, of
those, the nearest to it. A number m * 2^q is what all reals of an interval round to; the
interval reaches half way to each neighbour and has its ends exactly when m is even. The search
tries one digit, two digits and so on, and in each grid of decimals the two neighbours of the
number. A tie between them goes to the even one.
-/
namespace SelectorClauses

namespace Decimal

def twoTo (n : Nat) : Nat := Nat.pow 2 n

def tenTo (n : Nat) : Nat := Nat.pow 10 n

/-- A positive decimal `digits * 10 ^ exponent`. -/
structure Scaled where
  digits : Nat
  exponent : Int
deriving DecidableEq, Repr

/-- The value and the reals that round to it, all over one denominator. -/
structure Interval where
  low : Nat
  value : Nat
  high : Nat
  denominator : Nat
  hasEnds : Bool
deriving Repr

/-- The interval of m * 2^q. The lower neighbour is nearer when `narrow`. -/
def interval (m : Nat) (q : Int) (narrow : Bool) : Interval :=
  let up := twoTo q.toNat
  { low := (4 * m - (if narrow then 1 else 2)) * up
    value := 4 * m * up
    high := (4 * m + 2) * up
    denominator := 4 * twoTo (-q).toNat
    hasEnds := m % 2 == 0 }

def Interval.holds (i : Interval) (n : Nat) (e : Int) : Bool :=
  let x := n * tenTo e.toNat * i.denominator
  let scale := tenTo (-e).toNat
  if i.hasEnds then i.low * scale ≤ x && x ≤ i.high * scale
  else i.low * scale < x && x < i.high * scale

def digitCount (n : Nat) : Nat := if n = 0 then 0 else (Nat.toDigits 10 n).length

def leadingExponent (numerator denominator : Nat) : Int :=
  if denominator ≤ numerator then Int.ofNat (digitCount (numerator / denominator)) - 1
  else Int.negOfNat (digitCount ((denominator + numerator - 1) / numerator - 1))

/-- The nearer neighbour in the grid of multiples of `10 ^ e` that lies in the interval. -/
def Interval.neighbour? (i : Interval) (e : Int) : Option Nat :=
  let numerator := i.value * tenTo (-e).toNat
  let denominator := i.denominator * tenTo e.toNat
  let below := numerator / denominator
  let twice := 2 * (numerator % denominator)
  let nearBelow := twice < denominator || (twice == denominator && below % 2 == 0)
  match i.holds below e, i.holds (below + 1) e with
  | true, true => some (if nearBelow then below else below + 1)
  | true, false => some below
  | false, true => some (below + 1)
  | false, false => none

def Interval.search (i : Interval) : Nat → Int → Scaled
  | 0, e => ⟨i.value * tenTo (-e).toNat / (i.denominator * tenTo e.toNat), e⟩
  | fuel + 1, e =>
    match i.neighbour? e with
    | some n => ⟨n, e⟩
    | none => i.search fuel (e - 1)

/-- Seventeen digits tell any two doubles apart. -/
def shortest (m : Nat) (q : Int) (narrow : Bool) : Scaled :=
  let i := interval m q narrow
  i.search 17 (leadingExponent i.value i.denominator)

inductive Parts
  | notANumber
  | infinite (negative : Bool)
  | zero (negative : Bool)
  | finite (negative : Bool) (m : Nat) (q : Int) (narrow : Bool)
deriving Repr

def partsOf (x : Float) : Parts :=
  let bits : Nat := x.toBits.toNat
  let negative := bits / twoTo 63 == 1
  let field : Nat := bits / twoTo 52 % 2048
  let fraction : Nat := bits % twoTo 52
  if field = 2047 then if fraction = 0 then .infinite negative else .notANumber
  else if field = 0 then
    if fraction = 0 then .zero negative else .finite negative fraction (-1074) false
  else .finite negative (twoTo 52 + fraction) (field - 1075) (fraction == 0 && 1 < field)

end Decimal

end SelectorClauses
