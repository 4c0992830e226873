import SelectorClauses.Decimal.Layout
import SelectorClauses.Text.Hex
import SelectorClauses.Value.Basic

/-!
JSON text of a value, in ASCII characters only: every item and field on a line of its own, two
spaces deeper than what holds it. A code point beyond the basic plane is written as its two
surrogates.
-/
namespace SelectorClauses

namespace Json

def unicodeEscape (unit : Nat) : Text := '\\' :: 'u' :: hexText 4 unit

def surrogates (n : Nat) : Nat × Nat :=
  (0xd800 + (n - 0x10000) / 0x400, 0xdc00 + (n - 0x10000) % 0x400)

def escapedChar (c : Char) : Text :=
  if c = '"' ∨ c = '\\' then ['\\', c]
  else if c = '\n' then ['\\', 'n']
  else if c = '\r' then ['\\', 'r']
  else if c = '\t' then ['\\', 't']
  else if c = '\x08' then ['\\', 'b']
  else if c = '\x0c' then ['\\', 'f']
  else if 0x20 ≤ c.toNat ∧ c.toNat < 0x7f then [c]
  else if c.toNat < 0x10000 then unicodeEscape c.toNat
  else unicodeEscape (surrogates c.toNat).1 ++ unicodeEscape (surrogates c.toNat).2

def string (t : Text) : Text := '"' :: t.flatMap escapedChar ++ ['"']

def newLine (depth : Nat) : Text := '\n' :: List.replicate (2 * depth) ' '

mutual

def print (depth : Nat) : Value → Text
  | .null => ['n', 'u', 'l', 'l']
  | .bool true => ['t', 'r', 'u', 'e']
  | .bool false => ['f', 'a', 'l', 's', 'e']
  | .int n => Text.ofInt n
  | .real x => Decimal.text Decimal.standardLayout x
  | .text t => string t
  | .list [] => ['[', ']']
  | .list (v :: vs) =>
    '[' :: newLine (depth + 1) ++ print (depth + 1) v ++ printItems (depth + 1) vs
      ++ newLine depth ++ [']']
  | .record [] => ['\x7b', '\x7d']
  | .record ((k, v) :: fields) =>
    '\x7b' :: newLine (depth + 1) ++ string k ++ [':', ' '] ++ print (depth + 1) v
      ++ printFields (depth + 1) fields ++ newLine depth ++ ['\x7d']

def printItems (depth : Nat) : List Value → Text
  | [] => []
  | v :: vs => ',' :: newLine depth ++ print depth v ++ printItems depth vs

def printFields (depth : Nat) : List (Text × Value) → Text
  | [] => []
  | (k, v) :: fields =>
    ',' :: newLine depth ++ string k ++ [':', ' '] ++ print depth v ++ printFields depth fields

end

end Json

end SelectorClauses
