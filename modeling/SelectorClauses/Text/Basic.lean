/-!
Text is a list of code points: lengths and positions count its elements.
-/
namespace SelectorClauses

abbrev Text := List Char

namespace Text

/- A position of the program is any integer. There are two ways to make an index of it. -/

/-- Counted from the front: a position before the text is its start, one past it its end. -/
def clampedIndex (t : Text) (position : Int) : Nat := min position.toNat t.length

/-- Counted from the end when negative, and from the front otherwise. -/
def countedIndex (t : Text) (position : Int) : Nat :=
  if position < 0 then (t.length + position).toNat else position.toNat

theorem clampedIndex_ofNat {t : Text} {n : Nat} (h : n ≤ t.length) :
    t.clampedIndex n = n := by simp [clampedIndex, h]

theorem countedIndex_ofNat (t : Text) (n : Nat) : t.countedIndex n = n := by
  have h : ¬ (n : Int) < 0 := by omega
  simp [countedIndex, h]

/-- A search starts at a signed word of 64 bits, of which `0x8000000000000000 = 2 ^ 63` is the first
above. No text is longer than the largest of them, so each position in a text is one. -/
def isSearchable (t : Text) (position : Int) : Bool :=
  -0x8000000000000000 ≤ position && (position < 0x8000000000000000 || position ≤ t.length)

theorem isSearchable_iff {t : Text} {position : Int} : t.isSearchable position = true ↔
    -0x8000000000000000 ≤ position ∧ (position < 0x8000000000000000 ∨ position ≤ t.length) := by
  simp only [isSearchable, Bool.and_eq_true, Bool.or_eq_true, decide_eq_true_eq]

theorem isSearchable_of_le {t : Text} {position : Int} (above : -0x8000000000000000 ≤ position)
    (inside : position ≤ t.length) : t.isSearchable position = true :=
  isSearchable_iff.mpr ⟨above, Or.inr inside⟩

theorem isSearchable_ofNat {t : Text} {n : Nat} (inside : n ≤ t.length) :
    t.isSearchable n = true :=
  isSearchable_of_le (by omega) (by omega)

/-- Cuts at the first occurrence of a character, which belongs to neither part. -/
def cutAt? (sep : Char) : Text → Option (Text × Text)
  | [] => none
  | c :: r => if c = sep then some ([], r) else (cutAt? sep r).map fun (a, b) => (c :: a, b)

def join (sep : Text) (ts : List Text) : Text := List.intercalate sep ts

def ofNat (n : Nat) : Text := Nat.toDigits 10 n

def ofInt : Int → Text
  | .ofNat n => ofNat n
  | .negSucc n => '-' :: ofNat (n + 1)

end Text

end SelectorClauses
