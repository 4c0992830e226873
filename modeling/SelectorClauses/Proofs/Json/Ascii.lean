import Mathlib.Tactic.SplitIfs
import SelectorClauses.Proofs.Json.RoundTrip

/-!
The characters of printed JSON. Main statement: `Numberless.ascii_print` says that a value without numbers
is printed in ASCII, whatever characters its texts and field names have.
-/
namespace SelectorClauses

namespace Json

def Ascii (t : Text) : Prop := ∀ c ∈ t, c.toNat < 0x80

@[simp] theorem ascii_nil : Ascii [] := by simp [Ascii]

@[simp] theorem ascii_cons {c : Char} {t : Text} : Ascii (c :: t) ↔ c.toNat < 0x80 ∧ Ascii t :=
  List.forall_mem_cons

@[simp] theorem ascii_append {s t : Text} : Ascii (s ++ t) ↔ Ascii s ∧ Ascii t :=
  List.forall_mem_append

/- Escapes. -/

theorem toNat_hexDigit_lt {n : Nat} (small : n < 16) : (hexDigit n).toNat < 0x80 := by
  revert n
  decide

theorem ascii_hexText (width n : Nat) : Ascii (hexText width n) := by
  induction width generalizing n with
  | zero => exact ascii_nil
  | succ width ih =>
    rw [hexText, ascii_append]
    refine ⟨ih (n / 16), ?_⟩
    rw [ascii_cons]
    exact ⟨toNat_hexDigit_lt (Nat.mod_lt n (by decide)), ascii_nil⟩

theorem ascii_unicodeEscape (unit : Nat) : Ascii (unicodeEscape unit) := by
  rw [unicodeEscape, ascii_cons, ascii_cons]
  exact ⟨by decide, by decide, ascii_hexText 4 unit⟩

theorem ascii_escapedChar (c : Char) : Ascii (escapedChar c) := by
  unfold escapedChar
  split_ifs with mark feed ret tab back form plain basic
  · rcases mark with rfl | rfl <;> simp
  · simp
  · simp
  · simp
  · simp
  · simp
  · rw [ascii_cons]
    exact ⟨Nat.lt_trans plain.2 (by decide), ascii_nil⟩
  · exact ascii_unicodeEscape c.toNat
  · exact ascii_append.mpr ⟨ascii_unicodeEscape _, ascii_unicodeEscape _⟩

theorem ascii_string (t : Text) : Ascii (string t) := by
  have inside : Ascii (t.flatMap escapedChar) := by
    intro d mem
    obtain ⟨c, -, mem⟩ := List.mem_flatMap.mp mem
    exact ascii_escapedChar c d mem
  simp [string, inside]

/- Values. -/

theorem ascii_newLine (depth : Nat) : Ascii (newLine depth) := by
  intro c mem
  rcases List.mem_cons.mp mem with rfl | mem
  · decide
  · rw [List.eq_of_mem_replicate mem]
    decide

theorem ascii_printItems {vs : List Value} (each : ∀ v ∈ vs, ∀ depth, Ascii (print depth v))
    (depth : Nat) : Ascii (printItems depth vs) := by
  induction vs with
  | nil => simp [printItems]
  | cons v vs ih =>
    obtain ⟨first, others⟩ := List.forall_mem_cons.mp each
    simp [printItems, ascii_newLine, first, ih others]

theorem ascii_printFields {fields : List (Text × Value)}
    (each : ∀ f ∈ fields, ∀ depth, Ascii (print depth f.2)) (depth : Nat) :
    Ascii (printFields depth fields) := by
  induction fields with
  | nil => simp [printFields]
  | cons f fields ih =>
    obtain ⟨first, others⟩ := List.forall_mem_cons.mp each
    simp [printFields, ascii_newLine, ascii_string, first, ih others]

theorem Numberless.ascii_print {v : Value} (h : Numberless v) (depth : Nat) :
    Ascii (print depth v) := by
  induction h generalizing depth with
  | null => simp [print]
  | bool b => cases b <;> simp [print]
  | text t =>
    rw [print]
    exact ascii_string t
  | @list vs items each =>
    cases vs with
    | nil => simp [print]
    | cons v vs =>
      obtain ⟨first, others⟩ := List.forall_mem_cons.mp each
      have behind := ascii_printItems others (depth + 1)
      simp [print, ascii_newLine, first, behind]
  | @record fields values each =>
    cases fields with
    | nil => simp [print]
    | cons f fields =>
      obtain ⟨first, others⟩ := List.forall_mem_cons.mp each
      have behind := ascii_printFields others (depth + 1)
      simp [print, ascii_newLine, ascii_string, first, behind]

end Json

end SelectorClauses
