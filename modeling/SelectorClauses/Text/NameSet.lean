import SelectorClauses.Text.Basic

/-!
The order of texts by code point, and finite sets of texts, kept as the strictly ascending list
of their members. Main statements: the order is irreflexive, transitive and total, and inserting
a text adds it and nothing else.
-/
namespace SelectorClauses

namespace Text

/-- Whether a text stands before another: it is a proper beginning of the other, or has the
smaller code point where they first differ. -/
def before : Text → Text → Bool
  | [], [] => false
  | [], _ :: _ => true
  | _ :: _, [] => false
  | c :: r, d :: t => decide (c.toNat < d.toNat) || (c == d && before r t)

theorem before_irrefl (t : Text) : before t t = false := by
  induction t with
  | nil => rfl
  | cons c r ih => simp [before, ih]

theorem before_trans {s t u : Text} (h₁ : before s t = true) (h₂ : before t u = true) :
    before s u = true := by
  induction s generalizing t u with
  | nil =>
    cases u with
    | nil => cases t <;> simp [before] at h₁ h₂
    | cons => rfl
  | cons c r ih =>
    cases t with
    | nil => simp [before] at h₁
    | cons d t =>
      cases u with
      | nil => simp [before] at h₂
      | cons e u =>
        simp only [before, Bool.or_eq_true, Bool.and_eq_true, decide_eq_true_eq, beq_iff_eq]
          at h₁ h₂ ⊢
        rcases h₁ with h₁ | ⟨rfl, h₁⟩ <;> rcases h₂ with h₂ | ⟨rfl, h₂⟩
        · exact Or.inl (by omega)
        · exact Or.inl h₁
        · exact Or.inl h₂
        · exact Or.inr ⟨rfl, ih h₁ h₂⟩

theorem before_or_eq_or_before (s t : Text) : before s t = true ∨ s = t ∨ before t s = true := by
  induction s generalizing t with
  | nil => cases t <;> simp [before]
  | cons c r ih =>
    cases t with
    | nil => simp [before]
    | cons d t =>
      simp only [before, Bool.or_eq_true, Bool.and_eq_true, decide_eq_true_eq, beq_iff_eq]
      rcases Nat.lt_trichotomy c.toNat d.toNat with h | h | h
      · exact Or.inl (Or.inl h)
      · have hcd : c = d := Char.toNat_inj.1 h
        subst hcd
        rcases ih t with h | h | h
        · exact Or.inl (Or.inr ⟨rfl, h⟩)
        · exact Or.inr (Or.inl (by rw [h]))
        · exact Or.inr (Or.inr (Or.inr ⟨rfl, h⟩))
      · exact Or.inr (Or.inr (Or.inl h))

end Text

def Ascending (ts : List Text) : Prop := ts.Pairwise fun s t => Text.before s t = true

structure NameSet where
  toList : List Text
  ascending : Ascending toList

namespace NameSet

def insertInto (t : Text) : List Text → List Text
  | [] => [t]
  | u :: us => if t.before u then t :: u :: us else if t = u then u :: us else u :: insertInto t us

theorem mem_insertInto {t u : Text} {us : List Text} :
    u ∈ insertInto t us ↔ u = t ∨ u ∈ us := by
  induction us with
  | nil => simp [insertInto]
  | cons v vs ih =>
    rw [insertInto]
    split
    · simp
    · split
      · next h => simp [h]
      · simp [ih, or_left_comm]

theorem ascending_insertInto (t : Text) {us : List Text} (h : Ascending us) :
    Ascending (insertInto t us) := by
  induction us with
  | nil => simp [insertInto, Ascending]
  | cons u us ih =>
    obtain ⟨hu, hus⟩ := List.pairwise_cons.1 h
    rw [insertInto]
    split
    · next ht =>
      refine List.pairwise_cons.2 ⟨fun v hv => ?_, h⟩
      rcases List.mem_cons.1 hv with rfl | hv
      · exact ht
      · exact Text.before_trans ht (hu v hv)
    · next hlt =>
      split
      · exact h
      · next hne =>
        refine List.pairwise_cons.2 ⟨fun v hv => ?_, ih hus⟩
        rcases mem_insertInto.1 hv with rfl | hv
        · rcases Text.before_or_eq_or_before u v with h | h | h
          · exact h
          · exact absurd h.symm hne
          · exact absurd h hlt
        · exact hu v hv

def empty : NameSet := ⟨[], .nil⟩

def insert (t : Text) (s : NameSet) : NameSet :=
  ⟨insertInto t s.toList, ascending_insertInto t s.ascending⟩

def ofList (ts : List Text) : NameSet := ts.foldr insert empty

instance : Membership Text NameSet := ⟨fun s t => t ∈ s.toList⟩

theorem mem_def {t : Text} {s : NameSet} : t ∈ s ↔ t ∈ s.toList := Iff.rfl

theorem mem_insert {t u : Text} {s : NameSet} : u ∈ s.insert t ↔ u = t ∨ u ∈ s := mem_insertInto

theorem mem_ofList {t : Text} {ts : List Text} : t ∈ ofList ts ↔ t ∈ ts := by
  induction ts with
  | nil => simp [ofList, empty, mem_def]
  | cons u us ih => simpa [ofList, mem_insert] using or_congr_right ih

end NameSet

end SelectorClauses
