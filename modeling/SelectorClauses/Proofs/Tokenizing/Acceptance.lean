import Mathlib.Order.Bounds.Defs
import SelectorClauses.Proofs.Tokenizing.Reads

/-!
Which texts split into tokens, and into which. Main statements: a text is accepted exactly if it
is made of items (`accepted_iff_isItems`), splitting and printing are inverse to each other on
normal forms (`tokenize_eq_ok_iff_normalForm`), and a run stops at the end of the longest prefix
that is accepted (`position_run_isGreatest`).
-/
namespace SelectorClauses

open Token

def Accepted (source : Text) : Prop := ∃ ts, tokenize source = .ok ts

theorem stands_nil {t : Token} (h : t.WellFormed) : t.Stands [] := stands_of_head h (by simp)

theorem reads_nil_iff {source : Text} {ts : List Token} :
    Reads source ts [] ↔ NormalForm ts ∧ source = textOf ts := by
  rw [reads_iff, List.append_nil]
  constructor
  · intro h
    exact ⟨h.1, h.2.1⟩
  · intro h
    exact ⟨h.1, h.2, fun s mem => stands_nil (h.1.wellFormed s (List.mem_of_getLast? mem))⟩

theorem exists_reads_nil_iff_isItems {source : Text} :
    (∃ ts, Reads source ts []) ↔ IsItems source := by
  simp only [reads_nil_iff]
  constructor
  · intro h
    obtain ⟨ts, normal, rfl⟩ := h
    exact isItems_textOf normal.wellFormed
  · exact exists_normalForm_of_isItems

theorem accepted_iff_exists_reads {source : Text} : Accepted source ↔ ∃ ts, Reads source ts [] :=
  exists_congr fun _ => tokenize_eq_ok_iff_reads

theorem tokenize_textOf {ts : List Token} (normal : NormalForm ts) :
    tokenize (textOf ts) = .ok ts :=
  tokenize_eq_ok_iff_reads.mpr (reads_nil_iff.mpr ⟨normal, rfl⟩)

theorem accepted_textOf {ts : List Token} (normal : NormalForm ts) : Accepted (textOf ts) :=
  ⟨ts, tokenize_textOf normal⟩

/-- Reading as far as possible at every step never misses a way to split the whole text. -/
theorem accepted_iff_isItems (source : Text) : Accepted source ↔ IsItems source := by
  rw [accepted_iff_exists_reads, exists_reads_nil_iff_isItems]

theorem textOf_eq_flatten_print {ts : List Token} (wellFormed : ∀ t ∈ ts, t.WellFormed) :
    textOf ts = (ts.map Token.print).flatten := by
  have same : ts.map Token.value = ts.map Token.print :=
    List.map_congr_left fun t mem => (wellFormed t mem).value_eq
  rw [textOf, same]

/-- The tokens of a text are the one normal form that prints it: normal forms are read back as
they were printed, and whatever is read is a normal form whose values make up the text. -/
theorem tokenize_eq_ok_iff_normalForm (source : Text) (ts : List Token) :
    tokenize source = .ok ts ↔
      NormalForm ts ∧ (ts.map Token.print).flatten = source ∧
        (ts.map Token.value).flatten = source := by
  rw [tokenize_eq_ok_iff_reads, reads_nil_iff]
  constructor
  · intro h
    obtain ⟨normal, rfl⟩ := h
    exact ⟨normal, (textOf_eq_flatten_print normal.wellFormed).symm, rfl⟩
  · intro h
    exact ⟨h.1, h.2.2.symm⟩

example : tokenize "a#b:not([c])".toList =
    .ok [ofClause false (.tag ['a']), ofClause false (.id ['b']),
      ofClause true (.attr ['c'] none)] := by decide +kernel

/- How far a run goes. -/

theorem position_of_stops {rest : Text} {run : Run} (h : Stops rest run) : run.position = 0 := by
  cases h <;> rfl

theorem position_run_of_reads {t : Text} {ts : List Token} {rest : Text} (h : Reads t ts rest)
    (stops : Stops rest (Cursor.ofText rest).run) :
    (Cursor.ofText t).run.position = (textOf ts).length := by
  rw [run_of_reads h]
  simp [Run.after, position_of_stops stops]

theorem length_textOf_le_position_run {t : Text} {ts : List Token} {rest : Text}
    (h : Reads t ts rest) : ((textOf ts).length : Int) ≤ (Cursor.ofText t).run.position := by
  obtain ⟨us, last, reads, stops⟩ := exists_reads_stops rest
  rw [position_run_of_reads (h.append reads) stops, textOf_append, List.length_append]
  omega

/-- A run over a text goes at least as far as any beginning of the text that is made of items. -/
theorem length_le_position_run_of_isItems {u : Text} (h : IsItems u) (rest : Text) :
    (u.length : Int) ≤ (Cursor.ofText (u ++ rest)).run.position := by
  obtain ⟨ts, normal, rfl⟩ := exists_normalForm_of_isItems h
  rcases List.eq_nil_or_concat ts with rfl | ⟨init, last, rfl⟩
  · exact length_textOf_le_position_run (.nothing _)
  · -- all but the last token are read as they are, and the last one as it is or longer
    rw [List.concat_eq_append] at normal ⊢
    obtain ⟨before, wellFormed, apart⟩ := normalForm_concat_iff.mp normal
    have first : Reads (textOf (init ++ [last]) ++ rest) init (last.value ++ rest) := by
      refine reads_iff.mpr ⟨before, by simp, ?_⟩
      intro t mem
      exact stands_of_apart (before.wellFormed t (List.mem_of_getLast? mem)) wellFormed
        (apart t mem) rest
    obtain ⟨tok, r, found, split, short⟩ := exists_next_of_wellFormed wellFormed rest
    have second : Reads (last.value ++ rest) [tok] r := reads_of_next split found
    have far := length_textOf_le_position_run (first.append second)
    have lengths := congrArg List.length split
    simp only [textOf_append, textOf_cons, textOf_nil, List.append_nil, List.length_append]
      at far lengths ⊢
    omega

theorem exists_position_run (source : Text) :
    ∃ p : Nat, (Cursor.ofText source).run.position = p ∧ p ≤ source.length ∧
      Accepted (source.take p) := by
  obtain ⟨ts, rest, reads, stops⟩ := exists_reads_stops source
  refine ⟨(textOf ts).length, position_run_of_reads reads stops, ?_, ?_⟩
  · rw [reads.text_eq, List.length_append]
    omega
  · rw [reads.text_eq, List.take_left]
    exact accepted_textOf (reads_iff.mp reads).1

theorem le_position_run_of_accepted {source : Text} {q : Nat} (inside : q ≤ source.length)
    (accepted : Accepted (source.take q)) : (q : Int) ≤ (Cursor.ofText source).run.position := by
  have items := exists_reads_nil_iff_isItems.mp (accepted_iff_exists_reads.mp accepted)
  have far := length_le_position_run_of_isItems items (source.drop q)
  rw [List.take_append_drop, List.length_take] at far
  omega

/-- A run stops at the end of the longest accepted prefix, and a text that is not accepted has no
accepted prefix that goes further. -/
theorem position_run_isGreatest (source : Text) :
    ∃ p : Nat, (Cursor.ofText source).run.position = p ∧
      IsGreatest {q | q ≤ source.length ∧ Accepted (source.take q)} p ∧
      (Accepted source ↔ p = source.length) ∧
      (¬ Accepted source → Accepted (source.take p) ∧ ∀ q, p < q → ¬ Accepted (source.take q)) := by
  obtain ⟨p, position, inside, accepted⟩ := exists_position_run source
  have greatest : ∀ q, q ≤ source.length → Accepted (source.take q) → q ≤ p := by
    intro q short prefixAccepted
    have := le_position_run_of_accepted short prefixAccepted
    omega
  refine ⟨p, position, ⟨⟨inside, accepted⟩, fun q mem => greatest q mem.1 mem.2⟩, ?_, ?_⟩
  · constructor
    · intro whole
      have := greatest source.length (Nat.le_refl _) (by rwa [List.take_length])
      omega
    · intro same
      rwa [same, List.take_length] at accepted
  · intro refused
    refine ⟨accepted, ?_⟩
    intro q further longer
    by_cases short : q ≤ source.length
    · have := greatest q short longer
      omega
    · rw [List.take_of_length_le (by omega)] at longer
      exact refused longer

end SelectorClauses
