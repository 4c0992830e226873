import SelectorClauses.Token.Reader

/-!
A cursor moves over a text token by token. Its length says how far it goes; a fresh cursor goes
over the whole text, but position and length may be any integers. A run ends because each token
read moves the position forward.
-/
namespace SelectorClauses

structure Cursor where
  source : Text
  position : Int
  length : Int
deriving DecidableEq, Repr

/-- How a run over a text ends: its tokens or the fault, and where the cursor then stands. -/
structure Run where
  result : Except ReadError (List Token)
  position : Int

namespace Cursor

def ofText (source : Text) : Cursor := ⟨source, 0, source.length⟩

def nextOf (kinds : List Kind) (c : Cursor) : Except ReadError (Option Token) :=
  Token.readFirst c.source c.position kinds

def next (c : Cursor) : Except ReadError (Option Token) := c.nextOf Kind.all

def moved (c : Cursor) (t : Token) : Cursor := { c with position := c.position + t.length }

def advance (c : Cursor) : Except ReadError (Option Token) × Cursor :=
  match c.next with
  | .ok (some t) => (.ok (some t), c.moved t)
  | found => (found, c)

def remainder (c : Cursor) : Text := c.source.drop (c.source.countedIndex c.position)

theorem length_pos_of_nextOf {kinds : List Kind} {c : Cursor} {t : Token}
    (h : c.nextOf kinds = .ok (some t)) : 0 < t.length := Token.length_pos_of_readFirst h

def runOf (kinds : List Kind) (c : Cursor) : Run :=
  if c.position < c.length then
    match _h : c.nextOf kinds with
    | .ok (some t) =>
      let rest := runOf kinds (c.moved t)
      { rest with result := rest.result.map (t :: ·) }
    | .ok none => ⟨.error (.fault (.unrecognizedSyntax c.remainder c.position)), c.position⟩
    | .error e => ⟨.error e, c.position⟩
  else ⟨.ok [], c.position⟩
termination_by (c.length - c.position).toNat
decreasing_by
  have := length_pos_of_nextOf _h
  simp only [moved]
  omega

def run (c : Cursor) : Run := c.runOf Kind.all

/-- A run that starts in the text, or not too far before it, stays where the text can be searched. -/
theorem runOf_ne_unsearchable {kinds : List Kind} {c : Cursor}
    (above : -0x8000000000000000 ≤ c.position) (inside : c.position ≤ c.source.length) (refused : Unsearchable) :
    (c.runOf kinds).result ≠ .error (.unsearchable refused) := by
  fun_induction runOf kinds c with
  | case1 c unfinished t found rest ih =>
    have some_character := length_pos_of_nextOf found
    have stays := Token.add_length_le_of_readFirst found
    have later := ih (by simp only [moved]; omega) stays
    intro h
    cases result : rest.result with
    | ok ts => simp [result, Except.map] at h
    | error e =>
      rw [result] at h
      exact later (result.trans h)
  | case2 c unfinished found => simp
  | case3 c unfinished e found =>
    rintro ⟨⟩
    exact Token.readFirst_ne_unsearchable (Text.isSearchable_of_le above inside) kinds refused found
  | case4 c finished => simp

theorem result_runOf_ofText_ne_unsearchable (kinds : List Kind) (source : Text)
    (refused : Unsearchable) :
    ((ofText source).runOf kinds).result ≠ .error (.unsearchable refused) := by
  apply runOf_ne_unsearchable <;> simp [ofText]

end Cursor

def tokenize (source : Text) : Except Fault (List Token) :=
  match found : (Cursor.ofText source).run.result with
  | .ok ts => .ok ts
  | .error (.fault f) => .error f
  | .error (.unsearchable refused) =>
    absurd found (Cursor.result_runOf_ofText_ne_unsearchable _ _ refused)

theorem result_run_ofText (source : Text) :
    (Cursor.ofText source).run.result = (tokenize source).mapError .fault := by
  unfold tokenize
  split
  · next found => rw [found]; rfl
  · next found => rw [found]; rfl
  · next refused found =>
    exact absurd found (Cursor.result_runOf_ofText_ne_unsearchable _ _ refused)

theorem tokenize_eq_iff {source : Text} {answer : Except Fault (List Token)} :
    tokenize source = answer ↔
      (Cursor.ofText source).run.result = answer.mapError .fault := by
  rw [result_run_ofText]
  constructor
  · intro same
    rw [same]
  · cases tokenize source <;> cases answer <;> rintro ⟨⟩ <;> rfl

end SelectorClauses
