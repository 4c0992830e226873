import SelectorClauses.Journal
import SelectorClauses.Selector
import SelectorClauses.Text.Blank
import SelectorClauses.Value.Display

/-!
A catalogue keeps the selectors of any number of registries: all of them in one list, in the
order in which they were built, each with the registry that it belongs to. Nothing in the list is
ever replaced or removed, so the place in it is the identity of a selector. The key of a source
is its display without the blanks around it. A look-up that fails enters the locked section,
which looks again before it parses: other callers may have been there in between. What does not
parse is not kept.
-/
namespace SelectorClauses

/-- The registry that all callers share, and any number of own ones. -/
inductive Registry
  | shared
  | own (n : Nat)
deriving DecidableEq, Repr

/-- A selector that was built, with its place in the catalogue. -/
structure Handle where
  serial : Nat
  selector : Selector
deriving DecidableEq, Repr

abbrev Catalogue := List (Registry × Selector)

def keyOf (source : Value) : Text := source.display.trim

structure Answer where
  result : Except SelectorError Handle
  after : Catalogue
  journal : List Entry

namespace Catalogue

def selectors (c : Catalogue) (r : Registry) : List Selector :=
  c.filterMap fun (r', s) => if r' = r then some s else none

def keys (c : Catalogue) (r : Registry) : List Text := (c.selectors r).map Selector.source

def size (c : Catalogue) (r : Registry) : Nat := (c.selectors r).length

def describe (c : Catalogue) (r : Registry) : Text :=
  "SelectorRegistry(".toList ++ Text.ofNat (c.size r) ++ " selectors)".toList

def find? (c : Catalogue) (r : Registry) (key : Text) : Option Handle :=
  (c.zipIdx.find? fun ((r', s), _) => r' == r && s.source == key).map fun ((_, s), i) => ⟨i, s⟩

def parseJournal (key : Text) : Except Fault (List Token) → List Entry
  | .ok _ => [.parsing key]
  | .error f => .parsing key :: Entry.ofFault key f ++ [.rejected key (.fault f)]

/-- The locked section: looks the key up and parses it if it is not there. -/
def lockedGet (c : Catalogue) (r : Registry) (key : Text) : Answer :=
  match c.find? r key with
  | some h => ⟨.ok h, c, []⟩
  | none =>
    let tokens := tokenize key
    let journal := parseJournal key tokens
    match Selector.ofTokens key tokens with
    | .ok s => ⟨.ok ⟨c.length, s⟩, c ++ [(r, s)], journal⟩
    | .error e => ⟨.error e, c, journal⟩

def get (c : Catalogue) (r : Registry) (source : Value) : Answer :=
  match c.find? r (keyOf source) with
  | some h => ⟨.ok h, c, []⟩
  | none => c.lockedGet r (keyOf source)

abbrev Request := Registry × Value

/-- Complete look-ups one after another, whatever becomes of each. -/
def getEach (c : Catalogue) : List Request → Catalogue × List Entry
  | [] => (c, [])
  | (r, source) :: others =>
    let first := c.get r source
    let (after, journal) := first.after.getEach others
    (after, first.journal ++ journal)

/-- A look-up during which, if it does not find its key at once, others are completed before it
enters the locked section. -/
def getInterrupted (c : Catalogue) (r : Registry) (source : Value) (others : List Request) :
    Answer :=
  match c.find? r (keyOf source) with
  | some h => ⟨.ok h, c, []⟩
  | none =>
    let (between, journal) := c.getEach others
    let locked := between.lockedGet r (keyOf source)
    { locked with journal := journal ++ locked.journal }

def getContended (c : Catalogue) (r : Registry) (source : Value) : Answer :=
  c.getInterrupted r source [(r, source)]

def contains (c : Catalogue) (r : Registry) (source : Value) : Bool :=
  (c.find? r (keyOf source)).isSome

def growFrom (c : Catalogue) (r : Registry) (suffix : Text) :
    List Text → List (Text × Except SelectorError Handle) × Catalogue × List Entry
  | [] => ([], c, [])
  | key :: keys =>
    let first := c.get r (.text (key ++ suffix))
    let (results, after, journal) := first.after.growFrom r suffix keys
    ((key, first.result) :: results, after, first.journal ++ journal)

/-- Looks up every key that a registry has at the start, with a suffix. -/
def grow (c : Catalogue) (r : Registry) (suffix : Text) :
    List (Text × Except SelectorError Handle) × Catalogue × List Entry :=
  c.growFrom r suffix (c.keys r)

/-- Looks up sources one after another until one fails. -/
def getAll (c : Catalogue) (r : Registry) :
    List Text → Except SelectorError (List Handle) × List Entry
  | [] => (.ok [], [])
  | source :: sources =>
    let first := c.get r (.text source)
    match first.result with
    | .error e => (.error e, first.journal)
    | .ok h =>
      let (rest, journal) := first.after.getAll r sources
      (rest.map (h :: ·), first.journal ++ journal)

end Catalogue

end SelectorClauses
