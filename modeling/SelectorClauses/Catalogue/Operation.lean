import SelectorClauses.Catalogue.Basic
import SelectorClauses.Refusal

/-!
Operations on a catalogue and runs of them. A look-up may go to a registry, to the shared one, or
through the class of selectors, which goes to the shared one unless a registry is named.
-/
namespace SelectorClauses

inductive Operation
  | get (r : Registry) (source : Value)
  | sharedGet (source : Value)
  | classGet (r : Option Registry) (source : Value)
  | contendedGet (r : Registry) (source : Value)
  | contains (r : Registry) (source : Value)
  | size (r : Registry)
  | keys (r : Registry)
  | describe (r : Registry)
  | grow (r : Registry) (suffix : Text)
  | change (handle : Handle)

inductive Reply
  | handle (result : Except SelectorError Handle)
  | truth (b : Bool)
  | number (n : Nat)
  | names (ts : List Text)
  | words (t : Text)
  | grown (results : List (Text × Except SelectorError Handle))
  | refused (refusal : Refusal)

structure Step where
  reply : Reply
  after : Catalogue
  journal : List Entry

namespace Catalogue

def stepOf (a : Answer) : Step := ⟨.handle a.result, a.after, a.journal⟩

def step (c : Catalogue) : Operation → Step
  | .get r source => stepOf (c.get r source)
  | .sharedGet source => stepOf (c.get .shared source)
  | .classGet r source => stepOf (c.get (r.getD .shared) source)
  | .contendedGet r source => stepOf (c.getContended r source)
  | .contains r source => ⟨.truth (c.contains r source), c, []⟩
  | .size r => ⟨.number (c.size r), c, []⟩
  | .keys r => ⟨.names (c.keys r), c, []⟩
  | .describe r => ⟨.words (c.describe r), c, []⟩
  | .grow r suffix =>
    let (results, after, journal) := c.grow r suffix
    ⟨.grown results, after, journal⟩
  | .change _ => ⟨.refused .ofSelectorChange, c, []⟩

def run (c : Catalogue) : List Operation → List Step
  | [] => []
  | o :: os => let s := c.step o; s :: s.after.run os

def runAfter (c : Catalogue) (os : List Operation) : Catalogue :=
  os.foldl (fun c o => (c.step o).after) c

end Catalogue

end SelectorClauses
