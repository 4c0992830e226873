import Mathlib.Algebra.GroupWithZero.Nat
import Mathlib.Data.List.Count
import Mathlib.Data.List.Forall2
import SelectorClauses.Proofs.Catalogue.Frame

/-!
What the journal says about a run. Main statement: `journal_accounts` says that a key is parsed once
for each look-up of it that fails and once more if it is kept, that nothing is noted of keys that are
there, and that the journal is made of one block for each parse.
-/
namespace SelectorClauses

namespace Entry

def line (e : Entry) : Text × Text := (e.channel, e.message)

def rejects (key : Text) : Entry → Bool
  | .rejected key' _ => key' = key
  | _ => false

def selectorLine (message : Text) : Text × Text := ("simplesel.selector".toList, message)

def tokenizerLine (message : Text) : Text × Text := ("simplesel.tokenizer".toList, message)

/-- The lines that one parse of a key adds to the journal. -/
inductive Block (key : Text) : List (Text × Text) → Prop
  | accepted (ts : List Token) : tokenize key = .ok ts →
      Block key [selectorLine ("Parsing selector ".toList ++ key.quoted)]
  | unrecognized (remainder : Text) (position : Int) :
      tokenize key = .error (.unrecognizedSyntax remainder position) →
      Block key
        [selectorLine ("Parsing selector ".toList ++ key.quoted),
         tokenizerLine ("No token matches at offset ".toList ++ Text.ofInt position ++
           " of ".toList ++ key.quoted),
         selectorLine ("Rejected selector ".toList ++ key.quoted ++ ": ".toList ++
           ("Invalid or unsupported syntax near '".toList ++ remainder ++ ['\'']))]
  | unterminated (construct : Text) (position : Int) :
      tokenize key = .error (.unterminatedNegation construct position) →
      Block key
        [selectorLine ("Parsing selector ".toList ++ key.quoted),
         selectorLine ("Rejected selector ".toList ++ key.quoted ++ ": ".toList ++
           ("Expected close-parenthesis after '".toList ++ construct ++ ['\'']))]

end Entry

def Lookup.failedFor (key : Text) (l : Lookup) : Bool := l.key = key && !l.succeeded

namespace Operation

def callers : Operation → Nat
  | .contendedGet _ _ => 2
  | _ => 1

def failures (key : Text) (o : Operation) (reply : Reply) : Nat :=
  o.callers * (o.answered reply).countP (Lookup.failedFor key)

end Operation

namespace Catalogue

/-- The look-ups that callers make in an operation: to a contended one belongs the other caller's. -/
def calls (c : Catalogue) (o : Operation) : List Request :=
  match o with
  | .contendedGet r source => [(r, source), (r, source)]
  | o => c.asked o

/-- The keys of look-ups in turn that are not there and so are parsed. -/
def missed (c : Catalogue) : List Request → List Text
  | [] => []
  | (r, source) :: xs =>
    (if c.contains r source then [] else [keyOf source]) ++ (c.get r source).after.missed xs

def parsedIn (c : Catalogue) : List Operation → List Text
  | [] => []
  | o :: os => c.missed (c.calls o) ++ (c.step o).after.parsedIn os

def stepsIn (r : Registry) (c : Catalogue) (os : List Operation) : List (Operation × Step) :=
  (os.zip (c.run os)).filter fun x => x.1.addressed? = some r

def journalIn (r : Registry) (c : Catalogue) (os : List Operation) : List Entry :=
  (stepsIn r c os).flatMap fun x => x.2.journal

def failuresIn (r : Registry) (key : Text) (c : Catalogue) (os : List Operation) : Nat :=
  ((stepsIn r c os).map fun x => x.1.failures key x.2.reply).sum

structure Accounted (os : List Operation) : Prop where
  parsed : ∀ r key, (journalIn r [] os).count (.parsing key) =
    (journalIn r [] os).countP (Entry.rejects key) +
      if key ∈ (runAfter [] os).keys r then 1 else 0
  rejected : ∀ r key, (journalIn r [] os).countP (Entry.rejects key) = failuresIn r key [] os
  quiet : ∀ o, (∀ x ∈ (runAfter [] os).asked o, (runAfter [] os).contains x.1 x.2 = true) →
    ((runAfter [] os).step o).journal = []
  blocks : ∃ blocks, ((run [] os).flatMap Step.journal).map Entry.line = blocks.flatten ∧
    List.Forall₂ Entry.Block (parsedIn [] os) blocks

/- Operations as the look-ups of all callers. -/

/-- The second of two callers with one source finds or rejects what the first did, so a contended
look-up is one after the other even where the first finds its key. -/
theorem getContended_eq_getEach (c : Catalogue) (r : Registry) (source : Value) :
    ((c.getContended r source).after, (c.getContended r source).journal) =
      c.getEach [(r, source), (r, source)] := by
  cases found : c.find? r (keyOf source) with
  | some h =>
    have hit := get_of_find? found
    simp only [getContended, getInterrupted, found, getEach, hit, List.append_nil]
  | none =>
    rw [getContended, getInterrupted_of_find?_eq_none found]
    exact (getEach_concat c [(r, source)] r source).symm

theorem step_eq_getEach (c : Catalogue) (o : Operation) :
    ((c.step o).after, (c.step o).journal) = c.getEach (c.calls o) := by
  cases o with
  | get _ _ | sharedGet _ | classGet _ _ => simp [step, stepOf, calls, asked, getEach]
  | contendedGet r source => exact getContended_eq_getEach c r source
  | grow r suffix => exact (growFrom_eq c r suffix (c.keys r)).1
  | contains _ _ | size _ | keys _ | describe _ | change _ => rfl

theorem after_step_eq (c : Catalogue) (o : Operation) :
    (c.step o).after = (c.getEach (c.calls o)).1 := congrArg Prod.fst (step_eq_getEach c o)

theorem journal_step_eq (c : Catalogue) (o : Operation) :
    (c.step o).journal = (c.getEach (c.calls o)).2 := congrArg Prod.snd (step_eq_getEach c o)

theorem mem_asked_of_mem_calls {c : Catalogue} {o : Operation} {x : Request}
    (mem : x ∈ c.calls o) : x ∈ c.asked o := by
  cases o with
  | contendedGet r source => simpa [calls, asked] using mem
  | _ => exact mem

theorem countP_lookups_calls (c : Catalogue) (o : Operation) (key : Text) :
    (c.lookups (c.calls o)).countP (Lookup.failedFor key) = o.failures key (c.step o).reply := by
  rw [Operation.failures, answered_step]
  cases o with
  | contendedGet r source =>
    have again : ((c.get r source).after.get r source).result = (c.get r source).result :=
      (get_again rfl).1
    simp only [calls, asked, lookups, again, Operation.callers, List.countP_cons, List.countP_nil]
    omega
  | _ => simp [calls, Operation.callers]

/- What look-ups note. -/

theorem Gets.count_parsing {c : Catalogue} {r : Registry} {key' : Text} {a : Answer}
    (gets : Gets c r key' a) (key : Text) :
    a.journal.count (.parsing key) + (c.keys r).count key =
      a.journal.countP (Entry.rejects key) + (a.after.keys r).count key := by
  cases gets with
  | found h there => simp
  | built ts absent read =>
    by_cases same : key' = key
    · simp [keys_append, keys_singleton, Entry.rejects, same]
      omega
    · simp [keys_append, keys_singleton, Entry.rejects, same]
  | rejected f absent fault =>
    by_cases same : key' = key
    · cases f <;> simp [Entry.ofFault, Entry.rejects, same]
    · cases f <;> simp [Entry.ofFault, Entry.rejects, same]

theorem countP_rejects_get (c : Catalogue) (r : Registry) (source : Value) (key : Text) :
    (c.get r source).journal.countP (Entry.rejects key) =
      [Lookup.mk r source (c.get r source).result].countP (Lookup.failedFor key) := by
  have gets := gets_get c r source
  generalize c.get r source = a at gets ⊢
  cases gets with
  | found h there => simp [Lookup.failedFor, Lookup.succeeded]
  | built ts absent read => simp [Lookup.failedFor, Lookup.succeeded, Entry.rejects]
  | rejected f absent fault =>
    by_cases same : keyOf source = key
    · cases f <;>
        simp [Lookup.failedFor, Lookup.succeeded, Lookup.key, Entry.ofFault, Entry.rejects, same]
    · cases f <;> simp [Lookup.failedFor, Lookup.key, Entry.ofFault, Entry.rejects, same]

theorem count_parsing_getEach {r : Registry} {xs : List Request} (there : ∀ x ∈ xs, x.1 = r)
    (c : Catalogue) (key : Text) :
    (c.getEach xs).2.count (.parsing key) + (c.keys r).count key =
      (c.getEach xs).2.countP (Entry.rejects key) + ((c.getEach xs).1.keys r).count key := by
  induction xs generalizing c with
  | nil => simp [getEach]
  | cons x xs ih =>
    obtain ⟨r', source⟩ := x
    obtain rfl : r' = r := there (r', source) (by simp)
    have first := (gets_get c r' source).count_parsing key
    have later := ih (fun x mem => there x (by simp [mem])) (c.get r' source).after
    simp only [getEach, List.count_append, List.countP_append]
    omega

theorem countP_rejects_getEach (c : Catalogue) (xs : List Request) (key : Text) :
    (c.getEach xs).2.countP (Entry.rejects key) =
      (c.lookups xs).countP (Lookup.failedFor key) := by
  induction xs generalizing c with
  | nil => rfl
  | cons x xs ih =>
    obtain ⟨r, source⟩ := x
    have first := countP_rejects_get c r source key
    simp only [getEach, lookups, List.countP_append, ih, first]
    rw [← List.countP_append, List.singleton_append]

theorem getEach_of_contains {c : Catalogue} {xs : List Request}
    (there : ∀ x ∈ xs, c.contains x.1 x.2 = true) : c.getEach xs = (c, []) := by
  induction xs with
  | nil => rfl
  | cons x xs ih =>
    obtain ⟨r, source⟩ := x
    obtain ⟨h, found⟩ := Option.isSome_iff_exists.mp (there (r, source) (by simp))
    rw [getEach, get_of_find? found, ih fun x mem => there x (by simp [mem])]
    rfl

theorem block_parseJournal (key : Text) :
    Entry.Block key ((parseJournal key (tokenize key)).map Entry.line) := by
  cases read : tokenize key with
  | ok ts => exact .accepted ts read
  | error f =>
    cases f with
    | unrecognizedSyntax remainder position => exact .unrecognized remainder position read
    | unterminatedNegation construct position => exact .unterminated construct position read

theorem journal_getEach (c : Catalogue) (xs : List Request) :
    (c.getEach xs).2 = (c.missed xs).flatMap fun key => parseJournal key (tokenize key) := by
  induction xs generalizing c with
  | nil => rfl
  | cons x xs ih =>
    obtain ⟨r, source⟩ := x
    have first : (c.get r source).journal =
        (if c.contains r source then [] else [keyOf source]).flatMap
          fun key => parseJournal key (tokenize key) := by
      have gets := gets_get c r source
      generalize c.get r source = a at gets ⊢
      cases gets with
      | found h there => simp [contains, there]
      | built ts absent read => simp [contains, absent, read, parseJournal]
      | rejected f absent fault => simp [contains, absent, fault, parseJournal]
    rw [getEach, missed, List.flatMap_append, ← first, ← ih]

/- Runs. -/

theorem stepsIn_cons (r : Registry) (c : Catalogue) (o : Operation) (os : List Operation) :
    stepsIn r c (o :: os) =
      (if o.addressed? = some r then [(o, c.step o)] else []) ++
        stepsIn r (c.step o).after os := by
  by_cases here : o.addressed? = some r <;> simp [stepsIn, run_cons, here]

theorem count_parsing_journalIn (r : Registry) (c : Catalogue) (os : List Operation) (key : Text) :
    (journalIn r c os).count (.parsing key) + (c.keys r).count key =
      (journalIn r c os).countP (Entry.rejects key) + ((c.runAfter os).keys r).count key := by
  induction os generalizing c with
  | nil => simp [journalIn, stepsIn, run, runAfter]
  | cons o os ih =>
    have later := ih (c.step o).after
    have behind : c.runAfter (o :: os) = (c.step o).after.runAfter os := rfl
    rw [behind]
    by_cases here : o.addressed? = some r
    · have there : ∀ x ∈ c.calls o, x.1 = r := by
        intro x mem
        have addressed := addressed?_of_mem_asked (mem_asked_of_mem_calls mem)
        exact Option.some.inj (addressed.symm.trans here)
      have first := count_parsing_getEach there c key
      rw [← journal_step_eq, ← after_step_eq] at first
      simp only [journalIn, stepsIn_cons, if_pos here, List.flatMap_append, List.flatMap_singleton,
        List.count_append, List.countP_append] at later ⊢
      omega
    · -- a step elsewhere leaves the keys of this registry as they are
      have same := (sameIn_step here c).keys_eq
      rw [same] at later
      simpa only [journalIn, stepsIn_cons, if_neg here, List.nil_append] using later

theorem countP_rejects_journalIn (r : Registry) (c : Catalogue) (os : List Operation)
    (key : Text) :
    (journalIn r c os).countP (Entry.rejects key) = failuresIn r key c os := by
  induction os generalizing c with
  | nil => rfl
  | cons o os ih =>
    have later := ih (c.step o).after
    have first : (c.step o).journal.countP (Entry.rejects key) =
        o.failures key (c.step o).reply := by
      rw [journal_step_eq, countP_rejects_getEach, countP_lookups_calls]
    by_cases here : o.addressed? = some r
    · simp only [journalIn, failuresIn, stepsIn_cons, if_pos here, List.flatMap_append,
        List.flatMap_singleton, List.countP_append, List.map_append, List.map_singleton,
        List.sum_append, List.sum_singleton] at later ⊢
      rw [first, later]
    · simpa only [journalIn, failuresIn, stepsIn_cons, if_neg here, List.nil_append] using later

theorem journal_run (c : Catalogue) (os : List Operation) :
    (c.run os).flatMap Step.journal =
      (c.parsedIn os).flatMap fun key => parseJournal key (tokenize key) := by
  induction os generalizing c with
  | nil => rfl
  | cons o os ih =>
    rw [run_cons, List.flatMap_cons, ih, parsedIn, List.flatMap_append, journal_step_eq,
      journal_getEach]

theorem exists_blocks (c : Catalogue) (os : List Operation) :
    ∃ blocks, ((c.run os).flatMap Step.journal).map Entry.line = blocks.flatten ∧
      List.Forall₂ Entry.Block (c.parsedIn os) blocks := by
  refine ⟨(c.parsedIn os).map fun key => (parseJournal key (tokenize key)).map Entry.line, ?_, ?_⟩
  · rw [journal_run, List.map_flatMap, List.flatMap_def]
  · rw [List.forall₂_map_right_iff, List.forall₂_same]
    intro key _
    exact block_parseJournal key

theorem keys_runAfter_nodup (os : List Operation) (r : Registry) :
    ((runAfter [] os).keys r).Nodup := (sound_runAfter os).nodup_keys r

/-- The accounts of every run, through whatever entry points and in whatever registries. -/
theorem journal_accounts (os : List Operation) : Accounted os where
  parsed r key := by
    have balance := count_parsing_journalIn r [] os key
    have start : (keys [] r).count key = 0 := rfl
    rw [start, (keys_runAfter_nodup os r).count] at balance
    exact balance
  rejected r key := countP_rejects_journalIn r [] os key
  quiet o there := by
    rw [journal_step_eq, getEach_of_contains fun x mem => there x (mem_asked_of_mem_calls mem)]
  blocks := exists_blocks [] os

end Catalogue

end SelectorClauses
