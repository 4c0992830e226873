import SelectorClauses.CommandLine.Run

/-!
A selector among options. Main statement: `ofArguments_withOptions` says that a word that cannot be taken for
an option is the selector wherever it stands, and that the options before and behind it take effect.
-/
namespace SelectorClauses

namespace CommandLine

inductive Choice
  | format (f : Format)
  | attachedFormat (f : Format)
  | attributes
  | verbose
deriving DecidableEq, Repr

namespace Choice

def arguments : Choice → List Text
  | .format f => [Flag.format.long, f.label]
  | .attachedFormat f => [Flag.format.long ++ '=' :: f.label]
  | .attributes => [Flag.attributes.long]
  | .verbose => [Flag.verbose.long]

def items : Choice → List Item
  | .format f => [.option .format none, .word f.label]
  | .attachedFormat f => [.option .format (some f.label)]
  | .attributes => [.option .attributes none]
  | .verbose => [.option .verbose none]

def apply (s : Settings) : Choice → Settings
  | .format f | .attachedFormat f => { s with format := f }
  | .attributes => { s with attributesOnly := true }
  | .verbose => { s with verbose := true }

end Choice

/-- The arguments that have a word between options. -/
def withOptions (before : List Choice) (t : Text) (behind : List Choice) : List Text :=
  before.flatMap Choice.arguments ++ t :: behind.flatMap Choice.arguments

def chosen (cs : List Choice) : Settings := cs.foldl Choice.apply {}

/- The flags that options set. -/

theorem attributesOnly_apply (s : Settings) (c : Choice) :
    (c.apply s).attributesOnly = (s.attributesOnly || decide (.attributes = c)) := by
  cases c <;> simp [Choice.apply]

theorem verbose_apply (s : Settings) (c : Choice) :
    (c.apply s).verbose = (s.verbose || decide (.verbose = c)) := by
  cases c <;> simp [Choice.apply]

theorem flag_foldl (field : Settings → Bool) (flag : Choice)
    (each : ∀ s c, field (Choice.apply s c) = (field s || decide (flag = c))) (s : Settings)
    (cs : List Choice) : field (cs.foldl Choice.apply s) = (field s || decide (flag ∈ cs)) := by
  induction cs generalizing s with
  | nil => simp
  | cons c cs ih =>
    simp only [List.foldl_cons, ih, each, List.mem_cons, Bool.decide_or, Bool.or_assoc]

theorem attributesOnly_chosen (cs : List Choice) :
    (chosen cs).attributesOnly = decide (.attributes ∈ cs) :=
  (flag_foldl _ _ attributesOnly_apply {} cs).trans (Bool.false_or _)

theorem verbose_chosen (cs : List Choice) : (chosen cs).verbose = decide (.verbose ∈ cs) :=
  (flag_foldl _ _ verbose_apply {} cs).trans (Bool.false_or _)

/-- A word that is no divider and does not look like an option. -/
structure IsWord (t : Text) : Prop where
  noDivider : t ≠ dividerText
  read : Item.ofText t = .ok (.word t)

theorem isWord_inputMark : IsWord inputMark := ⟨by decide, rfl⟩

theorem isWord_of_head {t : Text} (head : t.head? ≠ some '-') : IsWord t := by
  cases t with
  | nil => exact ⟨by decide, rfl⟩
  | cons c r =>
    have differs : c ≠ '-' := by simpa using head
    constructor
    · intro same
      exact differs (List.cons.inj same).1
    · rw [Item.ofText] <;> simp [differs]

/- Arguments and items. -/

theorem Item.ofArguments_cons {t : Text} {item : Item} (noDivider : t ≠ dividerText)
    (read : Item.ofText t = .ok item) (ts : List Text) :
    Item.ofArguments (t :: ts) = (Item.ofArguments ts).map (item :: ·) := by
  rw [Item.ofArguments, if_neg noDivider, read]
  rfl

theorem Choice.itemsOf_append (c : Choice) (ts : List Text) :
    Item.ofArguments (c.arguments ++ ts) = (Item.ofArguments ts).map (c.items ++ ·) := by
  cases c with
  | format f =>
    have value : IsWord f.label := isWord_of_head (by cases f <;> decide)
    have word : Item.ofArguments (f.label :: ts) = (Item.ofArguments ts).map (.word f.label :: ·) :=
      Item.ofArguments_cons value.noDivider value.read ts
    have option : Item.ofArguments (Flag.format.long :: f.label :: ts) =
        (Item.ofArguments (f.label :: ts)).map (.option .format none :: ·) :=
      Item.ofArguments_cons (by decide) rfl _
    rw [arguments, List.cons_append, List.singleton_append, option, word]
    cases Item.ofArguments ts <;> rfl
  | attachedFormat f =>
    have option : Item.ofText (Flag.format.long ++ '=' :: f.label) =
        .ok (.option .format (some f.label)) := by cases f <;> rfl
    have noDivider : Flag.format.long ++ '=' :: f.label ≠ dividerText := by cases f <;> decide
    exact Item.ofArguments_cons noDivider option ts
  | attributes | verbose => exact Item.ofArguments_cons (by decide) rfl ts

theorem itemsOf_flatMap_append (cs : List Choice) (ts : List Text) :
    Item.ofArguments (cs.flatMap Choice.arguments ++ ts) =
      (Item.ofArguments ts).map (cs.flatMap Choice.items ++ ·) := by
  induction cs with
  | nil =>
    rw [List.flatMap_nil, List.nil_append]
    cases Item.ofArguments ts <;> rfl
  | cons c cs ih =>
    rw [List.flatMap_cons, List.append_assoc, c.itemsOf_append, ih]
    cases Item.ofArguments ts <;> simp [Except.map]

theorem itemsOf_withOptions {t : Text} (word : IsWord t) (before behind : List Choice) :
    Item.ofArguments (withOptions before t behind) =
      .ok (before.flatMap Choice.items ++ .word t :: behind.flatMap Choice.items) := by
  have rest := itemsOf_flatMap_append behind []
  rw [List.append_nil] at rest
  rw [withOptions, itemsOf_flatMap_append, Item.ofArguments_cons word.noDivider word.read, rest]
  simp [Item.ofArguments, Except.map]

/- Items and settings. -/

namespace Settings

theorem readItems_choice (p : Progress) (c : Choice) (items : List Item) :
    readItems p (c.items ++ items) = readItems { p with settings := c.apply p.settings } items := by
  cases c with
  | format f | attachedFormat f => cases f <;> rfl
  | attributes | verbose => rfl

theorem readItems_choices (p : Progress) (cs : List Choice) (items : List Item) :
    readItems p (cs.flatMap Choice.items ++ items) =
      readItems { p with settings := cs.foldl Choice.apply p.settings } items := by
  induction cs generalizing p with
  | nil => rfl
  | cons c cs ih => rw [List.flatMap_cons, List.append_assoc, readItems_choice, ih, List.foldl_cons]

def Progress.place (p : Progress) (t : Text) : Progress :=
  if p.awaiting then p.withSelector (some t) else p.leave t

theorem readItems_word (p : Progress) (t : Text) {items : List Item}
    (noDivider : ∀ others, items ≠ .divider :: others) :
    readItems p (.word t :: items) = readItems (p.place t) items :=
  readItems.eq_9 p t items noDivider

theorem choices_ne_divider (cs : List Choice) (others : List Item) :
    cs.flatMap Choice.items ≠ .divider :: others := by
  cases cs with
  | nil => simp
  | cons c cs => cases c <;> simp [Choice.items]

theorem foldl_apply_withSelector (cs : List Choice) (s : Settings) (t : Option Text) :
    cs.foldl Choice.apply { s with selector := t } =
      { cs.foldl Choice.apply s with selector := t } := by
  induction cs generalizing s with
  | nil => rfl
  | cons c cs ih =>
    have first : c.apply { s with selector := t } = { c.apply s with selector := t } := by
      cases c <;> rfl
    rw [List.foldl_cons, first, ih, List.foldl_cons]

theorem ofArguments_of_items {ts : List Text} {items : List Item}
    (itemized : Item.ofArguments ts = .ok items) :
    ofArguments ts = (readItems {} items).bind fun p =>
      if p.leftOver.isEmpty then .ok p.settings else .error (.misuse (.unrecognized p.leftOver)) := by
  rw [ofArguments, itemized]
  rfl

theorem ofArguments_eq_ok_iff {ts : List Text} {s : Settings} :
    ofArguments ts = .ok s ↔ ∃ items q, Item.ofArguments ts = .ok items ∧
      readItems {} items = .ok q ∧ q.leftOver = [] ∧ q.settings = s := by
  constructor
  · intro parsed
    cases itemized : Item.ofArguments ts with
    | error m =>
      rw [ofArguments, itemized] at parsed
      cases parsed
    | ok items =>
      rw [ofArguments_of_items itemized] at parsed
      cases read : readItems {} items with
      | error stop =>
        rw [read] at parsed
        cases parsed
      | ok q =>
        rw [read, Except.bind] at parsed
        split at parsed
        · next nothing =>
          exact ⟨items, q, rfl, read, List.isEmpty_iff.mp nothing, Except.ok.inj parsed⟩
        · cases parsed
  · intro h
    obtain ⟨items, q, itemized, read, nothing, rfl⟩ := h
    rw [ofArguments_of_items itemized, read]
    simp [Except.bind, nothing]

theorem readItems_withOptions (before : List Choice) (t : Text) (behind : List Choice) :
    readItems {} (before.flatMap Choice.items ++ .word t :: behind.flatMap Choice.items) =
      .ok ⟨{ chosen (before ++ behind) with selector := some t }, false, []⟩ := by
  have last := readItems_choices
    ⟨{ before.foldl Choice.apply {} with selector := some t }, false, []⟩ behind []
  rw [List.append_nil, foldl_apply_withSelector, ← List.foldl_append] at last
  rw [readItems_choices, readItems_word _ _ (choices_ne_divider behind)]
  exact last

theorem ofArguments_withOptions {t : Text} (word : IsWord t) (before behind : List Choice) :
    ofArguments (withOptions before t behind) =
      .ok { chosen (before ++ behind) with selector := some t } := by
  rw [ofArguments_eq_ok_iff]
  exact ⟨_, _, itemsOf_withOptions word before behind, readItems_withOptions before t behind, rfl, rfl⟩

end Settings

end CommandLine

end SelectorClauses
