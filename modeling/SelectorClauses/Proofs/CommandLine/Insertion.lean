import SelectorClauses.Proofs.CommandLine.Choices

/-!
Adding the option that shows the journal. Main statements: `ofArguments_cons_verbose` and
`ofArguments_concat_verbose` say that it can be put in front, and at the end if there is no divider, and
`eq_of_ofArguments_insert` that anywhere else it either changes nothing but itself or is a misuse.
-/
namespace SelectorClauses

namespace CommandLine

namespace Item

theorem ofStranger_ne_divider (t : Text) : ofStranger t ≠ .divider := by
  rw [ofStranger]
  split <;> simp

theorem ofLongName_ne_divider (t : Text) : ofLongName t ≠ .ok .divider := by
  unfold ofLongName
  dsimp only
  split
  · simp
  · split
    · simpa using ofStranger_ne_divider t
    · simp
    · simp

theorem ofText_ne_divider (t : Text) : ofText t ≠ .ok .divider := by
  unfold ofText
  split
  · simp
  · exact ofLongName_ne_divider _
  · simpa using ofStranger_ne_divider _
  · simp

theorem ofArguments_append {pre : List Text} (noDivider : dividerText ∉ pre) {post : List Text}
    {items : List Item} (read : ofArguments (pre ++ post) = .ok items) :
    ∃ is js, items = is ++ js ∧ divider ∉ is ∧ ofArguments post = .ok js ∧
      ∀ post' js', ofArguments post' = .ok js' → ofArguments (pre ++ post') = .ok (is ++ js') := by
  induction pre generalizing items with
  | nil => exact ⟨[], items, rfl, by simp, read, fun _ _ read' => read'⟩
  | cons t pre ih =>
    obtain ⟨first, others⟩ : t ≠ dividerText ∧ dividerText ∉ pre := by simpa [eq_comm] using noDivider
    have equation (post' : List Text) : ofArguments (t :: (pre ++ post')) =
        (ofText t).bind fun item => (ofArguments (pre ++ post')).bind fun items =>
          .ok (item :: items) := by
      rw [ofArguments, if_neg first]
      rfl
    rw [List.cons_append, equation] at read
    cases own : ofText t with
    | error m =>
      rw [own] at read
      cases read
    | ok item =>
      cases behind : ofArguments (pre ++ post) with
      | error m =>
        rw [own, behind] at read
        cases read
      | ok items' =>
        rw [own, behind] at read
        obtain ⟨is, js, rfl, apart, last, any⟩ := ih others behind
        have differs : divider ≠ item := fun same => ofText_ne_divider t (by rw [own, same])
        refine ⟨item :: is, js, (Except.ok.inj read).symm, by simpa using ⟨differs, apart⟩, last, ?_⟩
        intro post' js' read'
        rw [List.cons_append, equation, own, any post' js' read']
        rfl

end Item

namespace Settings

def withJournal (s : Settings) : Settings := { s with verbose := true }

def Progress.loud (p : Progress) : Progress := { p with settings := p.settings.withJournal }

/- Steps that depend on the next item. -/

theorem readItems_option (p : Progress) (f : Flag) {items : List Item}
    (noValue : ∀ value others, items = .word value :: others → f = .format → False) :
    readItems p (.option f none :: items) = (take p f).bind fun q => readItems q items :=
  readItems.eq_5 p f items noValue

theorem readItems_attached (p : Progress) {f : Flag} (value : Text) (noFormat : f = .format → False)
    (items : List Item) :
    readItems p (.option f (some value) :: items) = .error (.misuse (.valueIgnored f value)) :=
  readItems.eq_4 p f value items noFormat

theorem readItems_divider (p : Progress) {items : List Item}
    (noWord : ∀ t others, items = .word t :: others → False) :
    readItems p (.divider :: items) =
      readItems (if p.awaiting then p.withSelector none else p.leave dividerText) items :=
  readItems.eq_11 p items noWord

/- The option sets one field, and nothing else looks at it. -/

theorem take_loud (p : Progress) (f : Flag) : take p.loud f = (take p f).map Progress.loud := by
  cases f <;> rfl

theorem readItems_loud (p : Progress) (items : List Item) :
    readItems p.loud items = (readItems p items).map Progress.loud := by
  fun_induction readItems p items with
  | case1 p | case6 p behind items => rfl
  | case2 p value items ih | case3 p value items ih =>
    rw [readItems]
    cases formatOf value with
    | error e => rfl
    | ok f => exact ih f
  | case4 p f value items noFormat =>
    rw [readItems_attached _ _ noFormat]
    rfl
  | case5 p f items noValue ih =>
    rw [readItems_option _ _ noValue, take_loud]
    cases take p f with
    | error e => rfl
    | ok q => exact ih q
  | case7 p t items ih => exact ih
  | case8 p t items awaiting ih | case11 p t items awaiting ih =>
    have still : p.loud.awaiting = true := awaiting
    rw [readItems, if_pos still]
    exact ih
  | case9 p t items awaiting ih | case12 p t items awaiting ih =>
    have still : ¬ p.loud.awaiting = true := awaiting
    rw [readItems, if_neg still]
    exact ih
  | case10 p t items noDivider ih =>
    rw [readItems_word _ _ noDivider, ← ih, Progress.place, apply_ite Progress.loud]
    rfl
  | case13 p items noWord ih =>
    rw [readItems_divider _ noWord, ← ih, apply_ite Progress.loud]
    rfl

theorem readItems_verbose (p : Progress) (items : List Item) :
    readItems p (.option .verbose none :: items) = (readItems p items).map Progress.loud := by
  rw [← readItems_loud]
  rfl

/- Reading in front of the divider. -/

inductive Pending
  | nothing
  | word (t : Text)
  | format

namespace Pending

def items : Pending → List Item
  | nothing => []
  | word t => [.word t]
  | format => [.option .format none]

end Pending

/-- In front of whatever else, the items are an error, or they lead to a place where the last of them
may be waiting. -/
inductive Leads (p : Progress) (is : List Item) : Prop
  | fails (stop : Stop) : (∀ behind, readItems p (is ++ behind) = .error stop) → Leads p is
  | waits (q : Progress) (pending : Pending) :
      (∀ behind, readItems p (is ++ behind) = readItems q (pending.items ++ behind)) → Leads p is

theorem Leads.step {p q : Progress} {is js : List Item}
    (step : ∀ behind, readItems p (is ++ behind) = readItems q (js ++ behind)) (h : Leads q js) :
    Leads p is := by
  cases h with
  | fails stop error => exact .fails stop fun behind => (step behind).trans (error behind)
  | waits r pending rest => exact .waits r pending fun behind => (step behind).trans (rest behind)

theorem leads_option (p : Progress) (f : Flag) {items : List Item}
    (noValue : ∀ value others, items = .word value :: others → f = .format → False)
    (rest : ∀ q, Leads q items) : Leads p (.option f none :: items) := by
  by_cases format : f = .format
  · subst format
    cases items with
    | nil => exact .waits p .format fun _ => rfl
    | cons item items =>
      have noValue' (behind : List Item) : ∀ value others,
          item :: (items ++ behind) = .word value :: others → Flag.format = .format → False := by
        intro value others same
        rw [(List.cons.inj same).1] at noValue
        exact noValue value items rfl
      refine .fails (.misuse (.valueMissing .format)) fun behind => ?_
      exact readItems_option p .format (noValue' behind)
  · have equation (behind : List Item) : readItems p (.option f none :: (items ++ behind)) =
        (take p f).bind fun q => readItems q (items ++ behind) :=
      readItems_option p f fun _ _ _ same => format same
    cases taken : take p f with
    | error stop => exact .fails stop fun behind => (equation behind).trans (by rw [taken]; rfl)
    | ok q => exact .step (fun behind => (equation behind).trans (by rw [taken]; rfl)) (rest q)

theorem leads_of_noDivider (p : Progress) {is : List Item} (noDivider : Item.divider ∉ is) :
    Leads p is := by
  fun_induction readItems p is with
  | case1 p => exact .waits p .nothing fun _ => rfl
  | case2 p value items ih | case3 p value items ih =>
    have rest : Item.divider ∉ items := fun mem => noDivider (by simp [mem])
    cases format : formatOf value with
    | error stop =>
      refine .fails stop fun behind => ?_
      simp only [List.cons_append, readItems, format]
      rfl
    | ok f =>
      refine .step (fun behind => ?_) (ih f rest)
      simp only [List.cons_append, readItems, format]
      rfl
  | case4 p f value items noFormat =>
    refine .fails (.misuse (.valueIgnored f value)) fun behind => ?_
    rw [List.cons_append, readItems_attached p value noFormat]
  | case5 p f items noValue ih =>
    exact leads_option p f noValue fun q => ih q fun mem => noDivider (by simp [mem])
  | case6 p behind items => exact .fails (shortHelpStop behind) fun _ => rfl
  | case7 p t items ih =>
    have next (behind : List Item) : readItems p (.unknown t :: items ++ behind) =
        readItems (p.leave t) (items ++ behind) := rfl
    exact .step next (ih fun mem => noDivider (by simp [mem]))
  | case10 p t items noDivider' ih =>
    cases items with
    | nil => exact .waits p (.word t) fun _ => rfl
    | cons item items =>
      have differs : item ≠ .divider := fun same => noDivider' items (by rw [same])
      have next (behind : List Item) : readItems p (.word t :: item :: items ++ behind) =
          readItems (p.place t) (item :: items ++ behind) :=
        readItems_word p t fun others same => differs (List.cons.inj same).1
      exact .step next (ih fun mem => noDivider (by simp [mem]))
  | case8 | case9 | case11 | case12 | case13 => simp at noDivider

/- What is left over. -/

theorem leftOver_take {p q : Progress} {f : Flag} (taken : take p f = .ok q) :
    q.leftOver = p.leftOver := by
  cases f with
  | attributes | verbose =>
    obtain rfl := Except.ok.inj taken
    rfl
  | help | version | format => cases taken

theorem leftOver_leave (p : Progress) (t : Text) : p.leftOver <+: (p.leave t).leftOver :=
  List.prefix_append p.leftOver [t]

theorem leftOver_place (p : Progress) (t : Text) : p.leftOver <+: (p.place t).leftOver := by
  rw [Progress.place]
  split
  · exact List.prefix_refl _
  · exact leftOver_leave p t

theorem leftOver_mono {p q : Progress} {items : List Item} (read : readItems p items = .ok q) :
    p.leftOver <+: q.leftOver := by
  fun_induction readItems p items with
  | case1 p =>
    obtain rfl := Except.ok.inj read
    exact List.prefix_refl _
  | case2 p value items ih | case3 p value items ih =>
    cases format : formatOf value with
    | error stop =>
      rw [format] at read
      cases read
    | ok f =>
      rw [format] at read
      exact ih f read
  | case4 | case6 => cases read
  | case5 p f items noValue ih =>
    cases taken : take p f with
    | error stop =>
      rw [taken] at read
      cases read
    | ok q =>
      rw [taken] at read
      exact leftOver_take taken ▸ ih q read
  | case7 p t items ih => exact (leftOver_leave p t).trans (ih read)
  | case8 p t items awaiting ih | case11 p t items awaiting ih => exact ih read
  | case9 p t items awaiting ih | case12 p t items awaiting ih =>
    exact ((leftOver_leave p _).trans (leftOver_leave _ _)).trans (ih read)
  | case10 p t items noDivider ih => exact (leftOver_place p t).trans (ih read)
  | case13 p items noWord ih =>
    refine List.IsPrefix.trans ?_ (ih read)
    split
    · exact List.prefix_refl _
    · exact leftOver_leave p dividerText

theorem leftOver_ne_nil_of_leave {p q : Progress} {t : Text} {items : List Item}
    (read : readItems (p.leave t) items = .ok q) : q.leftOver ≠ [] := by
  intro nothing
  have longer : p.leftOver ++ [t] <+: q.leftOver := leftOver_mono read
  rw [nothing] at longer
  simp at longer

theorem leftOver_ne_nil_of_divider {p q : Progress} (settled : p.awaiting = false) {items : List Item}
    (read : readItems p (.divider :: items) = .ok q) : q.leftOver ≠ [] := by
  have still : ¬ p.awaiting = true := Bool.eq_false_iff.mp settled
  by_cases word : ∃ t others, items = .word t :: others
  · obtain ⟨t, others, rfl⟩ := word
    rw [readItems, if_neg still] at read
    exact leftOver_ne_nil_of_leave read
  · rw [readItems_divider p fun t others same => word ⟨t, others, same⟩, if_neg still] at read
    exact leftOver_ne_nil_of_leave read

theorem readItems_words {p : Progress} (settled : p.awaiting = false) (ts : List Text) :
    readItems p (ts.map .word) = .ok { p with leftOver := p.leftOver ++ ts } := by
  induction ts generalizing p with
  | nil => simp [readItems]
  | cons t ts ih =>
    have noDivider (others : List Item) : ts.map Item.word ≠ .divider :: others := by
      cases ts <;> simp
    have left : p.place t = p.leave t := by simp [Progress.place, settled]
    have still : (p.leave t).awaiting = false := settled
    rw [List.map_cons, readItems_word p t noDivider, left, ih still]
    simp [Progress.leave]

theorem awaiting_place (p : Progress) (t : Text) : (p.place t).awaiting = false := by
  rw [Progress.place]
  split
  · rfl
  · next settled => exact Bool.eq_false_iff.mpr settled

/- The option among other items. -/

/-- A word and its divider, or a format and its value, come apart; nothing else minds. -/
theorem readItems_pending_insert {p q : Progress} (pending : Pending) {js : List Item}
    (read : readItems p (pending.items ++ js) = .ok q) :
    readItems p (pending.items ++ .option .verbose none :: js) = .ok q.loud ∨
      js ≠ [] ∧ ∀ r, readItems p (pending.items ++ .option .verbose none :: js) = .ok r →
        r.leftOver ≠ [] := by
  cases pending with
  | nothing =>
    refine Or.inl ((readItems_verbose p js).trans ?_)
    rw [Pending.items, List.nil_append] at read
    rw [read]
    rfl
  | format =>
    refine Or.inr ⟨?_, fun r error => by cases error⟩
    rintro rfl
    cases read
  | word t =>
    have after : readItems p (.word t :: .option .verbose none :: js) =
        (readItems (p.place t) js).map Progress.loud := by
      rw [readItems_word p t (by simp), readItems_verbose]
    rw [Pending.items, List.singleton_append] at read
    rw [Pending.items, List.singleton_append, after]
    by_cases divided : ∃ others, js = .divider :: others
    · obtain ⟨others, rfl⟩ := divided
      refine Or.inr ⟨by simp, fun r read' => ?_⟩
      rw [← readItems_loud] at read'
      have settled : (p.place t).loud.awaiting = false := awaiting_place p t
      exact leftOver_ne_nil_of_divider settled read'
    · rw [readItems_word p t fun others same => divided ⟨others, same⟩] at read
      rw [read]
      exact Or.inl rfl

theorem readItems_insert {p q : Progress} {is js : List Item} (noDivider : Item.divider ∉ is)
    (read : readItems p (is ++ js) = .ok q) :
    readItems p (is ++ .option .verbose none :: js) = .ok q.loud ∨
      js ≠ [] ∧ ∀ r, readItems p (is ++ .option .verbose none :: js) = .ok r → r.leftOver ≠ [] := by
  cases leads_of_noDivider p noDivider with
  | fails stop error =>
    rw [error js] at read
    cases read
  | waits p' pending equal =>
    rw [equal] at read ⊢
    exact readItems_pending_insert pending read

/- The option behind a divider, where it is a word. -/

theorem leftOver_words {p q : Progress} (settled : p.awaiting = false) {ts : List Text}
    (read : readItems p (ts.map .word) = .ok q) : q.leftOver = p.leftOver ++ ts := by
  rw [readItems_words settled] at read
  rw [← Except.ok.inj read]

/-- There is place for one more word than stands behind the divider only if the selector is missing. -/
theorem leftOver_ne_nil_of_longer {p q r : Progress} (pending : Pending) {ts us : List Text}
    (read : readItems p (pending.items ++ .divider :: ts.map .word) = .ok q) (nothing : q.leftOver = [])
    (given : q.settings.selector ≠ none)
    (read' : readItems p (pending.items ++ .divider :: us.map .word) = .ok r)
    (longer : ts.length < us.length) : r.leftOver ≠ [] := by
  have leaves {p' : Progress} {v : Text} {vs : List Text} (settled : p'.awaiting = false)
      (words : readItems p' ((v :: vs).map .word) = .ok r) : r.leftOver ≠ [] := by
    rw [leftOver_words settled words]
    simp
  cases pending with
  | format => cases read
  | nothing =>
    cases awaiting : p.awaiting with
    | false => exact absurd nothing (leftOver_ne_nil_of_divider awaiting read)
    | true =>
      cases ts with
      | nil =>
        simp only [Pending.items, List.nil_append, List.map_nil, readItems, awaiting, if_true] at read
        rw [← Except.ok.inj read] at given
        exact absurd rfl given
      | cons t ts =>
        obtain ⟨u, v, vs, rfl⟩ : ∃ u v vs, us = u :: v :: vs := by
          cases us with
          | nil => simp at longer
          | cons u us =>
            cases us with
            | nil => simp at longer
            | cons v vs => exact ⟨u, v, vs, rfl⟩
        simp only [Pending.items, List.nil_append, List.map_cons, readItems, awaiting, if_true] at read'
        exact leaves rfl read'
  | word t =>
    cases awaiting : p.awaiting with
    | false =>
      have still : ¬ p.awaiting = true := Bool.eq_false_iff.mp awaiting
      rw [Pending.items, List.singleton_append, readItems, if_neg still] at read
      exact absurd nothing (leftOver_ne_nil_of_leave read)
    | true =>
      cases us with
      | nil => simp at longer
      | cons u us =>
        rw [Pending.items, List.singleton_append, readItems, if_pos awaiting] at read'
        exact leaves rfl read'

/- The option among other arguments. -/

theorem itemsOf_verbose {ts : List Text} {items : List Item} (read : Item.ofArguments ts = .ok items) :
    Item.ofArguments (Flag.verbose.long :: ts) = .ok (.option .verbose none :: items) := by
  have first := Choice.verbose.itemsOf_append ts
  rw [read] at first
  exact first

theorem ofArguments_cons_verbose {ts : List Text} {s : Settings} (parsed : ofArguments ts = .ok s) :
    ofArguments (Flag.verbose.long :: ts) = .ok s.withJournal := by
  obtain ⟨items, q, itemized, read, nothing, rfl⟩ := ofArguments_eq_ok_iff.mp parsed
  refine ofArguments_eq_ok_iff.mpr ⟨_, q.loud, itemsOf_verbose itemized, ?_, nothing, rfl⟩
  rw [readItems_verbose, read]
  rfl

theorem ofArguments_concat_verbose {ts : List Text} (noDivider : dividerText ∉ ts) {s : Settings}
    (parsed : ofArguments ts = .ok s) :
    ofArguments (ts ++ [Flag.verbose.long]) = .ok s.withJournal := by
  obtain ⟨items, q, itemized, read, nothing, rfl⟩ := ofArguments_eq_ok_iff.mp parsed
  rw [← List.append_nil ts] at itemized
  obtain ⟨is, js, rfl, apart, last, other⟩ := Item.ofArguments_append noDivider itemized
  obtain rfl : [] = js := Except.ok.inj last
  rcases readItems_insert apart read with loud | ⟨nonempty, -⟩
  · exact ofArguments_eq_ok_iff.mpr ⟨_, q.loud, other _ _ (itemsOf_verbose last), loud, nothing, rfl⟩
  · exact absurd rfl nonempty

/-- Behind a divider the option would be a word that nobody asks for. -/
theorem eq_of_ofArguments_insert {pre post : List Text} {s s' : Settings}
    (parsed : ofArguments (pre ++ post) = .ok s) (given : s.selector ≠ none)
    (parsed' : ofArguments (pre ++ Flag.verbose.long :: post) = .ok s') : s' = s.withJournal := by
  obtain ⟨items, q, itemized, read, nothing, rfl⟩ := ofArguments_eq_ok_iff.mp parsed
  obtain ⟨items', q', itemized', read', nothing', rfl⟩ := ofArguments_eq_ok_iff.mp parsed'
  by_cases divided : dividerText ∈ pre
  · obtain ⟨before, behind, rfl, noDivider⟩ := List.eq_append_cons_of_mem divided
    rw [List.append_assoc, List.cons_append] at itemized itemized'
    obtain ⟨is, js, rfl, apart, last, other⟩ := Item.ofArguments_append noDivider itemized
    obtain rfl : .divider :: (behind ++ post).map .word = js := by
      rw [Item.ofArguments, if_pos rfl] at last
      exact Except.ok.inj last
    have words : Item.ofArguments (dividerText :: (behind ++ Flag.verbose.long :: post)) =
        .ok (.divider :: (behind ++ Flag.verbose.long :: post).map .word) := by
      rw [Item.ofArguments, if_pos rfl]
    rw [other _ _ words] at itemized'
    obtain rfl := Except.ok.inj itemized'
    cases leads_of_noDivider {} apart with
    | fails stop error =>
      rw [error] at read
      cases read
    | waits p pending equal =>
      rw [equal] at read read'
      have longer : (behind ++ post).length < (behind ++ Flag.verbose.long :: post).length := by simp
      exact absurd nothing' (leftOver_ne_nil_of_longer pending read nothing given read' longer)
  · obtain ⟨is, js, rfl, apart, last, other⟩ := Item.ofArguments_append divided itemized
    rw [other _ _ (itemsOf_verbose last)] at itemized'
    obtain rfl := Except.ok.inj itemized'
    rcases readItems_insert apart read with loud | ⟨-, misuse⟩
    · rw [loud] at read'
      rw [← Except.ok.inj read']
      rfl
    · exact absurd nothing' (misuse q' read')

end Settings

end CommandLine

end SelectorClauses
