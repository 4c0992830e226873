import SelectorClauses.Proofs.CommandLine.AllOrNothing
import SelectorClauses.Proofs.Grammar.Ending
import SelectorClauses.Proofs.Text.Lines
import SelectorClauses.Proofs.Tokenizing.Alone

/-!
Reading the text report back. Nothing in it is escaped, so a value may hold tabs, line ends and whole
lines of another report; but a token says itself where it ends, up to a tab that may belong to the escape
before it. Main statements: `tokenLine_append_inj` and `textReport_inj`, that lines and reports can be
told apart from left to right, and `text_run_is_lossless`.
-/
namespace SelectorClauses

namespace CommandLine

open Token

def columns (t : Token) : Text :=
  '\t' :: (if t.negated then "negated".toList else ['-']) ++ '\t' :: t.attribute?.getD ['-']

theorem tokenLine_eq (t : Token) : tokenLine t = t.kind.label ++ '\t' :: (t.value ++ columns t) := by
  simp only [tokenLine, columns, Text.join, List.intercalate_cons_cons, List.intercalate_singleton,
    List.append_assoc, List.cons_append, List.nil_append]

/- The line of a token. -/

theorem label_append_inj {j k : Kind} {r s : Text} (same : j.label ++ '\t' :: r = k.label ++ '\t' :: s) :
    j = k ∧ r = s := by
  cases j <;> cases k <;> simp_all [Kind.label]

/-- The columns of a token that no mark closes: a hyphen for the negation, and an attribute that is
nowhere read as such a hyphen with a tab behind it. -/
theorem columns_of_isOpen {t : Token} (isOpen : t.isOpen = true) (r : Text) :
    ∃ name, columns t = '\t' :: '-' :: '\t' :: name ∧ ∀ s, name ++ '\n' :: r ≠ '-' :: '\t' :: s := by
  simp only [Token.isOpen, Bool.and_eq_true, Bool.not_eq_true', bne_iff_ne] at isOpen
  obtain ⟨plain, notAttr⟩ := isOpen
  refine ⟨t.attribute?.getD ['-'], by simp [columns, plain], ?_⟩
  intro s
  cases kind : t.kind with
  | attr => exact absurd kind notAttr
  | _ => simp [attribute?, attributeOf, kind]

/-- An identifier does not go on into the columns behind it. It could take the tab, if an escape is at
its end, and then the hyphen, but what comes then is no text that may stand behind a value. -/
theorem eq_nil_of_append_columns {t u : Token} (first : t.isOpen = true) (second : u.isOpen = true)
    {x r s : Text} (data : IsIdentifier t.data) (longer : IsIdentifier (t.data ++ x))
    (same : columns t ++ '\n' :: r = x ++ (columns u ++ '\n' :: s)) : x = [] := by
  obtain ⟨name, before, notHyphen⟩ := columns_of_isOpen first r
  obtain ⟨other, behind, -⟩ := columns_of_isOpen second s
  simp only [before, behind, List.cons_append] at same
  by_contra nonempty
  obtain ⟨c, y, rfl⟩ := List.exists_cons_of_ne_nil nonempty
  obtain ⟨rfl, afterTab⟩ := List.cons.inj same
  have tail : NameTail y := Name.nameTail_of_tab data longer
  cases y with
  | nil => simp at afterTab
  | cons c z =>
    obtain ⟨rfl, afterHyphen⟩ := List.cons.inj afterTab
    cases z with
    | nil =>
      obtain ⟨-, rest⟩ := List.cons.inj afterHyphen
      exact notHyphen _ rest
    | cons c w =>
      obtain ⟨rfl, -⟩ := List.cons.inj afterHyphen
      simp [nameTail_cons, isNameChar, isNameStart] at tail

theorem data_eq_of_append_columns {t u : Token} (first : t.WellFormed) (second : u.WellFormed)
    (isOpen : t.isOpen = true) (isOpen' : u.isOpen = true) {r s : Text}
    (same : t.data ++ (columns t ++ '\n' :: r) = u.data ++ (columns u ++ '\n' :: s)) :
    t.data = u.data := by
  rcases List.append_eq_append_iff.mp same with ⟨x, longer, behind⟩ | ⟨x, longer, behind⟩
  · have nothing : x = [] :=
      eq_nil_of_append_columns isOpen isOpen' first.data (longer ▸ second.data) behind
    rw [longer, nothing, List.append_nil]
  · have nothing : x = [] :=
      eq_nil_of_append_columns isOpen' isOpen second.data (longer ▸ first.data) behind
    rw [longer, nothing, List.append_nil]

theorem tokenLine_append_inj {t u : Token} (first : t.WellFormed) (second : u.WellFormed)
    {r s : Text} (same : tokenLine t ++ '\n' :: r = tokenLine u ++ '\n' :: s) : t = u ∧ r = s := by
  have values : t.value ++ (columns t ++ '\n' :: r) = u.value ++ (columns u ++ '\n' :: s) := by
    simp only [tokenLine_eq, List.append_assoc, List.cons_append] at same
    exact (label_append_inj same).2
  suffices equal : t = u by
    subst equal
    have rest := List.append_cancel_left (List.append_cancel_left values)
    exact ⟨rfl, (List.cons.inj rest).2⟩
  -- the next token of the text is the one or the other, or carries it on if it is open
  obtain ⟨v, -, -, closed, next⟩ := exists_next_carryOn first (columns t ++ '\n' :: r)
  obtain ⟨w, -, -, closed', next'⟩ := exists_next_carryOn second (columns u ++ '\n' :: s)
  rw [values] at next
  have carried : t.carryOn v = u.carryOn w := by simpa using next.symm.trans next'
  have openAlike : t.isOpen = u.isOpen := by
    rw [← isOpen_carryOn v t, carried, isOpen_carryOn]
  cases isOpen : t.isOpen with
  | false =>
    rw [closed isOpen, closed' (openAlike ▸ isOpen)] at carried
    simpa using carried
  | true =>
    have isOpen' : u.isOpen = true := openAlike ▸ isOpen
    have kind : t.kind = u.kind := by
      rw [← kind_carryOn v t, carried, kind_carryOn]
    have value := first.value_eq_of_isOpen isOpen
    have value' := second.value_eq_of_isOpen isOpen'
    rw [value, value', kind, List.append_assoc, List.append_assoc] at values
    have data := data_eq_of_append_columns first second isOpen isOpen'
      (List.append_cancel_left values)
    exact first.eq_of_value_eq second (by rw [value, value', kind, data])

/- The text of a selector: a line for each token, and one for the attributes behind them. -/

theorem tokenLine_append_ne (t : Token) (r s : Text) : tokenLine t ++ r ≠ 'a' :: s := by
  rw [tokenLine_eq]
  cases t.kind <;> simp [Kind.label]

theorem tokenLines_append_inj {ts us : List Token} (first : ∀ t ∈ ts, t.WellFormed)
    (second : ∀ u ∈ us, u.WellFormed) {r s : Text}
    (same : ts.flatMap (tokenLine · ++ ['\n']) ++ 'a' :: r =
      us.flatMap (tokenLine · ++ ['\n']) ++ 'a' :: s) : ts = us ∧ r = s := by
  induction ts generalizing us with
  | nil =>
    cases us with
    | nil => simpa using same
    | cons u us =>
      rw [List.flatMap_cons, List.append_assoc, List.append_assoc] at same
      exact absurd same.symm (tokenLine_append_ne u _ r)
  | cons t ts ih =>
    cases us with
    | nil =>
      rw [List.flatMap_cons, List.append_assoc, List.append_assoc] at same
      exact absurd same (tokenLine_append_ne t _ s)
    | cons u us =>
      simp only [List.flatMap_cons, List.append_assoc, List.singleton_append] at same
      obtain ⟨rfl, behind⟩ := tokenLine_append_inj (first t (by simp)) (second u (by simp)) same
      obtain ⟨rfl, rest⟩ := ih (fun t mem => first t (by simp [mem]))
        (fun u mem => second u (by simp [mem])) behind
      exact ⟨rfl, rest⟩

/-- The selector is what its own source parses to. -/
def Genuine (s : Selector) : Prop := tokenize s.source = .ok s.tokens

theorem genuine_of_parse {source : Text} {s : Selector} (parsed : Selector.parse source = .ok s) :
    Genuine s ∧ s.source = source := by
  obtain ⟨rfl, read⟩ := Selector.parse_eq_ok_iff.mp parsed
  exact ⟨read, rfl⟩

theorem Genuine.eq_of_tokens_eq {a b : Selector} (first : Genuine a) (second : Genuine b)
    (same : a.tokens = b.tokens) : a = b := by
  have source (s : Selector) (genuine : Genuine s) : s.source = textOf s.tokens := by
    simpa using (tokenize_eq_ok_iff_reads.mp genuine).text_eq
  obtain ⟨sourceA, tokensA⟩ := a
  obtain ⟨sourceB, tokensB⟩ := b
  obtain rfl : tokensA = tokensB := same
  rw [Selector.mk.injEq]
  exact ⟨(source _ first).trans (source _ second).symm, rfl⟩

theorem selectorText_append_inj {a b : Selector} (first : Genuine a) (second : Genuine b)
    {r s : Text} (same : selectorText a ++ r = selectorText b ++ s) : a = b ∧ r = s := by
  have whole (c : Selector) (u : Text) : selectorText c ++ u =
      c.tokens.flatMap (tokenLine · ++ ['\n']) ++ 'a' :: ("ttributes: ".toList ++
        (Text.join [' '] c.attributes.toList ++ u)) := by
    rw [selectorText, Text.join_concat, List.flatMap_map]
    simp
  rw [whole, whole] at same
  obtain ⟨tokens, rest⟩ := tokenLines_append_inj (fun t => wellFormed_of_tokenize first)
    (fun u => wellFormed_of_tokenize second) same
  obtain rfl := first.eq_of_tokens_eq second tokens
  exact ⟨rfl, List.append_cancel_left (List.append_cancel_left rest)⟩

theorem laterTexts_inj {as bs : List Selector} (first : ∀ a ∈ as, Genuine a)
    (second : ∀ b ∈ bs, Genuine b)
    (same : (as.map selectorText).flatMap (['\n', '\n'] ++ ·) ++ ['\n'] =
      (bs.map selectorText).flatMap (['\n', '\n'] ++ ·) ++ ['\n']) : as = bs := by
  induction as generalizing bs with
  | nil =>
    cases bs with
    | nil => rfl
    | cons b bs => simp at same
  | cons a as ih =>
    cases bs with
    | nil => simp at same
    | cons b bs =>
      simp only [List.map_cons, List.flatMap_cons, List.append_assoc] at same
      obtain ⟨rfl, behind⟩ := selectorText_append_inj (first a (by simp)) (second b (by simp))
        (List.append_cancel_left same)
      rw [ih (fun a mem => first a (by simp [mem])) (fun b mem => second b (by simp [mem])) behind]

theorem textReport_cons (a : Selector) (as : List Selector) :
    textReport (a :: as) =
      selectorText a ++ ((as.map selectorText).flatMap (['\n', '\n'] ++ ·) ++ ['\n']) := by
  rw [textReport, List.map_cons, Text.join_cons, List.append_assoc]

theorem textReport_cons_ne_nil (a : Selector) (as : List Selector) :
    textReport (a :: as) ≠ textReport [] := by
  intro same
  have length := congrArg List.length same
  rw [textReport_cons, selectorText, Text.join_concat] at length
  simp [textReport, Text.join] at length
  omega

theorem textReport_inj {as bs : List Selector} (first : ∀ a ∈ as, Genuine a)
    (second : ∀ b ∈ bs, Genuine b) (same : textReport as = textReport bs) : as = bs := by
  cases as with
  | nil =>
    cases bs with
    | nil => rfl
    | cons b bs => exact absurd same.symm (textReport_cons_ne_nil b bs)
  | cons a as =>
    cases bs with
    | nil => exact absurd same (textReport_cons_ne_nil a as)
    | cons b bs =>
      rw [textReport_cons, textReport_cons] at same
      obtain ⟨rfl, behind⟩ := selectorText_append_inj (first a (by simp)) (second b (by simp)) same
      rw [laterTexts_inj (fun a mem => first a (by simp [mem]))
        (fun b mem => second b (by simp [mem])) behind]

structure TextRun where
  arguments : List Text
  stdin : Text
  settings : Settings
  selector : Text
  parsed : Settings.ofArguments arguments = .ok settings
  given : settings.selector = some selector
  format : settings.format = .text
  inFull : settings.attributesOnly = false
  success : (run arguments stdin).exitCode = 0

namespace TextRun

def stdout (r : TextRun) : Text := (run r.arguments r.stdin).stdout

def sources (r : TextRun) : List Text := CommandLine.sources r.selector r.stdin

theorem run_eq (r : TextRun) :
    run r.arguments r.stdin = runSelectors r.settings r.selector r.stdin := by
  obtain ⟨selector, given, same⟩ := exists_selector_of_exitCode r.parsed r.success
  obtain rfl : selector = r.selector := Option.some.inj (given.symm.trans r.given)
  exact same

theorem exists_textReport (r : TextRun) :
    ∃ ss, List.Forall₂ (fun t s => Selector.parse t.trim = .ok s) r.sources ss ∧
      r.stdout = textReport ss := by
  have accepted : ∀ t ∈ r.sources, Accepted t.trim :=
    accepted_of_exitCode (r.run_eq ▸ r.success)
  obtain ⟨ss, each, -, stdout⟩ := exists_report_of_accepted (s := r.settings) accepted
  refine ⟨ss, each, ?_⟩
  rw [TextRun.stdout, r.run_eq, stdout]
  simp [report, r.inFull, r.format]

end TextRun

theorem genuine_of_forall₂ {ts : List Text} {ss : List Selector}
    (each : List.Forall₂ (fun t s => Selector.parse t.trim = .ok s) ts ss) :
    (∀ s ∈ ss, Genuine s) ∧ ts.map Text.trim = ss.map Selector.source := by
  induction each with
  | nil => simp
  | cons parsed _ ih =>
    obtain ⟨genuine, source⟩ := genuine_of_parse parsed
    exact ⟨by simpa using ⟨genuine, ih.1⟩, by simp [source, ih.2]⟩

/-- Two runs that write the same have the same trimmed sources, and so the same selectors with all of
their tokens and attributes, whatever the values of the tokens contain. -/
theorem text_run_is_lossless (r₁ r₂ : TextRun) (same : r₁.stdout = r₂.stdout) :
    r₁.sources.map Text.trim = r₂.sources.map Text.trim ∧
      ∃ ss, List.Forall₂ (fun t s => Selector.parse t.trim = .ok s) r₁.sources ss ∧
        List.Forall₂ (fun t s => Selector.parse t.trim = .ok s) r₂.sources ss := by
  obtain ⟨as, each₁, stdout₁⟩ := r₁.exists_textReport
  obtain ⟨bs, each₂, stdout₂⟩ := r₂.exists_textReport
  obtain ⟨genuine₁, trimmed₁⟩ := genuine_of_forall₂ each₁
  obtain ⟨genuine₂, trimmed₂⟩ := genuine_of_forall₂ each₂
  rw [stdout₁, stdout₂] at same
  obtain rfl := textReport_inj genuine₁ genuine₂ same
  exact ⟨trimmed₁.trans trimmed₂.symm, as, each₁, each₂⟩

/-- A quoted operand with a tab in it, and an escape that takes a tab to its end: once as the argument,
and once as a padded line between blank ones, with the journal shown. -/
theorem text_run_is_lossless_tabs :
    let argument : Text := "a[b='TAG\t-']:not(.c\\9\t)".toList
    let stdin : Text := "\n  a[b='TAG\t-']:not(.c\\9\t)\t\n \n".toList
    (run [argument] []).stdout = (run ["--verbose".toList, ['-']] stdin).stdout ∧
      (sources argument []).map Text.trim = (sources ['-'] stdin).map Text.trim ∧
      ∃ ss, List.Forall₂ (fun t s => Selector.parse t.trim = .ok s) (sources argument []) ss ∧
        List.Forall₂ (fun t s => Selector.parse t.trim = .ok s) (sources ['-'] stdin) ss := by
  intro argument stdin
  let first : TextRun := {
    arguments := [argument], stdin := [], settings := { selector := some argument },
    selector := argument, parsed := by decide +kernel, given := rfl, format := rfl, inFull := rfl,
    success := by decide +kernel }
  let second : TextRun := {
    arguments := ["--verbose".toList, ['-']], stdin := stdin,
    settings := { selector := some ['-'], verbose := true }, selector := ['-'],
    parsed := by decide +kernel, given := rfl, format := rfl, inFull := rfl,
    success := by decide +kernel }
  have same : first.stdout = second.stdout := by decide +kernel
  exact ⟨same, text_run_is_lossless first second same⟩

end CommandLine

end SelectorClauses
