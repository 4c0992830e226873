import SelectorClauses.Proofs.Grammar.Backtracking

/-!
The way that backtracking prefers. A greedy repetition takes the first way of its body as long as
there is one, which in general is not the longest it could take. Main statement: for identifiers it
is, so that `first?_identifier` is what the automaton reads.
-/
namespace SelectorClauses

namespace Way

@[simp] theorem rest_nothing (t : Text) : (nothing t).rest = t := rfl

@[simp] theorem rest_ofChar (c : Char) (r : Text) : (ofChar c r).rest = r := rfl

@[simp] theorem rest_followedBy (a b : Way) : (a.followedBy b).rest = b.rest := rfl

@[simp] theorem nothing_followedBy (t : Text) (a : Way) : (nothing t).followedBy a = a := by
  simp [followedBy, nothing]

@[simp] theorem followedBy_nothing (a : Way) : a.followedBy (nothing a.rest) = a := by
  simp [followedBy, nothing]

theorem followedBy_assoc (a b c : Way) :
    (a.followedBy b).followedBy c = a.followedBy (b.followedBy c) := by
  simp [followedBy]

theorem map_followedBy_map (a b : Way) (o : Option Way) :
    (o.map b.followedBy).map a.followedBy = o.map (a.followedBy b).followedBy := by
  cases o <;> simp [followedBy_assoc]

@[simp] theorem map_nothing_followedBy (t : Text) (o : Option Way) :
    o.map (nothing t).followedBy = o := by
  cases o <;> simp

end Way

namespace Pattern

/- The first way of each construction. -/

theorem first?_one_cons (inClass : Char → Bool) (c : Char) (r : Text) :
    (one inClass).first? (c :: r) = if inClass c then some (.ofChar c r) else none := by
  simp only [first?, ways]
  split <;> rfl

theorem first?_either (p q : Pattern) (t : Text) :
    (p.either q).first? t = (p.first? t).or (q.first? t) := List.head?_append

theorem first?_seq (p q : Pattern) (t : Text) :
    (p.seq q).first? t = (p.ways t).findSome? fun a => (q.first? a.rest).map a.followedBy := by
  simp only [first?, ways, List.head?_flatMap, List.head?_map]

theorem first?_one_seq_cons (inClass : Char → Bool) (q : Pattern) (c : Char) (r : Text) :
    ((one inClass).seq q).first? (c :: r) =
      if inClass c then (q.first? r).map (Way.ofChar c r).followedBy else none := by
  by_cases member : inClass c = true
  · simp [first?_seq, ways, member, Way.ofChar]
  · simp [first?_seq, ways, member]

/-- What always matches never makes the part before it give way. -/
theorem first?_seq_of_total {p q : Pattern} (total : ∀ t, ∃ b, q.first? t = some b) (t : Text) :
    (p.seq q).first? t =
      (p.first? t).bind fun a => (q.first? a.rest).map a.followedBy := by
  rw [first?_seq, first?]
  cases p.ways t with
  | nil => rfl
  | cons a others =>
    obtain ⟨b, found⟩ := total a.rest
    simp [found]

theorem head?_repeated (step : Text → List Way) (n : Nat) (t : Text) :
    (repeated step n t).head? = some (greedily (fun s => (step s).head?) n t) := by
  induction n generalizing t with
  | zero => rfl
  | succ n ih =>
    rw [repeated, greedily, List.head?_append]
    cases step t with
    | nil => rfl
    | cons a others => simp [ih]

theorem first?_upTo (n : Nat) (p : Pattern) (t : Text) :
    (p.upTo n).first? t = some (greedily p.first? n t) := head?_repeated p.ways n t

theorem first?_many (p : Pattern) (t : Text) :
    p.many.first? t = some (greedily p.first? t.length t) := head?_repeated p.ways t.length t

theorem first?_optional (p : Pattern) (t : Text) :
    p.optional.first? t = some ((p.first? t).getD (.nothing t)) := by
  rw [optional, first?_upTo, greedily]
  cases p.first? t with
  | none => rfl
  | some a => simp [greedily]

/- The longest way of the automaton, one character at a time. -/

def longestWay (s : Name.State) (t : Text) : Option Way :=
  (Name.automaton.longest? s t).map fun (w, r) => ⟨w, [], r⟩

theorem longestWay_nil (s : Name.State) :
    longestWay s [] = if Name.final s then some (.nothing []) else none := by
  rw [longestWay, Automaton.longest?]
  change Option.map _ (if Name.final s = true then _ else _) = _
  split <;> rfl

theorem longestWay_cons (s : Name.State) (c : Char) (r : Text) :
    longestWay s (c :: r) =
      (((Name.step s c).bind fun s' => longestWay s' r).map (Way.ofChar c r).followedBy).or
        (if Name.final s then some (.nothing (c :: r)) else none) := by
  have read : Name.automaton.longest? s (c :: r) =
      (((Name.step s c).bind fun s' => Name.automaton.longest? s' r).map
        fun parts => (c :: parts.1, parts.2)).or
          (if Name.final s then some ([], c :: r) else none) := by
    rw [Automaton.longest?]
    change _ = (Option.map _ ((Name.automaton.step s c).bind _)).or _
    cases (Name.automaton.step s c).bind fun s' => Name.automaton.longest? s' r <;> rfl
  have further : ((Name.step s c).bind fun s' => longestWay s' r) =
      ((Name.step s c).bind fun s' => Name.automaton.longest? s' r).map
        fun (w, rest) => ⟨w, [], rest⟩ := by
    simp only [longestWay, Option.map_bind]
    rfl
  rw [further, longestWay, read]
  cases (Name.step s c).bind fun s' => Name.automaton.longest? s' r with
  | none =>
    simp only [Option.map_none, Option.none_or]
    split <;> rfl
  | some parts => simp [Way.followedBy, Way.ofChar]

theorem exists_longestWay_of_final {s : Name.State} (finished : Name.final s = true) (t : Text) :
    ∃ a, longestWay s t = some a := by
  cases t with
  | nil => exact ⟨_, by rw [longestWay_nil, if_pos finished]⟩
  | cons c r =>
    rw [longestWay_cons, if_pos finished]
    cases ((Name.step s c).bind fun s' => longestWay s' r).map (Way.ofChar c r).followedBy with
    | none => exact ⟨_, rfl⟩
    | some a => exact ⟨_, rfl⟩

theorem longestWay_of_step {s s' : Name.State} {c : Char} (step : Name.step s c = some s')
    (finished : Name.final s' = true) (r : Text) :
    longestWay s (c :: r) = (longestWay s' r).map (Way.ofChar c r).followedBy := by
  obtain ⟨a, found⟩ := exists_longestWay_of_final finished r
  simp [longestWay_cons, step, found]

theorem longestWay_of_stuck {s : Name.State} {c : Char} (stuck : Name.step s c = none)
    (r : Text) : longestWay s (c :: r) =
      if Name.final s then some (.nothing (c :: r)) else none := by
  simp [longestWay_cons, stuck]

/- Escapes. -/

def thenName (p : Pattern) (t : Text) : Option Way :=
  (p.first? t).bind fun a => (longestWay .inside a.rest).map a.followedBy

theorem thenName_of_first? {p : Pattern} {t : Text} {a : Way} (found : p.first? t = some a) :
    thenName p t = (longestWay .inside a.rest).map a.followedBy := by
  rw [thenName, found, Option.bind_some]

theorem thenName_of_followedBy {p q : Pattern} {t s : Text} {a : Way}
    (first : p.first? t = (q.first? s).map a.followedBy) :
    thenName p t = (thenName q s).map a.followedBy := by
  rw [thenName, thenName, first]
  cases q.first? s with
  | none => rfl
  | some b => exact (Way.map_followedBy_map a b _).symm

theorem thenName_seq {p q : Pattern} (total : ∀ t, ∃ b, q.first? t = some b) {t : Text} {a : Way}
    (found : p.first? t = some a) :
    thenName (p.seq q) t = (thenName q a.rest).map a.followedBy := by
  apply thenName_of_followedBy
  rw [first?_seq_of_total total, found, Option.bind_some]

theorem thenName_one_seq {inClass : Char → Bool} {c : Char} (member : inClass c = true)
    (q : Pattern) (r : Text) :
    thenName ((one inClass).seq q) (c :: r) = (thenName q r).map (Way.ofChar c r).followedBy := by
  apply thenName_of_followedBy
  rw [first?_one_seq_cons, if_pos member]

theorem thenName_left {p : Pattern} {t : Text} {a : Way} (found : p.first? t = some a)
    (q : Pattern) : thenName (p.either q) t = thenName p t := by
  rw [thenName, thenName, first?_either, found, Option.some_or]

theorem thenName_right {p : Pattern} {t : Text} (missing : p.first? t = none) (q : Pattern) :
    thenName (p.either q) t = thenName q t := by
  rw [thenName, thenName, first?_either, missing, Option.none_or]

theorem longestWay_eq_inside {s : Name.State} {c : Char} (same : Name.step s c = Name.stepInside c)
    (finished : Name.final s = true) (r : Text) :
    longestWay s (c :: r) = longestWay .inside (c :: r) := by
  rw [longestWay_cons, longestWay_cons, same, finished]
  rfl

theorem exists_first?_escapeEnding (t : Text) : ∃ b, escapeEnding.first? t = some b :=
  ⟨_, first?_optional _ t⟩

theorem first?_escapeEnding_returnFeed (r : Text) :
    escapeEnding.first? ('\r' :: '\n' :: r) = some ⟨['\r', '\n'], [], r⟩ := by
  simp [escapeEnding, first?_optional, first?_either, char, first?_one_seq_cons, first?_one_cons,
    Way.ofChar, Way.followedBy]

theorem first?_escapeEnding_return {r : Text} (noFeed : ∀ c ∈ r.head?, c ≠ '\n') :
    escapeEnding.first? ('\r' :: r) = some (.ofChar '\r' r) := by
  have ends : isEscapeEnd '\r' = true := by decide
  cases r with
  | nil => rfl
  | cons c r =>
    have notFeed : c ≠ '\n' := noFeed c (by simp)
    simp [escapeEnding, first?_optional, first?_either, char, first?_one_seq_cons,
      first?_one_cons, notFeed, ends]

theorem first?_escapeEnding_cons {c : Char} (notReturn : c ≠ '\r') (r : Text) :
    escapeEnding.first? (c :: r) =
      some (if isEscapeEnd c then .ofChar c r else .nothing (c :: r)) := by
  simp only [escapeEnding, first?_optional, first?_either, char, first?_one_seq_cons, beq_iff_eq,
    notReturn, if_false, Option.none_or, first?_one_cons]
  split <;> rfl

theorem longestWay_hexReturn (r : Text) :
    (longestWay .hexReturn r).map (Way.ofChar '\r' r).followedBy =
      thenName escapeEnding ('\r' :: r) := by
  cases r with
  | nil => rfl
  | cons c r =>
    by_cases feed : c = '\n'
    · subst feed
      have step : Name.step .hexReturn '\n' = some .inside := rfl
      rw [thenName_of_first? (first?_escapeEnding_returnFeed r), longestWay_of_step step rfl,
        Way.map_followedBy_map]
      rfl
    · rw [thenName_of_first? (first?_escapeEnding_return (by simpa using feed)),
        longestWay_eq_inside (by rw [Name.step, if_neg feed]) rfl]
      rfl

theorem longestWay_hex_of_end {left : Nat} {t : Text}
    (ended : ∀ c ∈ t.head?, (isHexDigit c && 0 < left) = false) :
    longestWay (.hex left) t = thenName escapeEnding t := by
  cases t with
  | nil => rfl
  | cons c r =>
    have noDigit : (isHexDigit c && 0 < left) = false := ended c (by simp)
    have step : Name.step (.hex left) c = if c = '\r' then some .hexReturn
        else if isEscapeEnd c then some .inside else Name.stepInside c := by
      rw [Name.step, noDigit]
      rfl
    by_cases carriage : c = '\r'
    · subst carriage
      rw [if_pos rfl] at step
      rw [longestWay_of_step step rfl, longestWay_hexReturn]
    · rw [if_neg carriage] at step
      rw [thenName_of_first? (first?_escapeEnding_cons carriage r)]
      by_cases ends : isEscapeEnd c = true
      · rw [if_pos ends] at step ⊢
        exact longestWay_of_step step rfl r
      · rw [if_neg ends] at step ⊢
        rw [longestWay_eq_inside step rfl, Way.map_nothing_followedBy]
        rfl

/-- Behind the first digit of an escape, the preferred way and the automaton take the same digits
and the same ending. -/
theorem longestWay_hex (left : Nat) (t : Text) :
    longestWay (.hex left) t = thenName ((upTo left (one isHexDigit)).seq escapeEnding) t := by
  have digits : ∀ (n : Nat) (s : Text),
      thenName ((upTo n (one isHexDigit)).seq escapeEnding) s =
        (thenName escapeEnding (greedily (one isHexDigit).first? n s).rest).map
          (greedily (one isHexDigit).first? n s).followedBy :=
    fun n s => thenName_seq exists_first?_escapeEnding (first?_upTo n _ s)
  induction left generalizing t with
  | zero =>
    rw [digits, longestWay_hex_of_end (by simp)]
    exact (Way.map_nothing_followedBy t _).symm
  | succ n ih =>
    rw [digits, greedily]
    cases t with
    | nil => rfl
    | cons c r =>
      rw [first?_one_cons]
      by_cases digit : isHexDigit c = true
      · have step : Name.step (.hex (n + 1)) c = some (.hex n) := by simp [Name.step, digit]
        rw [longestWay_of_step step rfl, ih, digits, if_pos digit, Way.map_followedBy_map]
        rfl
      · rw [longestWay_hex_of_end (by simpa using digit), if_neg digit]
        exact (Way.map_nothing_followedBy (c :: r) _).symm

theorem first?_escape_cons {c : Char} (notSlash : c ≠ '\\') (r : Text) :
    escape.first? (c :: r) = none := by
  simp [escape, escapeByDigits, escapeOfOne, first?_either, char, first?_one_seq_cons, notSlash]

theorem longestWay_backslash (t : Text) :
    (longestWay .backslash t).map (Way.ofChar '\\' t).followedBy = thenName escape ('\\' :: t) := by
  cases t with
  | nil => rfl
  | cons c r =>
    by_cases digit : isHexDigit c = true
    · have step : Name.step .backslash c = some (.hex 5) := by simp [Name.step, digit]
      obtain ⟨a, found⟩ : ∃ a, escapeByDigits.first? ('\\' :: c :: r) = some a := by
        obtain ⟨b, ending⟩ := exists_first?_escapeEnding (greedily (one isHexDigit).first? 5 r).rest
        simp [escapeByDigits, char, first?_one_seq_cons, digit, first?_upTo, ending,
          first?_seq_of_total exists_first?_escapeEnding]
      rw [longestWay_of_step step rfl, longestWay_hex, escape, thenName_left found,
        escapeByDigits, char, thenName_one_seq (by decide), thenName_one_seq digit]
    · have missing : escapeByDigits.first? ('\\' :: c :: r) = none := by
        simp [escapeByDigits, char, first?_one_seq_cons, digit]
      rw [escape, thenName_right missing, escapeOfOne, char, thenName_one_seq (by decide)]
      by_cases stop : isEscapeStop c = true
      · have step : Name.step .backslash c = none := by simp [Name.step, digit, stop]
        have nothing : (one fun c => !(isEscapeStop c || isHexDigit c)).first? (c :: r) = none := by
          simp [first?_one_cons, stop]
        rw [longestWay_of_stuck step, thenName, nothing]
        rfl
      · have step : Name.step .backslash c = some .inside := by simp [Name.step, digit, stop]
        have free : (one fun c => !(isEscapeStop c || isHexDigit c)).first? (c :: r) =
            some (.ofChar c r) := by
          simp [first?_one_cons, stop, digit]
        rw [longestWay_of_step step rfl, thenName_of_first? free]
        rfl

/- Names. -/

section

variable {inAscii inClass : Char → Bool}
  (same : ∀ c, inClass c = (inAscii c || decide (0x7f < c.toNat)))
  (notSlash : inClass '\\' = false)

include same notSlash

theorem first?_unit_cons (c : Char) (r : Text) :
    ((one inAscii).either (beyondAscii.either escape)).first? (c :: r) =
      if c = '\\' then escape.first? (c :: r)
      else if inClass c then some (.ofChar c r) else none := by
  rw [first?_either, first?_either, beyondAscii, first?_one_cons, first?_one_cons]
  by_cases slash : c = '\\'
  · subst slash
    rw [same, Bool.or_eq_false_iff] at notSlash
    simp [notSlash]
  · rw [first?_escape_cons slash, same, if_neg slash]
    by_cases ascii : inAscii c = true
    · simp [ascii]
    · simp [ascii]

theorem longestWay_of_units {s : Name.State}
    (step : ∀ c, Name.step s c =
      if c = '\\' then some .backslash else if inClass c then some .inside else none) (t : Text) :
    longestWay s t = (thenName ((one inAscii).either (beyondAscii.either escape)) t).or
      (if Name.final s then some (.nothing t) else none) := by
  cases t with
  | nil => exact longestWay_nil s
  | cons c r =>
    rw [longestWay_cons, step]
    congr 1
    have first := first?_unit_cons same notSlash c r
    by_cases slash : c = '\\'
    · subst slash
      rw [if_pos rfl] at first ⊢
      rw [thenName, first]
      exact longestWay_backslash r
    · rw [if_neg slash] at first ⊢
      by_cases inside : inClass c = true
      · rw [if_pos inside] at first ⊢
        rw [thenName_of_first? first]
        rfl
      · rw [if_neg inside] at first ⊢
        rw [thenName, first]
        rfl

end

theorem longestWay_afterHyphen (t : Text) :
    longestWay .afterHyphen t = thenName nameStart t := by
  have units := longestWay_of_units isNameStart_eq (by decide) (s := .afterHyphen) (fun _ => rfl) t
  rw [units]
  exact Option.or_none

theorem longestWay_inside (t : Text) :
    longestWay .inside t = (thenName nameUnit t).or (some (.nothing t)) :=
  longestWay_of_units isNameChar_eq (by decide) (fun _ => rfl) t

theorem longestWay_inside_eq_greedily {n : Nat} {t : Text} (room : t.length ≤ n) :
    longestWay .inside t = some (greedily nameUnit.first? n t) := by
  induction n generalizing t with
  | zero =>
    obtain rfl : t = [] := List.eq_nil_of_length_eq_zero (by omega)
    rfl
  | succ n ih =>
    rw [longestWay_inside, thenName, greedily]
    cases found : nameUnit.first? t with
    | none => rfl
    | some a =>
      have shorter : a.rest.length < t.length :=
        findsTexts_nameUnit.length_rest_lt not_nameUnit_nil (List.mem_of_mem_head? found)
      rw [Option.bind_some, ih (by omega)]
      rfl

theorem first?_seq_units (p : Pattern) (t : Text) :
    (p.seq (many nameUnit)).first? t = thenName p t := by
  have total : ∀ s, ∃ b, (many nameUnit).first? s = some b := fun s => ⟨_, first?_many _ s⟩
  rw [first?_seq_of_total total, thenName]
  congr 1
  funext a
  rw [first?_many, longestWay_inside_eq_greedily (Nat.le_refl _)]

theorem first?_started (t : Text) : started.first? t = thenName nameStart t :=
  first?_seq_units nameStart t

theorem first?_name (t : Text) :
    name.first? t = (Name.name? t).map fun (w, r) => ⟨w, [], r⟩ := by
  change name.first? t = longestWay .nameStart t
  have units := longestWay_of_units isNameChar_eq (by decide) (s := .nameStart) (fun _ => rfl) t
  rw [units, name, first?_seq_units]
  exact Option.or_none.symm

theorem first?_started_hyphen (r : Text) : started.first? ('-' :: r) = none := by
  rw [first?_started, ← longestWay_afterHyphen, longestWay_of_stuck (by decide)]
  rfl

theorem ways_hyphen (c : Char) (r : Text) :
    (optional (char '-')).ways (c :: r) =
      if c = '-' then [.ofChar '-' r, .nothing ('-' :: r)] else [.nothing (c :: r)] := by
  by_cases hyphen : c = '-'
  · subst hyphen
    simp [optional, char, ways, repeated, Way.followedBy, Way.ofChar, Way.nothing]
  · simp [optional, char, ways, repeated, hyphen]

theorem first?_identifier_cons (c : Char) (r : Text) :
    identifier.first? (c :: r) =
      if c = '-' then (started.first? r).map (Way.ofChar '-' r).followedBy
      else started.first? (c :: r) := by
  rw [identifier, first?_seq, ways_hyphen]
  by_cases hyphen : c = '-'
  · subst hyphen
    -- without the hyphen there is no way, so the first way is one with the hyphen
    cases body : started.first? r with
    | none => simp [List.findSome?, Way.ofChar, Way.nothing, body, first?_started_hyphen]
    | some b => simp [Way.ofChar, body]
  · rw [if_neg hyphen, if_neg hyphen, List.findSome?_singleton, Way.map_nothing_followedBy]
    rfl

theorem first?_identifier (t : Text) :
    identifier.first? t = (Name.identifier? t).map fun (w, r) => ⟨w, [], r⟩ := by
  change identifier.first? t = longestWay .identifierStart t
  cases t with
  | nil => rfl
  | cons c r =>
    rw [first?_identifier_cons]
    by_cases hyphen : c = '-'
    · subst hyphen
      rw [if_pos rfl, first?_started, ← longestWay_afterHyphen, longestWay_cons]
      exact Option.or_none.symm
    · rw [if_neg hyphen, first?_started, ← longestWay_afterHyphen, longestWay_cons,
        longestWay_cons, Name.step, if_neg hyphen]
      rfl

end Pattern

end SelectorClauses
