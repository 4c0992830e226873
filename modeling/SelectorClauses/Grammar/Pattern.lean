import SelectorClauses.Grammar.Clause

/-!
Patterns that are matched by backtracking. A pattern has a list of ways to match the start of a
text, and the way that is preferred stands first: the left alternative comes before the right one,
and one more repetition before an end of the repetition. The patterns of the grammar leave it open
how an escape is read: with fewer digits than there are, and with or without what ends them. A scan
that does not go back takes the preferred way of each part and keeps to it.
-/
namespace SelectorClauses

/-- One way to match the start of a text: what is taken, the numbered groups that were captured,
the latest first, and what is left. -/
structure Way where
  taken : Text
  captured : List (Nat × Text)
  rest : Text
deriving DecidableEq, Repr

namespace Way

def nothing (t : Text) : Way := ⟨[], [], t⟩

def ofChar (c : Char) (r : Text) : Way := ⟨[c], [], r⟩

def followedBy (a b : Way) : Way := ⟨a.taken ++ b.taken, b.captured ++ a.captured, b.rest⟩

def capturedAs (i : Nat) (a : Way) : Way := { a with captured := (i, a.taken) :: a.captured }

def part? (a : Way) (i : Nat) : Option Text := a.captured.lookup i

end Way

inductive Pattern
  | one (inClass : Char → Bool)
  | seq (p q : Pattern)
  | either (p q : Pattern)
  | upTo (n : Nat) (p : Pattern)
  | many (p : Pattern)
  | group (i : Nat) (p : Pattern)

namespace Pattern

def repeated (step : Text → List Way) : Nat → Text → List Way
  | 0, t => [.nothing t]
  | n + 1, t =>
    ((step t).flatMap fun a => (repeated step n a.rest).map a.followedBy) ++ [.nothing t]

/-- All ways to match the start of a text, in the order in which they are tried. What is repeated
without a limit takes a character each time, so the length of the text is limit enough. -/
def ways : Pattern → Text → List Way
  | .one inClass => fun t =>
    match t with
    | [] => []
    | c :: r => if inClass c then [.ofChar c r] else []
  | .seq p q => fun t => (p.ways t).flatMap fun a => (q.ways a.rest).map a.followedBy
  | .either p q => fun t => p.ways t ++ q.ways t
  | .upTo n p => repeated p.ways n
  | .many p => fun t => repeated p.ways t.length t
  | .group i p => fun t => (p.ways t).map (Way.capturedAs i)

def first? (p : Pattern) (t : Text) : Option Way := (p.ways t).head?

def greedily (next : Text → Option Way) : Nat → Text → Way
  | 0, t => .nothing t
  | n + 1, t =>
    match next t with
    | none => .nothing t
    | some a => a.followedBy (greedily next n a.rest)

/-- The way of a single scan, on which a part that has matched is never matched differently. -/
def committed? : Pattern → Text → Option Way
  | .one inClass => (one inClass).first?
  | .seq p q => fun t =>
    (p.committed? t).bind fun a => (q.committed? a.rest).map a.followedBy
  | .either p q => fun t => (p.committed? t).or (q.committed? t)
  | .upTo n p => fun t => some (greedily p.committed? n t)
  | .many p => fun t => some (greedily p.committed? t.length t)
  | .group i p => fun t => (p.committed? t).map (Way.capturedAs i)

/- The grammar. -/

def char (c : Char) : Pattern := .one (· == c)

def optional (p : Pattern) : Pattern := .upTo 1 p

def isLetter (c : Char) : Bool := c == '_' || ('a' ≤ c && c ≤ 'z') || ('A' ≤ c && c ≤ 'Z')

def beyondAscii : Pattern := .one fun c => 0x7f < c.toNat

def escapeEnding : Pattern := optional (.either (.seq (char '\r') (char '\n')) (.one isEscapeEnd))

def escapeByDigits : Pattern :=
  .seq (char '\\') (.seq (.one isHexDigit) (.seq (.upTo 5 (.one isHexDigit)) escapeEnding))

def escapeOfOne : Pattern :=
  .seq (char '\\') (.one fun c => !(isEscapeStop c || isHexDigit c))

def escape : Pattern := .either escapeByDigits escapeOfOne

def nameStart : Pattern := .either (.one isLetter) (.either beyondAscii escape)

def nameUnit : Pattern :=
  .either (.one fun c => isLetter c || ('0' ≤ c && c ≤ '9') || c == '-')
    (.either beyondAscii escape)

def started : Pattern := .seq nameStart (.many nameUnit)

def identifier : Pattern := .seq (optional (char '-')) started

def name : Pattern := .seq nameUnit (.many nameUnit)

def lineEnd : Pattern :=
  .either (char '\n') (.either (.seq (char '\r') (char '\n')) (.either (char '\r') (char '\x0c')))

def quotationUnit (quote : Char) : Pattern :=
  .either (.one fun c => !(isEscapeStop c || c == '\\' || c == quote))
    (.either (.seq (char '\\') lineEnd) escape)

def quotation (quote : Char) : Pattern :=
  .seq (char quote) (.seq (.many (quotationUnit quote)) (char quote))

def operand : Pattern := .either name (.either (quotation '"') (quotation '\''))

def beforeEqual (c : Char) : Pattern := .seq (char c) (char '=')

def operator : Pattern :=
  .either (char '=') (.either (beforeEqual '~') (.either (beforeEqual '|')
    (.either (beforeEqual '^') (.either (beforeEqual '$') (beforeEqual '*')))))

def test : Pattern := .seq (.group 2 operator) (.group 3 operand)

def bracketed : Pattern :=
  .seq (char '[') (.seq (.group 1 identifier) (.seq (optional test) (char ']')))

def ofKind : Kind → Pattern
  | .tag => .group 1 identifier
  | .id => .seq (char '#') (.group 1 identifier)
  | .cls => .seq (char '.') (.group 1 identifier)
  | .attr => bracketed

end Pattern

end SelectorClauses
