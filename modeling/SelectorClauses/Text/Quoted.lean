import SelectorClauses.Text.Hex
import SelectorClauses.Text.Printable

/-!
Quoted text, for displays and the journal. The quote is an apostrophe unless the text has one
and has no double quote. The quote in use and the backslash are written behind a backslash, tab
and the two line ends by their letters, and what is not printable by its code point in the
narrowest of three widths.
-/
namespace SelectorClauses

namespace Text

def quoteFor (t : Text) : Char :=
  if t.contains '\'' && !t.contains '"' then '"' else '\''

def quotedChar (quote c : Char) : Text :=
  if c = quote ∨ c = '\\' then ['\\', c]
  else if c = '\t' then ['\\', 't']
  else if c = '\n' then ['\\', 'n']
  else if c = '\r' then ['\\', 'r']
  else if isPrintable c then [c]
  else if c.toNat < 0x100 then '\\' :: 'x' :: hexText 2 c.toNat
  else if c.toNat < 0x10000 then '\\' :: 'u' :: hexText 4 c.toNat
  else '\\' :: 'U' :: hexText 8 c.toNat

def quoted (t : Text) : Text :=
  t.quoteFor :: t.flatMap (quotedChar t.quoteFor) ++ [t.quoteFor]

end Text

end SelectorClauses
