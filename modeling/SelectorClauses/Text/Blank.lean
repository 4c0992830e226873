import SelectorClauses.Text.Basic

/-!
Blank characters and trimming. The set is that of the Unicode white space characters together
with the four information separators U+001C to U+001F.
-/
namespace SelectorClauses

def isBlank (c : Char) : Bool :=
  let n := c.toNat
  (0x09 ≤ n && n ≤ 0x0d) || (0x1c ≤ n && n ≤ 0x20) || n == 0x85 || n == 0xa0 || n == 0x1680
    || (0x2000 ≤ n && n ≤ 0x200a) || n == 0x2028 || n == 0x2029 || n == 0x202f || n == 0x205f
    || n == 0x3000

namespace Text

def trimStart (t : Text) : Text := t.dropWhile isBlank

def trimEnd (t : Text) : Text := (t.reverse.dropWhile isBlank).reverse

def trim (t : Text) : Text := t.trimStart.trimEnd

def isAllBlank (t : Text) : Bool := t.all isBlank

end Text

end SelectorClauses
