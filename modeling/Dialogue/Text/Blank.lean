/-!
# Blank characters

The characters that count as white space at the ends of a text.
-/

namespace Dialogue.Text

/-- White space of any script. -/
def isBlank (c : Char) : Bool :=
  let code := c.toNat
  (0x09 ≤ code && code ≤ 0x0d) || code = 0x20 || code = 0x85 || code = 0xa0 || code = 0x1680
    || (0x2000 ≤ code && code ≤ 0x200a) || code = 0x2028 || code = 0x2029 || code = 0x202f
    || code = 0x205f || code = 0x3000

/-- A text without the white space at its ends. -/
def trim (cs : List Char) : List Char :=
  ((cs.dropWhile isBlank).reverse.dropWhile isBlank).reverse

end Dialogue.Text
