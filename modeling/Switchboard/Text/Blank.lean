/-!
# `Switchboard.Text.Blank`: white space around a line

The characters with the Unicode property White_Space, and the trimming of a text by them.
-/

set_option autoImplicit false

namespace Switchboard.Text

/-- The property White_Space: twenty-five code points, six of them ASCII. -/
def isBlank (c : Char) : Bool :=
  let n := c.toNat
  (0x09 ≤ n && n ≤ 0x0D) || n == 0x20 || n == 0x85 || n == 0xA0 || n == 0x1680 ||
    (0x2000 ≤ n && n ≤ 0x200A) || n == 0x2028 || n == 0x2029 || n == 0x202F || n == 0x205F ||
    n == 0x3000

/-- The text without the blanks at both of its ends. -/
def trim (text : List Char) : List Char :=
  ((text.dropWhile isBlank).reverse.dropWhile isBlank).reverse

end Switchboard.Text
