/-!
# Blank characters

The characters with the property of being white space, and the removal of them from both ends of a
text. There are twenty-five: five control characters and the next-line character, the space and
the other spaces of fixed width, and the two separators of lines and paragraphs.
-/

namespace ProviderMock.Text

/-- Whether a character is white space. -/
def isBlank (c : Char) : Bool :=
  let n := c.toNat
  (0x09 ≤ n && n ≤ 0x0D) || n = 0x20 || n = 0x85 || n = 0xA0 || n = 0x1680 ||
    (0x2000 ≤ n && n ≤ 0x200A) || n = 0x2028 || n = 0x2029 || n = 0x202F || n = 0x205F || n = 0x3000

/-- A text without the white space at its two ends. -/
def trim (cs : List Char) : List Char :=
  ((cs.dropWhile isBlank).reverse.dropWhile isBlank).reverse

end ProviderMock.Text
