/-
# ImportAtlas.Text.Blank -- blanks

The characters that count as blank in source texts, in settings and in what version control prints: the
separators of Unicode, the ASCII blanks and the four information separators. A zero width space and a
byte order mark are no blanks.
-/

namespace ImportAtlas.Text

/-- Whether a character is a blank. -/
def isBlank (c : Char) : Bool :=
  let n := c.toNat
  (0x09 ≤ n && n ≤ 0x0D) || (0x1C ≤ n && n ≤ 0x20) || n = 0x85 || n = 0xA0 || n = 0x1680 ||
    (0x2000 ≤ n && n ≤ 0x200A) || n = 0x2028 || n = 0x2029 || n = 0x202F || n = 0x205F || n = 0x3000

/-- A text without the blanks at its beginning. -/
def trimLeft (cs : List Char) : List Char := cs.dropWhile isBlank

/-- A text without the blanks at its end. -/
def trimRight (cs : List Char) : List Char := (cs.reverse.dropWhile isBlank).reverse

/-- A text without the blanks at either end. -/
def trim (cs : List Char) : List Char := trimRight (trimLeft cs)

end ImportAtlas.Text
