/-
# ImportAtlas.Text.Lines -- lines and line breaks

A line ends at any of the characters that Unicode lets end one, at an information separator, or at a
carriage return with the line feed behind it. A break at the very end opens no further line.
-/

namespace ImportAtlas.Text

/-- Whether a character ends a line. -/
def isBreak (c : Char) : Bool :=
  let n := c.toNat
  (0x0A ≤ n && n ≤ 0x0D) || (0x1C ≤ n && n ≤ 0x1E) || n = 0x85 || n = 0x2028 || n = 0x2029

/-- Puts a character in front of the first line. -/
def pushFirst (c : Char) : List (List Char) → List (List Char)
  | [] => [[c]]
  | line :: lines => (c :: line) :: lines

/-- The lines of a text, without their breaks. -/
def lines : List Char → List (List Char)
  | [] => []
  | '\r' :: '\n' :: cs => [] :: lines cs
  | c :: cs => if isBreak c then [] :: lines cs else pushFirst c (lines cs)

/-- A text whose line breaks are all written as a line feed. -/
def unifyBreaks : List Char → List Char
  | [] => []
  | '\r' :: '\n' :: cs => '\n' :: unifyBreaks cs
  | '\r' :: cs => '\n' :: unifyBreaks cs
  | c :: cs => c :: unifyBreaks cs

end ImportAtlas.Text
