/-
# ImportAtlas.Script.Source -- a program text by offset

The text of a script with its characters numbered from zero, and the questions a reader asks of the
characters at an offset. Behind the end there is no character, and no question about one is answered
with yes.
-/

namespace ImportAtlas.Script

/-- A program text, ready to be read by offset. -/
structure Source where
  chars : Array Char
  deriving Repr, Inhabited

namespace Source

/-- Prepares a text for reading. -/
def ofText (text : List Char) : Source := { chars := text.toArray }

/-- The number of characters. -/
def size (s : Source) : Nat := s.chars.size

/-- The character at an offset, none behind the end. -/
def get? (s : Source) (p : Nat) : Option Char := s.chars[p]?

/-- Whether the character at an offset exists and passes a test. -/
def test (s : Source) (p : Nat) (f : Char → Bool) : Bool :=
  match s.get? p with
  | some c => f c
  | none => false

/-- Whether the character at an offset is `c`. -/
def has (s : Source) (p : Nat) (c : Char) : Bool := s.test p (· = c)

/-- Whether a text stands at an offset. -/
def hasAll (s : Source) : Nat → List Char → Bool
  | _, [] => true
  | p, c :: cs => s.has p c && hasAll s (p + 1) cs

/-- Whether nothing is to be read at an offset: the end of the text, or the character zero. -/
def isVoid (s : Source) (p : Nat) : Bool :=
  match s.get? p with
  | some c => c = '\x00'
  | none => true

/-- The first offset from `p` on whose character fails the test, or the end. -/
def skipWhile (s : Source) (f : Char → Bool) (p : Nat) : Nat :=
  if p < s.size then
    if s.test p f then skipWhile s f (p + 1) else p
  else p
termination_by s.size - p

/-- The characters from `p` up to `q`. -/
def slice (s : Source) (p q : Nat) : List Char := (s.chars.extract p q).toList

end Source

end ImportAtlas.Script
