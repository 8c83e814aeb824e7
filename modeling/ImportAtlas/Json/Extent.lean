/-
# ImportAtlas.Json.Extent -- how much a text asks of its reader

A reader that is to stop somewhere puts a bound on two things: how deep the brackets of a text nest, and
how many digits one of its whole numbers has. Both are read off the characters, those inside quotes aside.
-/
import ImportAtlas.Json.Parse

namespace ImportAtlas.Json

/-- Where a character stands: between the quotes of a text or not, or behind a backslash there. -/
inductive Spot where
  | outside
  | quoted
  | escaped
  deriving DecidableEq, Repr, Inhabited

/-- What was measured of a text so far. -/
structure Extent where
  spot : Spot := .outside
  /-- The brackets that are open. -/
  level : Nat := 0
  /-- The most brackets that were open at once. -/
  deepest : Nat := 0
  /-- The digits of the whole number that is being read; none inside a number that is not whole. -/
  digits : Option Nat := some 0
  /-- The digits of the longest whole number. -/
  longest : Nat := 0
  deriving Repr, Inhabited

namespace Extent

/-- Ends the number that is being read. -/
def endNumber (e : Extent) : Extent :=
  { e with digits := some 0, longest := max e.longest (e.digits.getD 0) }

/-- Takes a character outside of quotes. -/
def takeOutside (e : Extent) (c : Char) : Extent :=
  if c.isDigit then { e with digits := e.digits.map (· + 1) }
  else if c = '.' || c = 'e' || c = 'E' || c = '+' then { e with digits := none }
  else
    let e := e.endNumber
    if c = '"' then { e with spot := .quoted }
    else if c = '[' || c = '\x7b' then
      { e with level := e.level + 1, deepest := max e.deepest (e.level + 1) }
    else if c = ']' || c = '\x7d' then { e with level := e.level - 1 }
    else e

/-- Takes the next character. -/
def take (e : Extent) (c : Char) : Extent :=
  match e.spot with
  | .outside => e.takeOutside c
  | .escaped => { e with spot := .quoted }
  | .quoted =>
    if c = '"' then { e with spot := .outside }
    else if c = '\\' then { e with spot := .escaped }
    else e

/-- The extent of a text. -/
def ofText (text : List Char) : Extent := (text.foldl take {}).endNumber

end Extent

/-- How far a text was read before the reader was done or failed. -/
def readLength (text : List Char) : Nat :=
  match parse text with
  | .ok _ => text.length
  | .error offset => offset

end ImportAtlas.Json
