/-
# ImportAtlas.Json.Print -- values as text

The text is plain ASCII: a character outside of it is written by its UTF-16 units, in lower case. On
one line a comma and a colon are followed by a blank. With an indent every item has a line of its own,
an empty list or object stays closed, and an indent below zero is none. A text may stand for the
indent, and is then written once for each level.
-/
import ImportAtlas.Json.Value
import ImportAtlas.Misuse
import ImportAtlas.Text.Quoted

namespace ImportAtlas.Json

/-- The escape of one UTF-16 unit. -/
def unitEscape (n : Nat) : List Char := '\\' :: 'u' :: Text.hexDigits 4 n

/-- One character of a text. -/
def escapeChar (c : Char) : List Char :=
  let n := c.toNat
  if c = '"' then ['\\', '"']
  else if c = '\\' then ['\\', '\\']
  else if 0x20 ≤ n && n ≤ 0x7E then [c]
  else if c = '\n' then ['\\', 'n']
  else if c = '\r' then ['\\', 'r']
  else if c = '\t' then ['\\', 't']
  else if n = 0x0C then ['\\', 'f']
  else if n = 0x08 then ['\\', 'b']
  else if n < 0x10000 then unitEscape n
  else unitEscape (0xD800 + (n - 0x10000) / 0x400) ++ unitEscape (0xDC00 + (n - 0x10000) % 0x400)

/-- A text in double quotes. -/
def printString (text : List Char) : List Char := '"' :: text.flatMap escapeChar ++ ['"']

/-- How a value is laid out: on one line, or with a text in front of each item for each level. -/
inductive Layout where
  | line
  | indented (unit : List Char)
  deriving DecidableEq, Repr, Inhabited

namespace Layout

/-- The layout with a number of blanks for each level. -/
def blanks (n : Int) : Layout := indented (List.replicate n.toNat ' ')

/-- The layout for an optional number of blanks. -/
def ofIndent : Option Int → Layout
  | none => line
  | some n => blanks n

/-- The layout that a value asks for: a number of blanks, for which a truth value may stand, or a text. -/
def ofValue : Value → Except Misuse Layout
  | .null => .ok line
  | .number n => .ok (blanks n)
  | .bool b => .ok (blanks (if b then 1 else 0))
  | .string text => .ok (indented text)
  | v => .error (.notIndent v)

/-- What stands before an item at a level. -/
def opening : Layout → Nat → List Char
  | line, _ => []
  | indented unit, level => '\n' :: (List.replicate level unit).flatten

/-- What stands between two items at a level. -/
def between : Layout → Nat → List Char
  | line, _ => [',', ' ']
  | indented unit, level => ',' :: '\n' :: (List.replicate level unit).flatten

end Layout

mutual

/-- The text of a value at a level. -/
def print (layout : Layout) (level : Nat) : Value → List Char
  | .null => "null".toList
  | .bool true => "true".toList
  | .bool false => "false".toList
  | .number n => (toString n).toList
  | .decimal literal => literal
  | .string text => printString text
  | .array [] => ['[', ']']
  | .array (item :: items) =>
    '[' :: layout.opening (level + 1) ++ print layout (level + 1) item ++
      printItems layout (level + 1) items ++ layout.opening level ++ [']']
  | .object [] => ['\x7b', '\x7d']
  | .object ((name, v) :: fields) =>
    '\x7b' :: layout.opening (level + 1) ++ printString name ++ ':' :: ' ' ::
      print layout (level + 1) v ++ printFields layout (level + 1) fields ++
        layout.opening level ++ ['\x7d']

/-- The items behind the first. -/
def printItems (layout : Layout) (level : Nat) : List Value → List Char
  | [] => []
  | item :: items => layout.between level ++ print layout level item ++ printItems layout level items

/-- The fields behind the first. -/
def printFields (layout : Layout) (level : Nat) : List (List Char × Value) → List Char
  | [] => []
  | (name, v) :: fields =>
    layout.between level ++ printString name ++ ':' :: ' ' :: print layout level v ++
      printFields layout level fields

end

/-- The text of a value. -/
def render (layout : Layout) (v : Value) : List Char := print layout 0 v

end ImportAtlas.Json
