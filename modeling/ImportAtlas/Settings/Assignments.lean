/-
# ImportAtlas.Settings.Assignments -- plain assignments

A reader for local files in which each line is blank, a comment or one assignment, with or without quotes
around its value. A reference to another variable, an escape and a value that goes on over the end of its
line are no part of this form and are taken as they are written.
-/
import ImportAtlas.Settings
import ImportAtlas.Text.Lines
import ImportAtlas.Text.Scan
import ImportAtlas.Text.Utf8

namespace ImportAtlas.Settings

/-- A text without its quotes, if it starts with one; what follows the closing quote is left out. -/
def unquoteValue (cs : List Char) : List Char :=
  match cs with
  | '"' :: rest => if '"' ∈ rest then rest.takeWhile (· ≠ '"') else cs
  | '\'' :: rest => if '\'' ∈ rest then rest.takeWhile (· ≠ '\'') else cs
  | _ => cs

/-- The value of an assignment: without a comment behind a blank, and without quotes. -/
def assignedValue (cs : List Char) : List Char :=
  let cs := Text.trim cs
  match unquoteValue cs with
  | inner => if inner = cs then Text.trim (uncomment false cs) else inner
where
  /-- A text up to a number sign with a blank before it. -/
  uncomment (afterBlank : Bool) : List Char → List Char
    | [] => []
    | c :: cs => if c = '#' && afterBlank then [] else c :: uncomment (Text.isBlank c) cs

/-- The assignment on a line. -/
def assignment? (line : List Char) : Option (String × String) :=
  let line := Text.trim line
  let line := ((Text.after? "export".toList line).bind Text.skipBlanks1?).getD line
  match line.dropWhile (· ≠ '=') with
  | [] => none
  | _ :: value =>
    match line with
    | '#' :: _ => none
    | _ => some (String.ofList (Text.trim (line.takeWhile (· ≠ '='))),
        String.ofList (assignedValue value))

/-- The variables that plain assignments give; of two for one name the later counts. -/
def plainAssignments : AssignmentReader := fun _ bytes =>
  ((Text.lines (Text.unifyBreaks (Text.Utf8.decodeLenient bytes))).filterMap assignment?).reverse

end ImportAtlas.Settings
