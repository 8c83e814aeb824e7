/-
# ImportAtlas.Changes -- changed files as version control lists them

Two listings are read: the short status, with two status columns, a blank and a path on each line, and
the status by name, with fields divided by tabs. Deleted files are left out. Where an old and a new
path are given, the new one is taken.
-/
import ImportAtlas.Json.Value
import ImportAtlas.Path
import ImportAtlas.Text.Blank
import ImportAtlas.Text.Lines
import ImportAtlas.Text.Scan

namespace ImportAtlas

/-- A changed file and its status letters. -/
structure ChangedFile where
  path : Path
  status : List Char
  deriving DecidableEq, Repr, Inhabited

/-- A changed file as a record of its fields. -/
def ChangedFile.toJson (f : ChangedFile) : Json.Value :=
  .record [("path", .string f.path), ("status", .string f.status)]

namespace Changes

/-- A path without the quotes around it. -/
def unquote (p : Path) : Path :=
  if 2 ≤ p.length ∧ p.head? = some '"' ∧ p.getLast? = some '"' then (p.drop 1).dropLast else p

/-- What follows the first occurrence of a text; none if there is no occurrence. -/
def behindFirst? (mark : List Char) : List Char → Option (List Char)
  | [] => none
  | c :: cs =>
    match Text.after? mark (c :: cs) with
    | some rest => some rest
    | none => behindFirst? mark cs

/-- The mark between an old and a new path. -/
def arrow : List Char := " -> ".toList

/-- The changed file on a line of the short status. -/
def statusLine? (workspace : Path) (line : List Char) : Option ChangedFile :=
  let status := Text.trim (line.take 2)
  if line.length < 4 ∨ status = [] ∨ 'D' ∈ status then none
  else
    let file := line.drop 3
    some ⟨Path.join workspace (unquote ((behindFirst? arrow file).getD file)), status⟩

/-- The changed files of a short status. -/
def ofStatus (workspace : Path) (output : List Char) : List ChangedFile :=
  (Text.lines output).filterMap (statusLine? workspace)

/-- The fields of a line, divided by tabs. -/
def tabFields : List Char → List (List Char)
  | [] => [[]]
  | '\t' :: cs => [] :: tabFields cs
  | c :: cs => Text.pushFirst c (tabFields cs)

/-- The changed file on a line of the status by name. -/
def nameStatusLine? (workspace : Path) (line : List Char) : Option ChangedFile :=
  match tabFields line with
  | first :: second :: more =>
    match Text.trim first with
    | [] => none
    | letter :: _ =>
      if letter = 'D' then none
      else some ⟨Path.join workspace (unquote ((second :: more).getLastD second)), [letter]⟩
  | _ => none

/-- The changed files of a status by name. -/
def ofNameStatus (workspace : Path) (output : List Char) : List ChangedFile :=
  (Text.lines output).filterMap (nameStatusLine? workspace)

/-- The files of a plain listing, one on each line. -/
def ofListing (workspace : Path) (output : List Char) : List Path :=
  ((Text.lines output).filter (· ≠ [])).map (Path.join workspace)

end Changes

end ImportAtlas
