/-
# ImportAtlas.Text.Scan -- all occurrences of a pattern

A pattern is a function that reads a match from the front of a text and says how many characters it
took. Occurrences are found from left to right and do not overlap. The scan goes down the text one
character at a time and counts off the characters of the last match.
-/
import ImportAtlas.Text.Blank

namespace ImportAtlas.Text

/-- A pattern: what it finds at the front of a text, and the length of the match. -/
abbrev Pattern (α : Type) := List Char → Option (α × Nat)

/-- The occurrences of a pattern from here on. The first `skip` characters belong to a match already
found; with `lineStart` set, the text begins a line. -/
def scanLines {α : Type} (pat : Pattern α) : Nat → Bool → List Char → List α
  | _, _, [] => []
  | skip + 1, _, c :: cs => scanLines pat skip (c = '\n') cs
  | 0, true, c :: cs =>
    match pat (c :: cs) with
    | some (a, n) => a :: scanLines pat (n - 1) (c = '\n') cs
    | none => scanLines pat 0 (c = '\n') cs
  | 0, false, c :: cs => scanLines pat 0 (c = '\n') cs

/-- The occurrences of a pattern that begin at the start of a line. -/
def matchesAtLineStart {α : Type} (pat : Pattern α) (text : List Char) : List α :=
  scanLines pat 0 true text

/-- The occurrences of a pattern from here on, wherever they begin. -/
def scanAll {α : Type} (pat : Pattern α) : Nat → List Char → List α
  | _, [] => []
  | skip + 1, _ :: cs => scanAll pat skip cs
  | 0, c :: cs =>
    match pat (c :: cs) with
    | some (a, n) => a :: scanAll pat (n - 1) cs
    | none => scanAll pat 0 cs

/-- All occurrences of a pattern. -/
def matchesAnywhere {α : Type} (pat : Pattern α) (text : List Char) : List α := scanAll pat 0 text

/-! ## Parts of patterns -/

/-- What follows a given text, if that stands in front. -/
def after? : List Char → List Char → Option (List Char)
  | [], cs => some cs
  | _ :: _, [] => none
  | w :: ws, c :: cs => if w = c then after? ws cs else none

/-- What follows any number of blanks. -/
def skipBlanks (cs : List Char) : List Char := trimLeft cs

/-- What follows one or more blanks. -/
def skipBlanks1? : List Char → Option (List Char)
  | c :: cs => if isBlank c then some (skipBlanks cs) else none
  | [] => none

/-- The longest non-empty beginning of characters in a class, and what follows it. -/
def run1? (p : Char → Bool) (cs : List Char) : Option (List Char × List Char) :=
  match cs.takeWhile p with
  | [] => none
  | w => some (w, cs.dropWhile p)

end ImportAtlas.Text
