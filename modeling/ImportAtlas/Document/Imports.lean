/-
# ImportAtlas.Document.Imports -- fragments and files that a GraphQL document refers to

A spread names a fragment, which is looked for in a file of its name. A comment can name a file in
quotes. Spreads come first, then comments, each in document order. An inline fragment is no spread.
-/
import ImportAtlas.Path
import ImportAtlas.Text.Scan
import ImportAtlas.Text.Word

namespace ImportAtlas.Document

open Text

/-- Whether a character is a quote. -/
def isQuote (c : Char) : Bool := c = '"' || c = '\''

/-- What follows a quote. -/
def skipQuote? : List Char → Option (List Char)
  | c :: cs => if isQuote c then some cs else none
  | [] => none

/-- The name behind three dots. -/
def spreadPattern : Pattern Path := fun cs => do
  let (name, rest) ← run1? isWordChar (skipBlanks (← after? "...".toList cs))
  return (name, cs.length - rest.length)

/-- The path in an import comment. -/
def commentPattern : Pattern Path := fun cs => do
  let rest ← after? "import".toList (skipBlanks (← after? ['#'] cs))
  let (path, rest) ← run1? (fun c => !isQuote c) (← skipQuote? (← skipBlanks1? rest))
  let rest ← skipQuote? rest
  return (path, cs.length - rest.length)

/-- The word that opens an inline fragment. -/
def inlineKeyword : Path := "on".toList

/-- The fragments that a text spreads. -/
def spreads (text : List Char) : List Path :=
  (matchesAnywhere spreadPattern text).filter (· ≠ inlineKeyword)

/-- The files that comments of a text name. -/
def commentImports (text : List Char) : List Path := matchesAnywhere commentPattern text

/-- What a text refers to. -/
def imports (text : List Char) : List Path := spreads text ++ commentImports text

end ImportAtlas.Document
