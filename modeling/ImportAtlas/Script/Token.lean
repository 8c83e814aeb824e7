/-
# ImportAtlas.Script.Token -- the terminals of the script grammar

What a stretch of text is depends on where it stands: `/` opens a regular expression where an operand
may start and divides behind one, `>>` is one operator in an expression and two closing brackets in a
type, and most words are keywords only where the grammar has a use for them. So a text has no token
list of its own; a `Token` is what the grammar asks for, and reading one needs to know what is asked
for at that point.
-/
import ImportAtlas.Script.Node

namespace ImportAtlas.Script

/-- A terminal of the grammar. -/
inductive Token where
  /-- The end of the text. -/
  | finish
  /-- A comment, which may stand between any two tokens. -/
  | comment
  /-- A word that is no keyword where it stands. -/
  | name
  /-- A text in single or double quotes. -/
  | text
  | number
  /-- A name that starts with a number sign. -/
  | privateName
  /-- A place where a semicolon may be left out; it takes no characters. -/
  | lineEnd
  /-- A place where the semicolon behind a signature without a body may be left out. -/
  | signatureEnd
  /-- The question mark of a conditional expression. -/
  | question
  /-- The characters of a template up to an escape, a substitution or its end. -/
  | templateText
  /-- An escape in a template. -/
  | escape
  /-- The inside of a regular expression. -/
  | patternBody
  /-- The slash that closes a regular expression. -/
  | patternEnd
  /-- The letters directly behind a regular expression. -/
  | patternFlags
  /-- Text between two tags. -/
  | markupText
  /-- A name with a hyphen in it, of a tag or an attribute. -/
  | markupName
  /-- The first line of a script that says what runs it. -/
  | interpreterLine
  /-- A keyword. -/
  | word (w : String)
  /-- An operator or another sign. -/
  | sign (s : String)
  deriving DecidableEq, Repr, Inhabited, Hashable

namespace Token

/-- The keyword or sign that is written as the given text. -/
def ofText (t : String) : Token :=
  match t.toList with
  | c :: _ => if c.isAlpha then .word t else .sign t
  | [] => .sign t

/-- What kind of node a token leaves in the tree; none for tokens that leave nothing. -/
def kind? : Token → Option Kind
  | comment => some .comment
  | text => some .string
  | finish | lineEnd | signatureEnd | templateText => none
  | _ => some .other

/-- Signs are punctuation; all other tokens are named nodes. -/
def isNamed : Token → Bool
  | sign _ => false
  | _ => true

end Token

end ImportAtlas.Script
