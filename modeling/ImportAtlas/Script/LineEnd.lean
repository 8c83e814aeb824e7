/-
# ImportAtlas.Script.LineEnd -- semicolons left out, and question marks

A statement may end without a semicolon at the end of the text, before a closing brace, or at a line
break behind which nothing continues it. What continues it depends on what the grammar expects: a
bracket does so only behind an expression, and a brace only behind the head of a function.

The question mark of a conditional expression is told from the one that marks something optional by
what follows it.
-/
import ImportAtlas.Script.Lexeme
import ImportAtlas.Text.Word

namespace ImportAtlas.Script

/-- What the grammar expects where a statement may end. -/
structure EndContext where
  /-- An operator could follow, so an expression has just been read. -/
  operator : Bool
  /-- The body of a function could follow. -/
  body : Bool
  deriving DecidableEq, Repr, Inhabited

/-- The outcome of a search for the end of a statement: whether it may end here, how far the search
went, and whether it passed a comment. -/
structure EndSearch where
  ends : Bool
  stop : Nat
  comment : Bool
  deriving DecidableEq, Repr, Inhabited

/-- Whether a character is a letter, so that a word before it goes on. -/
def isLetter (c : Char) : Bool :=
  if c.toNat < 0x80 then c.isAlpha else Text.isWordChar c

namespace Source

/-- Passes blanks and comments. The result says where it stopped, whether a comment was passed, and
whether what stands there can be the beginning of something else than a comment. -/
def passComments (s : Source) : Nat → Bool → Nat → Nat × Bool × Bool
  | 0, comment, p => (p, comment, true)
  | fuel + 1, comment, p =>
    let p := s.skipWhile isLineBlank p
    if s.has p '/' then
      if s.has (p + 1) '/' then passComments s fuel true (s.lineStop (p + 2))
      else if s.has (p + 1) '*' then
        match s.blockStop? (s.size - p) (p + 2) with
        | some q => passComments s fuel true q
        | none => passComments s fuel comment (s.skipWhile (· ≠ '\x00') p)
      else (p + 1, comment, false)
    else (p, comment, true)

/-- Whether a new line that starts at `p` leaves the statement before it ended. -/
def lineEnds (s : Source) (context : EndContext) (comment : Bool) (p : Nat) : EndSearch :=
  match s.get? p with
  | none => ⟨true, p, comment⟩
  | some c =>
    if c = '\x00' then ⟨true, p, comment⟩
    else if ",.;*%><=?^|&/".toList.contains c then ⟨false, p, comment⟩
    else if c = '\x7b' then ⟨!context.body, p, comment⟩
    else if c = '(' || c = '[' then ⟨!context.operator, p, comment⟩
    else if c = '+' || c = '-' then ⟨s.has (p + 1) c, p + 1, comment⟩
    else if c = '!' then ⟨!s.has (p + 1) '=', p + 1, comment⟩
    else if s.hasAll p ['i', 'n'] && !s.test (p + 2) isLetter then ⟨false, p + 2, comment⟩
    else if s.hasAll p "instanceof".toList && !s.test (p + 10) isLetter then
      ⟨false, p + 10, comment⟩
    else ⟨true, p, comment⟩

/-- Searches from `p` for the end of a statement. -/
def statementEnd (s : Source) (context : EndContext) (p : Nat) : EndSearch :=
  let q := s.skipWhile (fun c => isLineBlank c && c ≠ '\n') p
  match s.get? q with
  | none => ⟨true, q, false⟩
  | some c =>
    if c = '\x00' then ⟨true, q, false⟩
    else if c = '\x7d' then
      let r := s.skipWhile isLineBlank (q + 1)
      ⟨!s.has r ':' || context.operator, r, false⟩
    else if c = '\n' then
      let (r, comment, other) := s.passComments (s.size + 1) false (q + 1)
      if other then s.lineEnds context comment r else ⟨false, r, comment⟩
    else ⟨false, q, false⟩

/-- The place of the question mark of a conditional expression, from `p` on. -/
def question? (s : Source) (p : Nat) : Option Nat :=
  let q := s.skipWhile isLineBlank p
  if s.has q '?' && !s.has (q + 1) '?' then
    let r := s.skipWhile isLineBlank (q + 1)
    if s.has r ':' || s.has r ')' || s.has r ',' then none
    else if s.has r '.' && !s.test (r + 1) Char.isDigit then none
    else some q
  else none

end Source

end ImportAtlas.Script
