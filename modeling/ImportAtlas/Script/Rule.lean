/-
# ImportAtlas.Script.Rule -- grammars as data

A grammar gives every phrase a `Rule`. Rules are built from tokens and phrases by sequence, choice and
repetition. Where two readings compete, three kinds of mark settle it:

* a *level* on a rule says how strongly it binds; levels are compared by the ladders of the grammar,
  and a *side* says which of two readings of one level wins;
* a *weight* is added up over a whole reading, and of two complete readings the heavier is kept;
* where neither decides, both readings go on side by side until the text rules one out.
-/
import ImportAtlas.Script.Phrase
import ImportAtlas.Script.Token

namespace ImportAtlas.Script

/-- A named level of binding. -/
inductive Rank where
  | member
  | call
  | construct
  | unaryWord
  | power
  | times
  | plus
  | shift
  | relation
  | equality
  | bitAnd
  | bitXor
  | bitOr
  | logicalAnd
  | logicalOr
  | ternary
  | assign
  | declare
  | literal
  | object
  | instantiation
  | unary
  | binary
  | extend
  deriving DecidableEq, Repr, Inhabited, Hashable

/-- How strongly a rule binds: not said, a number, or a named level. -/
inductive Level where
  | unsaid
  | number (n : Int)
  | rank (r : Rank)
  deriving DecidableEq, Repr, Inhabited, Hashable

/-- Which of two readings of one level wins: the one that ends first, or the one that goes on. -/
inductive Side where
  | left
  | right
  deriving DecidableEq, Repr, Inhabited, Hashable

/-- How a stretch of text is made up. -/
inductive Rule where
  | token (t : Token)
  | phrase (p : Phrase)
  /-- One after the other. -/
  | seq (rules : List Rule)
  /-- Any of them. -/
  | choice (rules : List Rule)
  /-- Once or more often. -/
  | repeated (rule : Rule)
  /-- Binds at a level. -/
  | bind (level : Level) (side : Option Side) (rule : Rule)
  /-- Counts with a weight. -/
  | weigh (weight : Int) (rule : Rule)
  /-- Plays a role in the phrase around it. -/
  | play (role : Role) (rule : Rule)
  deriving Inhabited

namespace Rule

instance : Coe Phrase Rule := ⟨.phrase⟩

instance : Coe Token Rule := ⟨.token⟩

instance : Coe String Rule := ⟨fun t => .token (.ofText t)⟩

/-- The given rules one after the other, or nothing. -/
def opt (rules : List Rule) : Rule := .choice [.seq rules, .seq []]

/-- Any number of times. -/
def many (rule : Rule) : Rule := opt [.repeated rule]

/-- Once or more often, with a divider between two. -/
def divided (divider rule : Rule) : Rule := .seq [rule, many (.seq [divider, rule])]

/-- Once or more often, with a comma between two. -/
def commas (rule : Rule) : Rule := divided "," rule

/-- One of several keywords or signs. -/
def oneOf (texts : List String) : Rule := .choice (texts.map fun t => .token (.ofText t))

/-- A rule of a named level. -/
def ranked (rank : Rank) (rules : List Rule) : Rule := .bind (.rank rank) none (.seq rules)

/-- A rule of a named level; of two readings the shorter wins. -/
def leftRanked (rank : Rank) (rules : List Rule) : Rule := .bind (.rank rank) (some .left) (.seq rules)

/-- A rule of a named level; of two readings the longer wins. -/
def rightRanked (rank : Rank) (rules : List Rule) : Rule := .bind (.rank rank) (some .right) (.seq rules)

/-- A rule of which the shorter of two readings wins. -/
def left (rules : List Rule) : Rule := .bind (.number 0) (some .left) (.seq rules)

/-- A rule of which the longer of two readings wins. -/
def right (rules : List Rule) : Rule := .bind (.number 0) (some .right) (.seq rules)

/-- The opening brace. -/
def openBrace : Rule := "\x7b"

/-- The closing brace. -/
def closeBrace : Rule := "\x7d"

/-- In braces. -/
def braced (rules : List Rule) : Rule := .seq [openBrace, .seq rules, closeBrace]

/-- In parentheses. -/
def parenthesized (rules : List Rule) : Rule := .seq ["(", .seq rules, ")"]

/-- In square brackets. -/
def bracketed (rules : List Rule) : Rule := .seq ["[", .seq rules, "]"]

end Rule

/-- A part of a grammar: phrases with their rules. -/
abbrev Rules := List (Phrase × Rule)

end ImportAtlas.Script
