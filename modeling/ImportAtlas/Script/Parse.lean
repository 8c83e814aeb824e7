/-
# ImportAtlas.Script.Parse -- reading a whole text

Reading goes in small steps. Each step advances one of the current readings: it reads the next token,
or it ends productions, which can split a reading in several, or it takes the token. A reading that can
do nothing with the next token is given up. When every reading has come as far as the furthest, they
are compared: those that agree are joined, heavier ones come first, and only the first few are kept.

The text is well formed if some reading comes to its end.
-/
import ImportAtlas.Script.Lexer
import ImportAtlas.Script.Stack

namespace ImportAtlas.Script

/-- A grammar made ready for reading, with its tokens by what they look like. -/
structure Language where
  automaton : Automaton
  vocabulary : Vocabulary
  deriving Inhabited

namespace Language

/-- Makes a grammar ready for reading. -/
def ofGrammar (g : Grammar) : Language :=
  let automaton := Automaton.ofGrammar g
  ⟨automaton, .ofAutomaton automaton⟩

end Language

namespace Piece

/-- The piece of a token. -/
def ofLexeme (a : Automaton) (s : Source) (l : Lexeme) : Piece :=
  let forest :=
    match a.token? l.token with
    | none => .empty
    | some t =>
      match t.kind? with
      | none => .empty
      | some kind => .leaf (.mk kind none t.isNamed (s.slice l.start l.stop) [])
  ⟨l.token, l.start, l.stop, 0, 0, forest⟩

/-- The nodes of some pieces, each with the role of its step; comments have no step. -/
def forestOf : List (Option Role) → List Piece → Forest
  | _, [] => .empty
  | roles, p :: ps =>
    if p.isComment then .join p.forest (forestOf roles ps)
    else
      let f := match roles.head? with
        | some (some role) => p.forest.play role
        | _ => p.forest
      if ps.isEmpty then f else .join f (forestOf roles.tail ps)

/-- The piece that a production makes of others. -/
def ofReduction (a : Automaton) (r : Reduction) (ps : List Piece) : Piece :=
  let inner := forestOf r.roles ps
  let forest :=
    match (a.phrase? r.head).bind Phrase.kind? with
    | some kind => .leaf (.mk kind none true [] inner.toList)
    | none => inner
  { symbol := r.head
    start := (ps.head?.map (·.start)).getD 0
    stop := (ps.getLast?.map (·.stop)).getD 0
    parts := ps.length
    weight := totalWeight ps + r.weight
    forest }

/-- Splits off the comments at the end. -/
def splitComments (ps : List Piece) : List Piece × List Piece :=
  let comments := ps.reverse.takeWhile isComment
  (ps.take (ps.length - comments.length), comments.reverse)

/-- The pieces of the heaviest way, the first of several. -/
def heaviest : List (List Piece) → List Piece
  | [] => []
  | ways@(first :: _) =>
    ways.foldl (fun best way =>
      if totalWeight (splitComments best).1 < totalWeight (splitComments way).1 then way
      else best) first

end Piece

/-- A text in the course of being read. -/
structure Machine where
  states : States
  stack : Stack
  /-- The tops of the stacks of the readings; none for a reading that was given up. -/
  readings : Array (Option Nat)
  /-- The reading to advance next. -/
  current : Nat
  /-- The token that the current reading has before it, once it was looked for. -/
  token : Option Lexeme
  /-- The furthest offset that a reading has come to. -/
  frontier : Nat
  /-- The heaviest complete reading so far. -/
  result : Option Piece
  deriving Inhabited

namespace Machine

/-- The number of readings that are kept when all have come equally far. -/
def readingLimit : Nat := 6

/-- The number of readings that may be open in between. -/
def openLimit : Nat := 10

/-- Before anything is read. -/
def initial (lang : Language) : Machine where
  states := .initial lang.automaton
  stack := ⟨#[⟨0, 0, 0, []⟩]⟩
  readings := #[some 0]
  current := 0
  token := none
  frontier := 0
  result := none

/-- The top of the stack of a reading. -/
def top? (m : Machine) (i : Nat) : Option Nat := (m.readings.getD i none)

/-- Gives up the current reading and goes to the next. -/
def giveUp (m : Machine) : Machine :=
  { m with
    readings := m.readings.setIfInBounds m.current none
    current := m.current + 1
    token := none }

/-- Looks up the state behind a symbol. -/
def goto (m : Machine) (a : Automaton) (state symbol : Nat) : Option Nat × Machine :=
  match m with
  | { states, stack, readings, current, token, frontier, result } =>
    let (next, states) := states.next a state symbol
    (next, { states, stack, readings, current, token, frontier, result })

/-- Looks up what can be done in a state at a token. -/
def choicesAt (m : Machine) (a : Automaton) (state token : Nat) : Choices × Machine :=
  match m with
  | { states, stack, readings, current, token := seen, frontier, result } =>
    let (choices, states) := states.choicesIn a state token
    (choices, { states, stack, readings, current, token := seen, frontier, result })

/-- Puts pieces on top of a node, and says which node is the top then. -/
def pushAll (m : Machine) (below state : Nat) (pieces : List Piece) : Nat × Machine :=
  match m with
  | { states, stack, readings, current, token, frontier, result } =>
    let (top, stack) := stack.pushAll state below pieces
    (top, { states, stack, readings, current, token, frontier, result })

/-- Puts a piece on the stack of the current reading, and goes to the next reading if this one has
come far enough. -/
def take (m : Machine) (top state : Nat) (piece : Piece) : Machine :=
  let n := m.stack.size
  let m := { m with
    stack := m.stack.push top state piece
    readings := m.readings.setIfInBounds m.current (some n)
    token := none }
  if m.frontier < piece.stop || (0 < m.current && piece.stop = m.frontier) then
    { m with frontier := piece.stop, current := m.current + 1 }
  else m

/-- Adds a reading, or joins it into an earlier one that agrees with it and is not the one it comes
from. -/
def addReading (m : Machine) (source top : Nat) : Machine :=
  let twin := (List.range m.readings.size).findSome? fun j =>
    if j = source then none
    else (m.top? j).filter fun n => m.stack.agree n top
  match twin with
  | some n => { m with stack := m.stack.merge n top }
  | none => { m with readings := m.readings.push (some top) }

/-- Ends a production on top of a node that some ways down have led to. -/
def reduceTo (lang : Language) (source : Nat) (r : Reduction) (m : Machine)
    (base : Nat) (ways : List (List Piece)) : Machine :=
  if openLimit < m.readings.size then m
  else
    let (inner, comments) := Piece.splitComments (Piece.heaviest ways)
    let piece := Piece.ofReduction lang.automaton r inner
    let below := (m.stack.node base).state
    let (next, m) := m.goto lang.automaton below r.head
    match next with
    | none => m
    | some state =>
      let (top, m) := m.pushAll base state (piece :: comments)
      m.addReading source top

/-- Ends a production in every way the stack of the current reading allows. The result says which is
the first reading this leaves, if any. -/
def reduce (lang : Language) (m : Machine) (top : Nat) (r : Reduction) : Machine × Option Nat :=
  let before := m.readings.size
  let groups := Stack.groupRoutes (m.stack.routesFrom top r.count)
  let m := groups.foldl (fun m (base, ways) => reduceTo lang m.current r m base ways) m
  (m, if before < m.readings.size then some before else none)

/-- Ends several productions, and says which is the first reading that the last of them to leave one
has left. -/
def reduceAll (lang : Language) (m : Machine) (top : Nat) (rs : List Reduction) :
    Machine × Option Nat :=
  rs.foldl (fun (m, last) r =>
    let (m, new) := m.reduce lang top r
    (m, new <|> last)) (m, none)

/-- Keeps a complete reading if it is the first or heavier than the one before. -/
def complete (m : Machine) (piece : Piece) : Machine :=
  match m.result with
  | none => { m with result := some piece }
  | some old => if old.weight < piece.weight then { m with result := some piece } else m

/-- The pieces on top of a stack, below comments. -/
def topPieces (s : Stack) : Nat → Nat → List Piece
  | 0, _ => []
  | depth + 1, n =>
    match (s.node n).links with
    | [] => []
    | links@(l :: _) => if l.piece.isComment then topPieces s depth l.below else links.map (·.piece)

/-- A keyword that is of no use is read as a name where a name is expected; otherwise the current
reading is given up. -/
def retry (m : Machine) (state : Nat) (l : Lexeme) : Machine :=
  if l.keyword && (m.states.expectedIn state).has Vocabulary.name then
    { m with token := some { l with token := Vocabulary.name, keyword := false } }
  else m.giveUp

/-- Does with a token what the state of the current reading allows. -/
def act (lang : Language) (s : Source) (m : Machine) (top : Nat) (l : Lexeme) : Machine :=
  let a := lang.automaton
  let state := (m.stack.node top).state
  if state = 0 && l.token = Vocabulary.finish then
    (m.complete ⟨a.goal, 0, 0, 0, 0, .leaf (.mk .other none true [] [])⟩).giveUp
  else
    let (choices, m) := m.choicesAt a state l.token
    if choices.reductions.any (·.head = a.goal) then
      ((topPieces m.stack (m.stack.size + 1) top).foldl complete m).giveUp
    else
      let (m, last) := m.reduceAll lang top choices.reductions
      if choices.shifts then
        let (next, m) := m.goto a state l.token
        match next with
        | some state => m.take top state (Piece.ofLexeme a s l)
        | none => m.giveUp
      else
        match last with
        | some i =>
          { m with
            readings := (m.readings.setIfInBounds m.current (m.top? i)).eraseIdxIfInBounds i }
        | none => m.retry state l

/-- Puts a reading among those already compared. `weight` is that of the reading it was when the
comparison began. -/
def place (s : Stack) (weight : Int) : List Nat → Nat → List Nat × Stack
  | [], n => ([n], s)
  | x :: xs, n =>
    if s.agree x n then (x :: xs, s.merge x n)
    else if (s.node x).weight < weight then
      let (rest, s) := place s weight xs x
      (n :: rest, s)
    else
      let (rest, s) := place s weight xs n
      (x :: rest, s)

/-- Compares all readings once each has come as far as the furthest. -/
def condense : Machine → Machine
  | { states, stack, readings, frontier, result, .. } =>
    let (kept, stack) := (readings.toList.filterMap id).foldl
      (fun (kept, stack) n => place stack (Stack.node stack n).weight kept n) ([], stack)
    { states
      stack
      readings := ((kept.take readingLimit).map some).toArray
      current := 0
      token := none
      frontier
      result }

/-- One step of reading. -/
def step (lang : Language) (s : Source) (m : Machine) : Machine :=
  if m.readings.size ≤ m.current then m.condense
  else
    match m.top? m.current with
    | none => { m with current := m.current + 1, token := none }
    | some top =>
      match m.token with
      | some l => m.act lang s top l
      | none =>
        let node := m.stack.node top
        match lang.vocabulary.next? (m.states.expectedIn node.state) s node.position with
        | none => m.giveUp
        | some l =>
          if l.token = Vocabulary.comment then
            m.take top node.state (Piece.ofLexeme lang.automaton s l)
          else { m with token := some l }

/-- Steps until no reading is left. -/
def run (lang : Language) (s : Source) : Nat → Machine → Machine
  | 0, m => m
  | fuel + 1, m => if m.readings.isEmpty then m else run lang s fuel (m.step lang s)

/-- More steps than reading a text of the given size takes: at every offset each of the open readings
ends no more productions than there are phrases around it. -/
def stepsFor (size : Nat) : Nat := 4000 * (size + 2)

end Machine

/-- The tree of a text; none if it is not well formed. -/
def parse? (lang : Language) (text : List Char) : Option Node :=
  let s := Source.ofText text
  let m := (Machine.initial lang).run lang s (Machine.stepsFor s.size)
  match m.result with
  | some piece => piece.forest.toList.head?
  | none => none

end ImportAtlas.Script
