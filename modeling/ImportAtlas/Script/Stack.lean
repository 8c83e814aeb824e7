/-
# ImportAtlas.Script.Stack -- several readings at once

While a text is read, each reading keeps a stack of what it has read so far. Readings that began alike
share the lower part of their stacks, and readings that have come to the same state at the same offset
are joined: from there on they are one stack with several ways down. So the stacks form a graph of
numbered nodes, each with links to the nodes below it.

A link carries the piece of text that was read between the two nodes. Where two pieces between the
same nodes are alike, the heavier one is kept.
-/
import ImportAtlas.Script.States

namespace ImportAtlas.Script

/-! ## Pieces -/

/-- Nodes in order, joined in constant time. -/
inductive Forest where
  | empty
  | leaf (n : Node)
  | join (a b : Forest)
  deriving Inhabited

namespace Forest

/-- The nodes of a forest, in front of others. -/
def toListBefore : Forest → List Node → List Node
  | empty, rest => rest
  | leaf n, rest => n :: rest
  | join a b, rest => a.toListBefore (b.toListBefore rest)

/-- The nodes of a forest. -/
def toList (f : Forest) : List Node := f.toListBefore []

/-- Gives every node of a forest a role. -/
def play (role : Role) : Forest → Forest
  | empty => empty
  | leaf (.mk kind _ named text children) => leaf (.mk kind (some role) named text children)
  | join a b => join (a.play role) (b.play role)

end Forest

/-- A piece of text that was read as one symbol. -/
structure Piece where
  symbol : Nat
  start : Nat
  stop : Nat
  /-- The number of pieces it was put together from. -/
  parts : Nat
  weight : Int
  forest : Forest
  deriving Inhabited

namespace Piece

/-- Whether a piece is a comment, which can stand between any two others. -/
def isComment (p : Piece) : Bool := p.symbol = 1

/-- Whether two pieces cannot be told apart from outside. -/
def alike (p q : Piece) : Bool :=
  p.symbol = q.symbol && p.start = q.start && p.stop = q.stop && p.parts = q.parts

/-- The weight of several pieces. -/
def totalWeight (ps : List Piece) : Int := ps.foldl (fun w p => w + p.weight) 0

end Piece

/-! ## The graph -/

/-- A way down from a node: the node below, and what was read between the two. -/
structure Link where
  below : Nat
  piece : Piece
  deriving Inhabited

/-- A place where a reading stands: the state it is in, the offset it has come to, and the greatest
weight on a way down. -/
structure StackNode where
  state : Nat
  position : Nat
  weight : Int
  links : List Link
  deriving Inhabited

/-- The nodes of all stacks. -/
structure Stack where
  nodes : Array StackNode
  deriving Inhabited

namespace Stack

/-- The number of ways down that a node can have. -/
def linkLimit : Nat := 8

/-- The number of ways that are followed at a time. -/
def routeLimit : Nat := 64

/-- The node with a number. -/
def node (s : Stack) (n : Nat) : StackNode := s.nodes.getD n default

/-- The number of nodes, which is the number the next one gets. -/
def size (s : Stack) : Nat := s.nodes.size

/-- Puts a piece on top of a node. -/
def push (s : Stack) (below state : Nat) (piece : Piece) : Stack :=
  ⟨s.nodes.push
    ⟨state, piece.stop, (s.node below).weight + piece.weight, [⟨below, piece⟩]⟩⟩

/-- Puts several pieces on top of a node, all in one state, and says which node is the top then. -/
def pushAll (s : Stack) (state : Nat) : Nat → List Piece → Nat × Stack
  | below, [] => (below, s)
  | below, p :: ps =>
    let n := s.size
    pushAll (s.push below state p) state n ps

/-- Whether two readings have come to the same state at the same offset. -/
def agree (s : Stack) (m n : Nat) : Bool :=
  let x := s.node m
  let y := s.node n
  x.state = y.state && x.position = y.position

/-- Raises the weight of a node. -/
def raise (s : Stack) (n : Nat) (weight : Int) : Stack :=
  ⟨s.nodes.modify n fun x => if x.weight < weight then { x with weight } else x⟩

/-- Adds a way down to a node. If there is one with a piece alike, the nodes below are joined in its
place, and if they are the same node, the heavier piece is kept. The recursion goes down the stack. -/
def addLink : Nat → Stack → Nat → Link → Stack
  | 0, s, _, _ => s
  | depth + 1, s, n, link =>
    if link.below = n then s
    else
      let x := s.node n
      let fits (l : Link) : Bool :=
        l.piece.alike link.piece && (l.below = link.below || s.agree l.below link.below)
      let weight := (s.node link.below).weight + link.piece.weight
      match x.links.findIdx? fits with
      | some i =>
        let old := x.links.getD i default
        if old.below = link.below then
          if old.piece.weight < link.piece.weight then
            ⟨s.nodes.setIfInBounds n { x with weight, links := x.links.set i link }⟩
          else s
        else
          let s := (s.node link.below).links.foldl (fun s l => addLink depth s old.below l) s
          s.raise n weight
      | none =>
        if x.links.length < linkLimit then
          ⟨s.nodes.setIfInBounds n
            { x with weight := max x.weight weight, links := x.links ++ [link] }⟩
        else s

/-- Joins a reading into another that agrees with it. -/
def merge (s : Stack) (into other : Nat) : Stack :=
  (s.node other).links.foldl (fun s l => addLink (s.size + 1) s into l) s

/-! ## Ways down -/

/-- A way down from the top of a stack: the node it has come to, the pieces passed in the order of the
text, and how many of them are no comments. -/
structure Route where
  node : Nat
  pieces : List Piece
  count : Nat
  deriving Inhabited

/-- A way down, one link further. -/
def Route.extend (r : Route) (l : Link) : Route :=
  ⟨l.below, l.piece :: r.pieces, if l.piece.isComment then r.count else r.count + 1⟩

/-- The ways down past `count` pieces, comments not counted. At each fork the first way is followed in
its place and the others are put at the end. -/
def routes (s : Stack) (count : Nat) : Nat → List Route → List Route → List Route
  | 0, _, done => done
  | _ + 1, [], done => done
  | depth + 1, r :: rs, done =>
    let active := r :: rs
    let arrived := active.filter fun r => r.count = count
    let onward := active.filter fun r => r.count ≠ count
    let straight := onward.filterMap fun r => ((s.node r.node).links.head?).map r.extend
    let forks := onward.flatMap fun r => (s.node r.node).links.tail.map r.extend
    routes s count depth ((straight ++ forks).take routeLimit) (done ++ arrived)

/-- The ways down from a node past `count` pieces. -/
def routesFrom (s : Stack) (n count : Nat) : List Route :=
  s.routes count (s.size + 1) [⟨n, [], 0⟩] []

/-- Ways down that lead to the same node, put together in the order in which the nodes come up. -/
def groupRoutes (rs : List Route) : List (Nat × List (List Piece)) :=
  rs.foldl (fun groups r =>
    if groups.any (·.1 = r.node) then
      groups.map fun (n, ways) => if n = r.node then (n, ways ++ [r.pieces]) else (n, ways)
    else groups ++ [(r.node, [r.pieces])]) []

end Stack

end ImportAtlas.Script
