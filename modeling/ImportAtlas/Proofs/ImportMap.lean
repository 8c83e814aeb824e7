/-
# ImportAtlas.Proofs.ImportMap -- the walk by plain recursion

All that a walk asks of its surroundings are three functions on paths: which paths can be nodes, which
paths each of them imports, and under which id each stands in the graph. An `ImportMap` holds them, and
nothing about texts, candidates or remembered crate roots.

`walk` takes up a path the way one would write it down: a path seen before is left alone; otherwise it
is marked, made a node if it can be one, and for each import in turn an edge is noted and the imported
path is walked before the next import is looked at. No frames, no stack. The recursion ends because
each node uses up one of the finitely many paths that can be one.

In the middle of a walk some callers still owe edges for the rest of their imports. `Agenda` lists what
is owed, `Step` says once what the walk can do next, and every walk is a chain of such steps: what one
step keeps, the whole walk keeps.
-/
import Mathlib.Logic.Relation
import ImportAtlas.Build

namespace ImportAtlas

/-! ## Import maps -/

/-- Which paths can be nodes, what each imports and under which id each stands. -/
structure ImportMap where
  isNode : Path → Bool
  targets : Path → List Path
  id : Path → Path
  isNode_target : ∀ p, ∀ t ∈ targets p, isNode t = true
  finite_isNode : FinitelyMany isNode

/-- The nodes and edges found so far, and the paths taken up. -/
structure Chart extends Graph where
  visited : Visited := {}

namespace Chart

/-- Notes that a path was taken up. -/
def mark (s : Chart) (p : Path) (hp : p ∉ s.visited.paths) : Chart :=
  { s with visited := s.visited.insert p hp }

/-- Adds a node, unless its id is there. -/
def addNode (s : Chart) (n : FileNode) : Chart :=
  if n.id ∈ s.nodeIds then s else { s with nodes := s.nodes ++ [n] }

/-- Adds an edge. -/
def addEdge (s : Chart) (e : Edge) : Chart := { s with edges := s.edges ++ [e] }

@[simp] theorem visited_addNode (s : Chart) (n : FileNode) : (s.addNode n).visited = s.visited := by
  unfold addNode
  split <;> rfl

@[simp] theorem edges_addNode (s : Chart) (n : FileNode) : (s.addNode n).edges = s.edges := by
  unfold addNode
  split <;> rfl

@[simp] theorem visited_addEdge (s : Chart) (e : Edge) : (s.addEdge e).visited = s.visited := rfl

@[simp] theorem edges_addEdge (s : Chart) (e : Edge) : (s.addEdge e).edges = s.edges ++ [e] := rfl

@[simp] theorem paths_mark (s : Chart) (p : Path) (hp : p ∉ s.visited.paths) :
    (s.mark p hp).visited.paths = p :: s.visited.paths := rfl

end Chart

namespace ImportMap

variable (m : ImportMap) (seeds : List Path)

/-- The node of a path. It is changed if the path is a seed. -/
def node (p : Path) : FileNode :=
  { id := m.id p, label := Path.name p, path := p, isChanged := decide (p ∈ seeds) }

/-- The edge of an import, given by the id of the file it stands in and the path it means. -/
def edge (i : Path × Path) : Edge := { source := i.1, target := m.id i.2 }

/-- The imports that stand in a file. -/
def importsOf (p : Path) : List (Path × Path) := (m.targets p).map fun t => (m.id p, t)

/-- The edges that a file contributes, one for each of its imports. -/
def edgesFrom (p : Path) : List Edge :=
  (m.targets p).map fun t => { source := m.id p, target := m.id t }

theorem map_edge_importsOf (p : Path) : (m.importsOf p).map m.edge = m.edgesFrom p := by
  rw [importsOf, List.map_map]
  rfl

/-- How many more nodes a chart can get. -/
noncomputable def room (s : Chart) : Nat := s.visited.room m.finite_isNode

/-- Takes up a path as a node. -/
def discover (p : Path) (s : Chart) (hp : p ∉ s.visited.paths) : Chart :=
  (s.mark p hp).addNode (m.node seeds p)

@[simp] theorem paths_discover {p : Path} {s : Chart} (hp : p ∉ s.visited.paths) :
    (m.discover seeds p s hp).visited.paths = p :: s.visited.paths := by
  rw [discover, Chart.visited_addNode, Chart.paths_mark]

theorem room_discover_lt {p : Path} {s : Chart} (hp : p ∉ s.visited.paths)
    (hn : m.isNode p = true) : m.room (m.discover seeds p s hp) < m.room s := by
  unfold room discover
  rw [Chart.visited_addNode]
  exact s.visited.room_insert_lt m.finite_isNode p hp hn

/-! ## The walk -/

mutual

/-- Takes up a path and everything below it. That no room is gained is part of the result: the caller
goes on with what is left. -/
def walkWithin (p : Path) (s : Chart) : { s' : Chart // m.room s' ≤ m.room s } :=
  if hp : p ∈ s.visited.paths then ⟨s, Nat.le_refl _⟩
  else if hn : m.isNode p = true then
    have hlt := m.room_discover_lt seeds hp hn
    let below := walkAllWithin (m.id p) (m.targets p) (m.discover seeds p s hp)
    ⟨below.1, Nat.le_trans below.2 (Nat.le_of_lt hlt)⟩
  else ⟨s.mark p hp, s.visited.room_insert_le m.finite_isNode p hp⟩
termination_by (m.room s, 0)

/-- Notes an edge for each of some imports, and takes up the imported path before the next. -/
def walkAllWithin (id : Path) (ts : List Path) (s : Chart) :
    { s' : Chart // m.room s' ≤ m.room s } :=
  match ts with
  | [] => ⟨s, Nat.le_refl _⟩
  | t :: ts =>
    let first := walkWithin t (s.addEdge (m.edge (id, t)))
    let rest := walkAllWithin id ts first.1
    ⟨rest.1, Nat.le_trans rest.2 first.2⟩
termination_by (m.room s, ts.length + 1)
decreasing_by
  · exact Prod.Lex.right _ (Nat.succ_pos _)
  · rcases Nat.lt_or_eq_of_le first.2 with hlt | heq
    · exact Prod.Lex.left _ _ hlt
    · rw [heq]
      exact Prod.Lex.right _ (Nat.lt_succ_self _)

end

/-- Takes up a path and everything below it. -/
def walk (p : Path) (s : Chart) : Chart := (m.walkWithin seeds p s).1

/-- Goes through the imports of the file with a given id. -/
def walkAll (id : Path) (ts : List Path) (s : Chart) : Chart := (m.walkAllWithin seeds id ts s).1

/-- Walks from each seed in turn, from nothing. -/
def walkSeeds : Chart := seeds.foldl (fun s p => m.walk seeds p s) {}

variable {m seeds}

@[simp] theorem walkAll_nil (id : Path) (s : Chart) : m.walkAll seeds id [] s = s := by
  rw [walkAll, walkAllWithin]

@[simp] theorem walkAll_cons (id t : Path) (ts : List Path) (s : Chart) :
    m.walkAll seeds id (t :: ts) s =
      m.walkAll seeds id ts (m.walk seeds t (s.addEdge (m.edge (id, t)))) := by
  rw [walkAll, walkAllWithin]
  rfl

theorem walkAll_eq_foldl (id : Path) (ts : List Path) (s : Chart) :
    m.walkAll seeds id ts s =
      ts.foldl (fun s t => m.walk seeds t (s.addEdge (m.edge (id, t)))) s := by
  induction ts generalizing s with
  | nil => exact walkAll_nil id s
  | cons t ts ih => rw [walkAll_cons, ih, List.foldl_cons]

/-- The whole recursion in one equation. -/
theorem walk_eq (p : Path) (s : Chart) :
    m.walk seeds p s =
      if hp : p ∈ s.visited.paths then s
      else if m.isNode p then
        (m.targets p).foldl (fun s t => m.walk seeds t (s.addEdge (m.edge (m.id p, t))))
          ((s.mark p hp).addNode (m.node seeds p))
      else s.mark p hp := by
  rw [walk, walkWithin]
  split
  · rfl
  · split
    · exact walkAll_eq_foldl _ _ _
    · rfl

theorem walk_of_mem {p : Path} {s : Chart} (hp : p ∈ s.visited.paths) :
    m.walk seeds p s = s := by
  rw [walk_eq, dif_pos hp]

theorem walk_of_not_isNode {p : Path} {s : Chart} (hp : p ∉ s.visited.paths)
    (hn : ¬ m.isNode p = true) : m.walk seeds p s = s.mark p hp := by
  rw [walk_eq, dif_neg hp, if_neg hn]

theorem walk_of_isNode {p : Path} {s : Chart} (hp : p ∉ s.visited.paths)
    (hn : m.isNode p = true) :
    m.walk seeds p s = m.walkAll seeds (m.id p) (m.targets p) (m.discover seeds p s hp) := by
  rw [walk_eq, dif_neg hp, if_pos hn, walkAll_eq_foldl, discover]

/-! ## Steps of a walk -/

/-- A walk at some moment: the path it is about to take up, the imports whose edges are owed, innermost
file first, and what was found. -/
structure Agenda where
  due : Option Path := none
  owed : List (Path × Path) := []
  chart : Chart := {}

/-- What a walk can do next. -/
inductive Step (m : ImportMap) (seeds : List Path) : Agenda → Agenda → Prop
  /-- The next seed is taken up when nothing is owed. -/
  | seed {p : Path} {s : Chart} : p ∈ seeds → Step m seeds ⟨none, [], s⟩ ⟨some p, [], s⟩
  /-- The next owed edge is noted before the imported path is taken up. -/
  | follow {id t : Path} {w : List (Path × Path)} {s : Chart} :
      Step m seeds ⟨none, (id, t) :: w, s⟩ ⟨some t, w, s.addEdge (m.edge (id, t))⟩
  | known {p : Path} {w : List (Path × Path)} {s : Chart} :
      p ∈ s.visited.paths → Step m seeds ⟨some p, w, s⟩ ⟨none, w, s⟩
  | blind {p : Path} {w : List (Path × Path)} {s : Chart} (hp : p ∉ s.visited.paths) :
      ¬ m.isNode p = true → Step m seeds ⟨some p, w, s⟩ ⟨none, w, s.mark p hp⟩
  | fresh {p : Path} {w : List (Path × Path)} {s : Chart} (hp : p ∉ s.visited.paths) :
      m.isNode p = true →
      Step m seeds ⟨some p, w, s⟩ ⟨none, m.importsOf p ++ w, m.discover seeds p s hp⟩

/-- Zero or more steps. -/
abbrev Steps (m : ImportMap) (seeds : List Path) : Agenda → Agenda → Prop :=
  Relation.ReflTransGen (m.Step seeds)

/-- Both halves of the recursion are chains of steps, whatever callers further out still owe. -/
theorem steps_walk_and_walkAll :
    (∀ (p : Path) (s : Chart), ∀ w, m.Steps seeds ⟨some p, w, s⟩ ⟨none, w, m.walk seeds p s⟩) ∧
      ∀ (id : Path) (ts : List Path) (s : Chart), ∀ w,
        m.Steps seeds ⟨none, ts.map (fun t => (id, t)) ++ w, s⟩ ⟨none, w, m.walkAll seeds id ts s⟩ := by
  refine walkWithin.mutual_induct m seeds _ _ ?known ?fresh ?blind ?nil ?cons
  case known =>
    intro p s hp w
    rw [walk_of_mem hp]
    exact .single (.known hp)
  case fresh =>
    intro p s hp hn _ ih w
    rw [walk_of_isNode hp hn]
    exact .head (.fresh hp hn) (ih w)
  case blind =>
    intro p s hp hn w
    rw [walk_of_not_isNode hp hn]
    exact .single (.blind hp hn)
  case nil =>
    intro id s w
    rw [walkAll_nil]
    exact .refl
  case cons =>
    intro id s t ts _ ihFirst _ ihRest w
    rw [walkAll_cons]
    exact .head .follow ((ihFirst _).trans (ihRest w))

theorem steps_walk (p : Path) (w : List (Path × Path)) (s : Chart) :
    m.Steps seeds ⟨some p, w, s⟩ ⟨none, w, m.walk seeds p s⟩ :=
  steps_walk_and_walkAll.1 p s w

/-- A walk from all seeds is a chain of steps from nothing to the point where nothing is owed. -/
theorem steps_walkSeeds : m.Steps seeds {} { chart := m.walkSeeds seeds } := by
  suffices h : ∀ (ps : List Path) (s : Chart), (∀ p ∈ ps, p ∈ seeds) →
      m.Steps seeds { chart := s } { chart := ps.foldl (fun s p => m.walk seeds p s) s } from
    h seeds {} fun _ hp => hp
  intro ps
  induction ps with
  | nil => exact fun s _ => .refl
  | cons p ps ih =>
    intro s hps
    have hseed : m.Steps seeds ⟨none, [], s⟩ ⟨none, [], m.walk seeds p s⟩ :=
      .head (.seed (hps p List.mem_cons_self)) (steps_walk p [] s)
    exact hseed.trans (ih _ fun q hq => hps q (List.mem_cons_of_mem _ hq))

/-- What one step keeps, a chain of steps keeps. -/
theorem Steps.invariant {I : Agenda → Prop}
    (hstep : ∀ {a b : Agenda}, m.Step seeds a b → I a → I b) {a b : Agenda}
    (hsteps : m.Steps seeds a b) (ha : I a) : I b := by
  induction hsteps with
  | refl => exact ha
  | tail _ hlast ih => exact hstep hlast ih

end ImportMap

end ImportAtlas
