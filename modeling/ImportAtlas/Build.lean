/-
# ImportAtlas.Build -- the graph of all files reached from some seeds

Every file is taken up once, depth first: it becomes a node, and for each import of it an edge is noted
before the imported file is taken up in turn. A file that cannot be read or whose imports cannot be
resolved is a node without edges of its own.

The walk keeps a stack of frames, one for each file whose imports are being gone through. It ends
because each new frame uses up one of the finitely many paths that name a file, and between two of them
imports only get fewer.
-/
import ImportAtlas.Graph
import ImportAtlas.Resolve

namespace ImportAtlas

/-! ## Visited paths -/

/-- The paths taken up so far, each once. -/
structure Visited where
  paths : List Path := []
  nodup : paths.Nodup := by exact List.nodup_nil
  deriving Repr

namespace Visited

/-- Notes a new path. -/
def insert (v : Visited) (p : Path) (h : p ∉ v.paths) : Visited :=
  ⟨p :: v.paths, List.nodup_cons.2 ⟨h, v.nodup⟩⟩

instance : Inhabited Visited := ⟨{}⟩

end Visited

/-- A number that no list of different paths that pass the test exceeds. -/
noncomputable def FinitelyMany.bound {test : Path → Bool} (hf : FinitelyMany test) : Nat :=
  Classical.choose hf

theorem FinitelyMany.length_le_bound {test : Path → Bool} (hf : FinitelyMany test) {ps : List Path}
    (hps : ps.Nodup) (htest : ∀ p ∈ ps, test p = true) : ps.length ≤ hf.bound :=
  Classical.choose_spec hf ps hps htest

/-- How many more paths that pass the test can be taken up. -/
noncomputable def Visited.room {test : Path → Bool} (hf : FinitelyMany test) (v : Visited) : Nat :=
  hf.bound - (v.paths.filter test).length

theorem Visited.room_insert_le {test : Path → Bool} (hf : FinitelyMany test) (v : Visited) (p : Path)
    (hp : p ∉ v.paths) : (v.insert p hp).room hf ≤ v.room hf := by
  unfold room insert
  dsimp only
  rw [List.filter_cons]
  split
  · simp only [List.length_cons]
    omega
  · exact Nat.le_refl _

theorem Visited.room_insert_lt {test : Path → Bool} (hf : FinitelyMany test) (v : Visited) (p : Path)
    (hp : p ∉ v.paths) (htest : test p = true) : (v.insert p hp).room hf < v.room hf := by
  have hbound : ((v.insert p hp).paths.filter test).length ≤ hf.bound :=
    hf.length_le_bound ((v.insert p hp).nodup.filter _) fun q hq => (List.mem_filter.1 hq).2
  unfold room
  unfold insert at hbound ⊢
  dsimp only at hbound ⊢
  rw [List.filter_cons, if_pos htest, List.length_cons] at hbound ⊢
  omega

/-! ## Surveys -/

/-- A file whose imports are being gone through: its id, and the imported files still to come. -/
structure Frame where
  id : Path
  targets : List Path
  deriving DecidableEq, Repr, Inhabited

/-- What a walk has found so far. -/
structure Survey where
  nodes : List FileNode := []
  edges : List Edge := []
  visited : Visited := {}
  roots : Crate.Roots := []
  log : Log := []
  deriving Repr, Inhabited

namespace Survey

/-- Adds to the log. -/
def report (s : Survey) (records : Log) : Survey := { s with log := s.log ++ records }

/-- Notes that a path was taken up. -/
def mark (s : Survey) (p : Path) (h : p ∉ s.visited.paths) : Survey :=
  { s with visited := s.visited.insert p h }

/-- Adds a node, unless there is one with its id. -/
def addNode (s : Survey) (n : FileNode) : Survey :=
  if s.nodes.any (·.id = n.id) then s else { s with nodes := s.nodes ++ [n] }

/-- Adds an edge. -/
def addEdge (s : Survey) (e : Edge) : Survey := { s with edges := s.edges ++ [e] }

/-- The graph that was found. -/
def graph (s : Survey) : Graph := { nodes := s.nodes, edges := s.edges }

end Survey

/-! ## Taking up a file -/

/-- The id of a file: the way to it from the workspace. -/
def fileId (h : Host) (root p : Path) : Path := Path.route root (h.absolute p)

/-- Whether a path can be a node. -/
def isGraphFile (h : Host) (p : Path) : Bool := (Dialect.ofPath? p).isSome && h.isFile p

/-- What is reported about imported files that cannot be nodes. -/
def skippedLog (targets : List Path) : Log :=
  (targets.filter fun t => (Dialect.ofPath? t).isNone).map fun t =>
    .debug ("  Skipping import of unsupported file: " ++ String.ofList t)

/-- The words for a truth value. -/
def truthText (b : Bool) : String := if b then "True" else "False"

/-- Makes a supported file a node and gets its imports. -/
def expand (h : Host) (root : Path) (isChanged : Bool) (p : Path) (dialect : Dialect) (s : Survey) :
    Option Frame × Survey :=
  let name := String.ofList p
  let id := fileId h root p
  let s := (s.report [.debug ("Processing " ++ dialect.label ++ " file: " ++ name ++
    " (is_changed: " ++ truthText isChanged ++ ")")]).addNode
      { id, label := Path.name p, path := p, isChanged }
  match h.read p with
  | .error fault => (none, s.report [.warning ("Failed to read file " ++ name ++ ": " ++ fault.label)])
  | .ok text =>
    let found := resolveAll h root s.roots dialect p text
    let s := { s.report found.log with roots := found.roots }
    match found.targets with
    | none => (none, s.report [.error ("Error processing file " ++ name)])
    | some all =>
      let targets := all.filter (isGraphFile h)
      (some ⟨id, targets⟩, s.report (skippedLog all ++
        [.debug ("  Found " ++ toString targets.length ++ " resolvable imports in " ++
          String.ofList (Path.name p))]))

/-- Takes up a path that was not visited before. -/
def enter (h : Host) (root : Path) (isChanged : Bool) (p : Path) (s : Survey) :
    Option Frame × Survey :=
  if h.isFile p then
    match Dialect.ofPath? p with
    | none => (none, s.report [.info ("Unsupported extension for file: " ++ String.ofList p)])
    | some dialect => expand h root isChanged p dialect s
  else (none, s.report [.info ("File does not exist: " ++ String.ofList p)])

/-- Takes up a path: the frame of its imports, if there is one to go through. -/
def visit (h : Host) (root : Path) (isChanged : Bool) (p : Path) (s : Survey) :
    Option Frame × Survey :=
  if hp : p ∈ s.visited.paths then (none, s) else enter h root isChanged p (s.mark p hp)

/-! ## The walk ends -/

@[simp] theorem Survey.visited_report (s : Survey) (records : Log) :
    (s.report records).visited = s.visited := rfl

@[simp] theorem Survey.visited_addNode (s : Survey) (n : FileNode) :
    (s.addNode n).visited = s.visited := by
  unfold addNode
  split <;> rfl

@[simp] theorem Survey.visited_addEdge (s : Survey) (e : Edge) :
    (s.addEdge e).visited = s.visited := rfl

theorem visited_expand (h : Host) (root : Path) (isChanged : Bool) (p : Path) (d : Dialect)
    (s : Survey) : (expand h root isChanged p d s).2.visited = s.visited := by
  unfold expand
  dsimp only
  split
  · simp
  · split <;> simp

theorem visited_enter (h : Host) (root : Path) (isChanged : Bool) (p : Path) (s : Survey) :
    (enter h root isChanged p s).2.visited = s.visited := by
  unfold enter
  split
  · split
    · rfl
    · exact visited_expand ..
  · rfl

theorem isFile_of_enter {h : Host} {root : Path} {isChanged : Bool} {p : Path} {s : Survey}
    {f : Frame} (hf : (enter h root isChanged p s).1 = some f) : h.isFile p = true := by
  unfold enter at hf
  split at hf
  · assumption
  · cases hf

theorem room_visit_le (h : Host) (root : Path) (isChanged : Bool) (p : Path) (s : Survey) :
    (visit h root isChanged p s).2.visited.room h.finite_isFile ≤ s.visited.room h.finite_isFile := by
  unfold visit
  split
  · exact Nat.le_refl _
  · next hp =>
    rw [visited_enter]
    exact s.visited.room_insert_le h.finite_isFile p hp

theorem room_visit_lt {h : Host} {root : Path} {isChanged : Bool} {p : Path} {s : Survey}
    {f : Frame} (hf : (visit h root isChanged p s).1 = some f) :
    (visit h root isChanged p s).2.visited.room h.finite_isFile < s.visited.room h.finite_isFile := by
  unfold visit at hf ⊢
  split at hf
  · cases hf
  · next hp =>
    rw [dif_neg hp, visited_enter]
    exact s.visited.room_insert_lt h.finite_isFile p hp (isFile_of_enter hf)

/-! ## The walk -/

/-- The work left on a stack: each frame, and each of its imports. -/
def workLeft : List Frame → Nat
  | [] => 0
  | f :: rest => f.targets.length + 1 + workLeft rest

/-- Goes through the frames of a stack until none is left. An imported file is changed if it is a seed
itself. -/
def run (h : Host) (root : Path) (seeds : List Path) (stack : List Frame) (s : Survey) : Survey :=
  match stack with
  | [] => s
  | ⟨_, []⟩ :: rest => run h root seeds rest s
  | ⟨id, t :: ts⟩ :: rest =>
    let s' := s.addEdge { source := id, target := fileId h root t }
    match _hv : visit h root (decide (t ∈ seeds)) t s' with
    | (none, s'') => run h root seeds (⟨id, ts⟩ :: rest) s''
    | (some f, s'') => run h root seeds (f :: ⟨id, ts⟩ :: rest) s''
termination_by (s.visited.room h.finite_isFile, workLeft stack)
decreasing_by
  · refine Prod.Lex.right _ ?_
    simp [workLeft]
  · have hle := room_visit_le h root (decide (t ∈ seeds)) t s'
    rw [_hv] at hle
    rcases Nat.lt_or_eq_of_le hle with hlt | heq
    · exact Prod.Lex.left _ _ hlt
    · rw [show s''.visited.room h.finite_isFile = s.visited.room h.finite_isFile from heq]
      refine Prod.Lex.right _ ?_
      simp [workLeft]
  · refine Prod.Lex.left _ _ ?_
    have hlt := room_visit_lt (f := f) (s := s') (congrArg Prod.fst _hv)
    rw [_hv] at hlt
    exact hlt

/-- Walks from one seed. -/
def traverse (h : Host) (root : Path) (seeds : List Path) (s : Survey) (seed : Path) : Survey :=
  match visit h root true seed s with
  | (none, s) => s
  | (some f, s) => run h root seeds [f] s

/-! ## Builds -/

/-- Builds graphs of one workspace. Crate roots stay known from one build to the next. -/
structure Builder where
  root : Path
  roots : Crate.Roots := []
  deriving Repr, Inhabited

/-- Why no graph can be built: the workspace is no directory. -/
structure BuildFault where
  root : Path
  deriving DecidableEq, Repr, Inhabited

namespace BuildFault

/-- The kind of error that a fault is reported as. -/
def label : String := "GraphBuildError"

/-- The wording of a fault. -/
def message (fault : BuildFault) : String :=
  "Workspace root does not exist or is not a directory: " ++ String.ofList fault.root

end BuildFault

namespace Builder

/-- A builder for a workspace. -/
def ofWorkspace (h : Host) (workspace : Path) : Builder := { root := h.absolute workspace }

/-- The path that a seed stands for. -/
def seedPath (b : Builder) (seed : Path) : Path := Path.normalize (Path.join b.root seed)

/-- The id of a path; the empty path has none. -/
def fileId? (h : Host) (b : Builder) (p : Path) : Option Path :=
  if p = [] then none else some (fileId h b.root p)

/-- The survey of all files reached from some seeds. -/
def survey (h : Host) (b : Builder) (seeds : List Path) : Survey :=
  let seeds := seeds.map b.seedPath
  let start : Survey :=
    { roots := b.roots,
      log := [.info ("Analyzing dependencies for " ++ toString seeds.length ++ " changed files")] }
  seeds.foldl (traverse h b.root seeds) start

/-- Builds the graph of all files reached from some seeds. -/
def build (h : Host) (b : Builder) (seeds : List Path) : Except BuildFault Graph × Builder × Log :=
  if h.isDirectory b.root then
    let s := b.survey h seeds
    (.ok s.graph, { b with roots := s.roots },
      s.log ++ [.info ("Created " ++ toString s.nodes.length ++ " nodes and " ++
        toString s.edges.length ++ " edges")])
  else (.error ⟨b.root⟩, b, [])

end Builder

/-- The graph of the files reached from some seeds, by a builder of its own. -/
def buildGraph (h : Host) (seeds : List Path) (workspace : Path) : Except BuildFault Graph :=
  ((Builder.ofWorkspace h workspace).build h seeds).1

end ImportAtlas
