/-
# ImportAtlas.Proofs.Recursion -- the walk with a stack is the walk by recursion

A build goes through its files with a stack of frames. Each frame is a file some of whose imports have
been followed, so a stack stands for the calls that a recursion would have open at that moment:
`ImportMap.resume` makes them, innermost first. The stack walk keeps this meaning in every turn of its
loop (`run_chart`), so a build ends with the nodes, the edges and the visited paths of
`ImportMap.walkSeeds`, all in the same order (`build_agrees_with_recursion`).

Besides what the recursion keeps, a survey holds remembered crate roots and a log. The recursion does
without both: the remembered roots give the same answers all along, so each file has the imports of
`Host.importMapFrom` at the outset, whenever it is taken up. A builder of its own remembers nothing, and
each file has the imports of `Host.importMap`.
-/
import Mathlib
import ImportAtlas.Proofs.Meaning

namespace ImportAtlas

/-! ## Surveys as charts -/

namespace Survey

/-- What a survey has found, without what it remembers and reports. -/
def chart (s : Survey) : Chart := { nodes := s.nodes, edges := s.edges, visited := s.visited }

@[simp] theorem chart_report (s : Survey) (records : Log) : (s.report records).chart = s.chart := rfl

@[simp] theorem chart_addNode (s : Survey) (n : FileNode) :
    (s.addNode n).chart = s.chart.addNode n := by
  have hids : s.nodes.any (fun x => x.id = n.id) = true ↔ n.id ∈ s.chart.nodeIds := by
    simp only [List.any_eq_true, decide_eq_true_eq, Graph.nodeIds, List.mem_map]
    rfl
  unfold addNode Chart.addNode
  by_cases hn : s.nodes.any (fun x => x.id = n.id) = true
  · rw [if_pos hn, if_pos (hids.1 hn)]
  · rw [if_neg hn, if_neg fun hmem => hn (hids.2 hmem)]
    rfl

@[simp] theorem roots_addNode (s : Survey) (n : FileNode) : (s.addNode n).roots = s.roots := by
  unfold addNode
  split <;> rfl

end Survey

/-! ## Taking up a path -/

section Visit

variable {h : Host} {root p : Path} {s : Survey} {known : Crate.Roots}

/-- A supported file becomes a node. Its frame holds the imports of the map, and where there is no
frame there are no imports. -/
theorem expand_spec {dialect : Dialect} (isChanged : Bool) (hd : Dialect.ofPath? p = some dialect)
    (hs : s.roots.answer h root = known.answer h root) :
    (expand h root isChanged p dialect s).2.roots.answer h root = known.answer h root ∧
      (expand h root isChanged p dialect s).2.chart =
        s.chart.addNode { id := fileId h root p, label := Path.name p, path := p, isChanged } ∧
      ((expand h root isChanged p dialect s).1 =
          some ⟨fileId h root p, h.targetsFrom root known p⟩ ∨
        (expand h root isChanged p dialect s).1 = none ∧ h.targetsFrom root known p = []) := by
  unfold expand
  dsimp only
  -- All cases go on from the survey with the new node; how it was put together no longer matters.
  generalize hbase : (s.report [_]).addNode _ = base
  have hchart : base.chart =
      s.chart.addNode { id := fileId h root p, label := Path.name p, path := p, isChanged } := by
    rw [← hbase, Survey.chart_addNode, Survey.chart_report]
  have hroots : base.roots = s.roots := by
    rw [← hbase, Survey.roots_addNode]
    rfl
  have htargets : h.targetsFrom root known p = h.targetsFrom root base.roots p :=
    Host.targetsFrom_congr (congrFun (hroots ▸ hs.symm) _)
  rw [htargets]
  unfold Host.targetsFrom
  rw [hd]
  cases hread : h.read p with
  | error fault => exact ⟨hroots ▸ hs, hchart, Or.inr ⟨rfl, rfl⟩⟩
  | ok text =>
    have hkeep : (resolveAll h root base.roots dialect p text).roots.answer h root =
        known.answer h root :=
      (resolveEach_answer base.roots _).trans (hroots ▸ hs)
    dsimp only
    cases (resolveAll h root base.roots dialect p text).targets with
    | none => exact ⟨hkeep, hchart, Or.inr ⟨rfl, rfl⟩⟩
    | some all => exact ⟨hkeep, hchart, Or.inl rfl⟩

end Visit

/-! ## Stacks as open calls -/

/-- Makes the calls that a stack of frames stands for, the topmost first. -/
def ImportMap.resume (m : ImportMap) (seeds : List Path) (stack : List Frame) (s : Chart) : Chart :=
  stack.foldl (fun s f => m.walkAll seeds f.id f.targets s) s

theorem ImportMap.resume_cons (m : ImportMap) (seeds : List Path) (f : Frame) (stack : List Frame)
    (s : Chart) : m.resume seeds (f :: stack) s =
      m.resume seeds stack (m.walkAll seeds f.id f.targets s) := rfl

section Simulation

variable {h : Host} {root : Path} {s : Survey} {known : Crate.Roots}

/-- Taking up a path and going on with the frame it gives is walking that path. -/
theorem walk_chart (seeds : List Path) (hs : s.roots.answer h root = known.answer h root)
    (p : Path) :
    (visit h root (decide (p ∈ seeds)) p s).2.roots.answer h root = known.answer h root ∧
      (h.importMapFrom root known).walk seeds p s.chart =
        (h.importMapFrom root known).resume seeds (visit h root (decide (p ∈ seeds)) p s).1.toList
          (visit h root (decide (p ∈ seeds)) p s).2.chart := by
  unfold visit
  by_cases hp : p ∈ s.visited.paths
  · rw [dif_pos hp]
    exact ⟨hs, ImportMap.walk_of_mem hp⟩
  rw [dif_neg hp]
  unfold enter
  cases hfile : h.isFile p with
  | false =>
    have hn : ¬ (h.importMapFrom root known).isNode p = true := by
      simp [Host.importMapFrom, isGraphFile, hfile]
    exact ⟨hs, ImportMap.walk_of_not_isNode hp hn⟩
  | true =>
    rw [if_pos rfl]
    cases hd : Dialect.ofPath? p with
    | none =>
      have hn : ¬ (h.importMapFrom root known).isNode p = true := by
        simp [Host.importMapFrom, isGraphFile, hd]
      exact ⟨hs, ImportMap.walk_of_not_isNode hp hn⟩
    | some dialect =>
      have hn : (h.importMapFrom root known).isNode p = true := by
        simp [Host.importMapFrom, isGraphFile, hfile, hd]
      have hmark : (s.mark p hp).roots.answer h root = known.answer h root := hs
      obtain ⟨hkeep, hchart, hframe⟩ := expand_spec (decide (p ∈ seeds)) hd hmark
      refine ⟨hkeep, ?_⟩
      rw [ImportMap.walk_of_isNode hp hn]
      dsimp only
      rw [hchart]
      rcases hframe with hsome | ⟨hnone, hempty⟩
      · rw [hsome]
        rfl
      · -- A file that broke down has no frame: the recursion has nothing to go through either.
        rw [hnone, show (h.importMapFrom root known).targets p = [] from hempty,
          ImportMap.walkAll_nil]
        rfl

/-- In every turn of the loop the stack stands for the calls still open, and in the end for none. -/
theorem run_chart (seeds : List Path) (stack : List Frame)
    (hs : s.roots.answer h root = known.answer h root) :
    (run h root seeds stack s).roots.answer h root = known.answer h root ∧
      (run h root seeds stack s).chart = (h.importMapFrom root known).resume seeds stack s.chart := by
  fun_induction run h root seeds stack s with
  | case1 s => exact ⟨hs, rfl⟩
  | case2 s id rest ih =>
    obtain ⟨hkeep, hchart⟩ := ih hs
    refine ⟨hkeep, hchart.trans ?_⟩
    rw [ImportMap.resume_cons, ImportMap.walkAll_nil]
  | case3 s id t ts rest s' s'' hv ih =>
    -- The imported path gave no frame, so its whole walk is over in this turn.
    obtain ⟨hanswer, hwalk⟩ := walk_chart (s := s') seeds hs t
    rw [hv] at hanswer hwalk
    obtain ⟨hkeep, hchart⟩ := ih hanswer
    refine ⟨hkeep, hchart.trans ?_⟩
    rw [ImportMap.resume_cons, ImportMap.resume_cons, ImportMap.walkAll_cons]
    exact congrArg (fun c => ImportMap.resume _ seeds rest (ImportMap.walkAll _ seeds id ts c))
      hwalk.symm
  | case4 s id t ts rest s' f s'' hv ih =>
    -- The walk of the imported path is the new frame, to be resumed before the rest.
    obtain ⟨hanswer, hwalk⟩ := walk_chart (s := s') seeds hs t
    rw [hv] at hanswer hwalk
    obtain ⟨hkeep, hchart⟩ := ih hanswer
    refine ⟨hkeep, hchart.trans ?_⟩
    rw [ImportMap.resume_cons, ImportMap.resume_cons, ImportMap.resume_cons, ImportMap.walkAll_cons]
    exact congrArg (fun c => ImportMap.resume _ seeds rest (ImportMap.walkAll _ seeds id ts c))
      hwalk.symm

theorem traverse_chart {seeds : List Path} (hs : s.roots.answer h root = known.answer h root)
    {p : Path} (hp : p ∈ seeds) :
    (traverse h root seeds s p).roots.answer h root = known.answer h root ∧
      (traverse h root seeds s p).chart = (h.importMapFrom root known).walk seeds p s.chart := by
  obtain ⟨hanswer, hwalk⟩ := walk_chart seeds hs p
  rw [decide_eq_true hp] at hanswer hwalk
  unfold traverse
  rcases hv : visit h root true p s with ⟨_ | f, s'⟩
  · rw [hv] at hanswer hwalk
    exact ⟨hanswer, hwalk.symm⟩
  · rw [hv] at hanswer hwalk
    obtain ⟨hkeep, hchart⟩ := run_chart seeds [f] hanswer
    exact ⟨hkeep, hchart.trans hwalk.symm⟩

end Simulation

/-! ## Builds -/

/-- A survey finds what the recursion finds by the crate roots that are remembered at the outset, and
leaves all answers about crate roots as they were. -/
theorem Builder.chart_survey (h : Host) (b : Builder) (seeds : List Path) :
    (b.survey h seeds).roots.answer h b.root = b.roots.answer h b.root ∧
      (b.survey h seeds).chart =
        (h.importMapFrom b.root b.roots).walkSeeds (seeds.map b.seedPath) := by
  unfold Builder.survey ImportMap.walkSeeds
  -- The fold goes through the seeds while all of them stay known as seeds.
  suffices hfold : ∀ (ps : List Path) (s : Survey) (c : Chart),
      s.roots.answer h b.root = b.roots.answer h b.root →
      s.chart = c → (∀ p ∈ ps, p ∈ seeds.map b.seedPath) →
      (ps.foldl (traverse h b.root (seeds.map b.seedPath)) s).roots.answer h b.root =
          b.roots.answer h b.root ∧
        (ps.foldl (traverse h b.root (seeds.map b.seedPath)) s).chart =
          ps.foldl
            (fun c p => (h.importMapFrom b.root b.roots).walk (seeds.map b.seedPath) p c) c from
    hfold _ _ _ rfl rfl fun _ hp => hp
  intro ps
  induction ps with
  | nil => exact fun s c hs hc _ => ⟨hs, hc⟩
  | cons p ps ih =>
    intro s c hs hc hps
    obtain ⟨hkeep, hwalk⟩ := traverse_chart hs (hps p List.mem_cons_self)
    refine ih _ _ hkeep (hwalk.trans ?_) fun q hq => hps q (List.mem_cons_of_mem _ hq)
    rw [hc]

/-- A build gives the graph that the recursion finds, unless its workspace is no directory. -/
theorem Builder.graph_build (h : Host) (b : Builder) (seeds : List Path) :
    (b.build h seeds).1 =
      if h.isDirectory b.root then
        .ok ((h.importMapFrom b.root b.roots).walkSeeds (seeds.map b.seedPath)).toGraph
      else .error ⟨b.root⟩ := by
  rw [← (b.chart_survey h seeds).2]
  unfold Builder.build
  split <;> rfl

/-- What the recursion finds in a workspace, from the paths that some seeds stand for. -/
def Host.explore (h : Host) (workspace : Path) (seeds : List Path) : Chart :=
  (h.importMap (h.absolute workspace)).walkSeeds
    (seeds.map (Builder.ofWorkspace h workspace).seedPath)

theorem Builder.chart_survey_ofWorkspace (h : Host) (workspace : Path) (seeds : List Path) :
    ((Builder.ofWorkspace h workspace).survey h seeds).chart = h.explore workspace seeds := by
  rw [((Builder.ofWorkspace h workspace).chart_survey h seeds).2, Host.importMapFrom_eq rfl]
  rfl

theorem buildGraph_eq_explore (h : Host) (workspace : Path) (seeds : List Path) :
    buildGraph h seeds workspace =
      if h.isDirectory (h.absolute workspace) then .ok (h.explore workspace seeds).toGraph
      else .error ⟨h.absolute workspace⟩ := by
  unfold buildGraph
  rw [Builder.graph_build, Host.importMapFrom_eq rfl]
  rfl

/-- On a workspace that is a directory, a build finds the nodes and the edges that the plain recursion
finds, in the same order and as often, and takes up the same paths. -/
theorem build_agrees_with_recursion (h : Host) (workspace : Path) (seeds : List Path)
    (hdir : h.isDirectory (h.absolute workspace) = true) :
    buildGraph h seeds workspace = .ok (h.explore workspace seeds).toGraph ∧
      ((Builder.ofWorkspace h workspace).survey h seeds).visited =
        (h.explore workspace seeds).visited := by
  constructor
  · rw [buildGraph_eq_explore, if_pos hdir]
  · rw [← Builder.chart_survey_ofWorkspace]
    rfl

/-- Two modules that declare each other. -/
def mutualModules : FileTree where
  home := []
  entries := [(["w".toList], .directory),
    (["w".toList, "a.rs".toList], .file "mod b;".toUTF8.toList),
    (["w".toList, "b.rs".toList], .file "mod a;".toUTF8.toList)]

/-- The surroundings of a build among them. -/
abbrev mutualHost : Host := .ofTree Script.readTree mutualModules

theorem isDirectory_mutualModules : mutualHost.isDirectory
    (mutualHost.absolute "w".toList) = true := by cbv

theorem build_agrees_with_recursion_mutualModules :
    mutualHost.isDirectory (mutualHost.absolute "w".toList) = true ∧
      buildGraph mutualHost ["a.rs".toList] "w".toList =
          .ok (mutualHost.explore "w".toList ["a.rs".toList]).toGraph ∧
        ((Builder.ofWorkspace mutualHost "w".toList).survey
            mutualHost ["a.rs".toList]).visited =
          (mutualHost.explore "w".toList ["a.rs".toList]).visited :=
  ⟨isDirectory_mutualModules, build_agrees_with_recursion _ _ _ isDirectory_mutualModules⟩

end ImportAtlas
