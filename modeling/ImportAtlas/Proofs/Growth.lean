/-
# ImportAtlas.Proofs.Growth -- more seeds, a longer answer

Seeds that are given behind others are taken up when the walk from the others is over. What comes of
them is put behind what was found before: no node and no edge goes away or changes its place.

That the first part of the walk is the same in both builds is not a matter of course, because all seeds
are known from its first step on. The two walks are kept in lockstep: what one has found is what the
other has found, with the flags of the nodes set by the seeds of the other (`flagged_walk_and_walkAll`).
So the flags are all that additional seeds change about what is found without them, and a flag that was
set stays set.
-/
import ImportAtlas.Proofs.Seeds

namespace ImportAtlas

/-! ## Flags -/

/-- A node with its flag set by other seeds. -/
def FileNode.flagged (seeds : List Path) (n : FileNode) : FileNode :=
  { n with isChanged := decide (n.path ∈ seeds) }

/-- A node with its flag left out. -/
def FileNode.unflagged (n : FileNode) : FileNode := { n with isChanged := false }

namespace Chart

/-- What was found, with the flags set by other seeds. -/
def flagged (seeds : List Path) (s : Chart) : Chart :=
  { s with nodes := s.nodes.map (FileNode.flagged seeds) }

/-- Flags are not among what tells whether a node is there. -/
theorem nodeIds_flagged (seeds : List Path) (s : Chart) : (s.flagged seeds).nodeIds = s.nodeIds := by
  show (s.nodes.map (FileNode.flagged seeds)).map FileNode.id = s.nodes.map FileNode.id
  rw [List.map_map]
  rfl

theorem flagged_addNode (seeds : List Path) (s : Chart) (n : FileNode) :
    (s.addNode n).flagged seeds = (s.flagged seeds).addNode (n.flagged seeds) := by
  unfold addNode
  rw [nodeIds_flagged]
  by_cases hn : n.id ∈ s.nodeIds
  · have hn' : (n.flagged seeds).id ∈ s.nodeIds := hn
    rw [if_pos hn, if_pos hn']
  · have hn' : (n.flagged seeds).id ∉ s.nodeIds := hn
    rw [if_neg hn, if_neg hn']
    unfold flagged
    simp

end Chart

/-! ## Two walks in lockstep -/

namespace ImportMap

variable {m : ImportMap} {seeds later : List Path}

theorem flagged_discover {p : Path} {s : Chart} (hp : p ∉ s.visited.paths) :
    (m.discover seeds p s hp).flagged later = m.discover later p (s.flagged later) hp := by
  unfold discover
  rw [Chart.flagged_addNode]
  rfl

/-- Which seeds are known makes no difference to a walk but for the flags. -/
theorem flagged_walk_and_walkAll :
    (∀ (p : Path) (s : Chart),
        (m.walk seeds p s).flagged later = m.walk later p (s.flagged later)) ∧
      ∀ (id : Path) (ts : List Path) (s : Chart),
        (m.walkAll seeds id ts s).flagged later = m.walkAll later id ts (s.flagged later) := by
  refine walkWithin.mutual_induct m seeds _ _ ?known ?fresh ?blind ?nil ?cons
  case known =>
    intro p s hp
    have hp' : p ∈ (s.flagged later).visited.paths := hp
    rw [walk_of_mem hp, walk_of_mem hp']
  case fresh =>
    intro p s hp hn _ ih
    have hp' : p ∉ (s.flagged later).visited.paths := hp
    rw [walk_of_isNode hp hn, walk_of_isNode hp' hn, ih, flagged_discover]
  case blind =>
    intro p s hp hn
    have hp' : p ∉ (s.flagged later).visited.paths := hp
    rw [walk_of_not_isNode hp hn, walk_of_not_isNode hp' hn]
    rfl
  case nil =>
    intro id s
    rw [walkAll_nil, walkAll_nil]
  case cons =>
    intro id s t ts _ ihFirst _ ihRest
    -- Edges carry no flags, so both walks note the same one.
    have hedge : (s.addEdge (m.edge (id, t))).flagged later =
        (s.flagged later).addEdge (m.edge (id, t)) := rfl
    rw [walkAll_cons, walkAll_cons, ← hedge, ← ihFirst]
    exact ihRest

/-- A walk from some of the seeds that are known. -/
theorem flagged_walkSeeds :
    (m.walkSeeds seeds).flagged later = seeds.foldl (fun s p => m.walk later p s) {} := by
  suffices hfold : ∀ (ps : List Path) (s : Chart),
      (ps.foldl (fun s p => m.walk seeds p s) s).flagged later =
        ps.foldl (fun s p => m.walk later p s) (s.flagged later) from hfold seeds {}
  intro ps
  induction ps with
  | nil => exact fun s => rfl
  | cons p ps ih =>
    intro s
    rw [List.foldl_cons, List.foldl_cons, ih, flagged_walk_and_walkAll.1]

/-! ## What was found stays -/

/-- Everything found is found in the same place later. -/
structure Grows (s s' : Chart) : Prop where
  nodes : s.nodes <+: s'.nodes
  edges : s.edges <+: s'.edges

theorem Grows.refl (s : Chart) : Grows s s := ⟨List.prefix_refl _, List.prefix_refl _⟩

theorem Grows.trans {s s' s'' : Chart} (h : Grows s s') (h' : Grows s' s'') : Grows s s'' :=
  ⟨h.nodes.trans h'.nodes, h.edges.trans h'.edges⟩

theorem grows_addNode (s : Chart) (n : FileNode) : Grows s (s.addNode n) := by
  refine ⟨?_, by rw [Chart.edges_addNode]⟩
  unfold Chart.addNode
  split
  · exact List.prefix_refl _
  · exact List.prefix_append _ _

theorem Grows.step {s : Chart} {a b : Agenda} (hab : m.Step seeds a b) (ha : Grows s a.chart) :
    Grows s b.chart := by
  cases hab with
  | seed => exact ha
  | follow => exact ⟨ha.nodes, ha.edges.trans (List.prefix_append _ _)⟩
  | known => exact ha
  | blind => exact ⟨ha.nodes, ha.edges⟩
  | @fresh p w s' hp hn =>
    -- Discovering a path marks it, which is not to be seen, and then adds its node.
    have hmark : Grows s (s'.mark p hp) := ⟨ha.nodes, ha.edges⟩
    exact hmark.trans (grows_addNode _ _)

theorem grows_walk (p : Path) (s : Chart) : Grows s (m.walk seeds p s) :=
  Steps.invariant (I := fun a => Grows s a.chart) Grows.step (steps_walk p [] s) (Grows.refl s)

theorem grows_foldl_walk (ps : List Path) (s : Chart) :
    Grows s (ps.foldl (fun s p => m.walk seeds p s) s) := by
  induction ps generalizing s with
  | nil => exact Grows.refl s
  | cons p ps ih => exact (grows_walk p s).trans (ih _)

/-- What some seeds lead to comes first among what they and others behind them lead to. -/
theorem grows_walkSeeds_append (seeds more : List Path) :
    Grows ((m.walkSeeds seeds).flagged (seeds ++ more)) (m.walkSeeds (seeds ++ more)) := by
  -- The walk from all seeds reaches, on its way, what the walk from the first ones ends with.
  have hsplit : m.walkSeeds (seeds ++ more) =
      more.foldl (fun s p => m.walk (seeds ++ more) p s)
        ((m.walkSeeds seeds).flagged (seeds ++ more)) := by
    rw [flagged_walkSeeds, walkSeeds, List.foldl_append]
  rw [hsplit]
  exact grows_foldl_walk more _

end ImportMap

/-! ## Builds -/

/-- A graph begins with another one. The nodes they share have the same flags, but for those whose path
is among some that became seeds. -/
structure Graph.StartsWith (g' g : Graph) (added : List Path) : Prop where
  edges : g.edges <+: g'.edges
  nodes : g.nodes.map FileNode.unflagged <+: g'.nodes.map FileNode.unflagged
  flags : ∀ (i : Nat) (n n' : FileNode), g.nodes[i]? = some n → g'.nodes[i]? = some n' →
    n'.isChanged = (n.isChanged || decide (n.path ∈ added))

theorem ImportMap.walkSeeds_append_startsWith (m : ImportMap) (seeds more : List Path) :
    (m.walkSeeds (seeds ++ more)).toGraph.StartsWith (m.walkSeeds seeds).toGraph more := by
  obtain ⟨hnodes, hedges⟩ := m.grows_walkSeeds_append seeds more
  have hmap : ((m.walkSeeds seeds).flagged (seeds ++ more)).nodes =
      (m.walkSeeds seeds).nodes.map (FileNode.flagged (seeds ++ more)) := rfl
  rw [hmap] at hnodes
  refine ⟨hedges, ?_, ?_⟩
  · have hplain := hnodes.map FileNode.unflagged
    rw [List.map_map] at hplain
    exact hplain
  · intro i n n' hn hn'
    have hflagged : ((m.walkSeeds seeds).nodes.map (FileNode.flagged (seeds ++ more)))[i]? =
        some (n.flagged (seeds ++ more)) := by
      rw [List.getElem?_map, show (m.walkSeeds seeds).nodes[i]? = some n from hn]
      rfl
    have hsame : n' = n.flagged (seeds ++ more) := by
      obtain ⟨rest, hrest⟩ := hnodes
      have hat : (m.walkSeeds (seeds ++ more)).nodes[i]? = some (n.flagged (seeds ++ more)) := by
        rw [← hrest, List.getElem?_append_left (List.getElem?_eq_some_iff.1 hflagged).1, hflagged]
      exact Option.some.inj (hn'.symm.trans hat)
    -- Without the added seeds the flag said whether the path is one of the others.
    have hold : n.isChanged = decide (n.path ∈ seeds) := by
      have hlisted := (listed_walkSeeds.nodes n (List.mem_of_getElem? hn)).2.2
      exact congrArg FileNode.isChanged hlisted
    rw [hsame, hold]
    show decide (n.path ∈ seeds ++ more) = _
    simp [List.mem_append]

/-- Seeds that are added behind others make a build fail where it failed without them. Otherwise its
graph begins with what was found without them, in the same order, and a node of that part is changed if
it was changed before or if its path is what one of the added seeds stands for. -/
theorem build_begins_as_without_added_seeds (h : Host) (b : Builder) (seeds more : List Path) :
    (∀ fault, (b.build h seeds).1 = .error fault ↔
        (b.build h (seeds ++ more)).1 = .error fault) ∧
      ∀ g, (b.build h seeds).1 = .ok g →
        ∃ g', (b.build h (seeds ++ more)).1 = .ok g' ∧ g'.StartsWith g (more.map b.seedPath) := by
  rw [Builder.graph_build, Builder.graph_build, List.map_append]
  cases h.isDirectory b.root with
  | false => exact ⟨fun fault => Iff.rfl, fun g hg => nomatch hg⟩
  | true =>
    refine ⟨fun fault => ⟨fun hf => (nomatch hf), fun hf => (nomatch hf)⟩, ?_⟩
    intro g hg
    obtain rfl := Except.ok.inj hg
    exact ⟨_, rfl, ImportMap.walkSeeds_append_startsWith _ _ _⟩

theorem build_begins_as_without_added_seeds_mutualModules :
    let h := mutualHost
    let b := Builder.ofWorkspace h "w".toList
    ∃ g g' : Graph, (b.build h ["a.rs".toList]).1 = .ok g ∧
      (b.build h (["a.rs".toList] ++ ["b.rs".toList])).1 = .ok g' ∧
      g.nodeIds = ["a.rs".toList, "b.rs".toList] ∧ g'.nodeIds = ["a.rs".toList, "b.rs".toList] ∧
      g'.StartsWith g (["b.rs".toList].map b.seedPath) := by
  intro h b
  have hseed : ["a.rs".toList].map b.seedPath = ["/w/a.rs".toList] := by cbv
  have hseeds : (["a.rs".toList] ++ ["b.rs".toList]).map b.seedPath =
      ["/w/a.rs".toList, "/w/b.rs".toList] := by cbv
  have hfirst : (h.explore "w".toList ["a.rs".toList]).nodeIds = _ :=
    (nodeIds_mutualModules hseed (by simp)).1 rfl
  have hsecond : (h.explore "w".toList (["a.rs".toList] ++ ["b.rs".toList])).nodeIds = _ :=
    (nodeIds_mutualModules hseeds (by simp)).1 rfl
  have hbuild : (b.build h ["a.rs".toList]).1 = _ := buildGraph_mutualModules ["a.rs".toList]
  have hbuild' : (b.build h (["a.rs".toList] ++ ["b.rs".toList])).1 = _ :=
    buildGraph_mutualModules (["a.rs".toList] ++ ["b.rs".toList])
  obtain ⟨g', hg', hstarts⟩ :=
    (build_begins_as_without_added_seeds h b ["a.rs".toList] ["b.rs".toList]).2 _ hbuild
  obtain rfl := Except.ok.inj (hg'.symm.trans hbuild')
  exact ⟨_, _, hbuild, hg', hfirst, hsecond, hstarts⟩

end ImportAtlas
