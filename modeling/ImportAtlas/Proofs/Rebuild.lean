/-
# ImportAtlas.Proofs.Rebuild -- the ids of a graph as seeds

The ids of a graph are ways from the workspace, and a way that is taken as a seed is gone from there
again. So each id stands for the path of its node (`seedPath_fileId`), and a build from the ids of a
graph starts from all paths that the first build reached. Nothing more is reached from these, since what
is imported by a reached path was reached before.

Only a path with another number of slashes in front than the workspace is not found again by its id: the
way to it is the way to its twin.
-/
import ImportAtlas.Proofs.CanonicalReach
import ImportAtlas.Proofs.Joining
import ImportAtlas.Proofs.Seeds

namespace ImportAtlas

/-! ## Walks from reached paths -/

namespace ImportMap

variable {m : ImportMap} {seeds seeds' : List Path}

/-- What is reached from all reached paths was reached before. -/
theorem reach_of_mem_iff_reach (hseeds : ∀ p, p ∈ seeds' ↔ m.Reach seeds p) (p : Path) :
    m.Reach seeds' p ↔ m.Reach seeds p := by
  constructor
  · intro hp
    exact hp.trans fun q hq _ => (hseeds q).1 hq
  · intro hp
    exact .seed ((hseeds p).2 hp) hp.isNode

/-- With separate ids the paths of the nodes are the reached paths, each once. -/
theorem mem_nodePaths_iff (hsep : m.SeparateIds seeds) (p : Path) :
    p ∈ (m.walkSeeds seeds).nodes.map (·.path) ↔ m.Reach seeds p := by
  constructor
  · intro hp
    obtain ⟨n, hn, rfl⟩ := List.mem_map.1 hp
    exact reach_of_mem_nodes hn
  · intro hp
    exact List.mem_map.2 ⟨m.node seeds p, (mem_nodes_walkSeeds_iff hsep _).2 ⟨hp, rfl⟩, rfl⟩

theorem nodup_nodePaths : ((m.walkSeeds seeds).nodes.map (·.path)).Nodup := by
  have hids : (m.walkSeeds seeds).nodeIds =
      ((m.walkSeeds seeds).nodes.map (·.path)).map m.id := by
    rw [List.map_map]
    exact List.map_congr_left fun n hn => id_of_mem_nodes hn
  have hnodup : (m.walkSeeds seeds).nodeIds.Nodup := listed_walkSeeds.nodup
  rw [hids] at hnodup
  exact hnodup.of_map

/-- Every node is made from its path. -/
theorem nodes_eq_map_node : (m.walkSeeds seeds).nodes =
    ((m.walkSeeds seeds).nodes.map (·.path)).map (m.node seeds) := by
  rw [List.map_map]
  exact (List.map_id _).symm.trans
    (List.map_congr_left fun n hn => (listed_walkSeeds.nodes n hn).2.2)

/-- A walk from all that another one reached finds the nodes of that one, and changed. -/
theorem perm_nodes_of_mem_iff_reach (hsep : m.SeparateIds seeds)
    (hseeds : ∀ p, p ∈ seeds' ↔ m.Reach seeds p) :
    (m.walkSeeds seeds').nodes.Perm
      ((m.walkSeeds seeds).nodes.map fun n => { n with isChanged := true }) := by
  have hreach := reach_of_mem_iff_reach hseeds
  have hsep' : m.SeparateIds seeds' := fun p q hp hq =>
    hsep p q ((hreach p).1 hp) ((hreach q).1 hq)
  have hpaths : ((m.walkSeeds seeds').nodes.map (·.path)).Perm
      ((m.walkSeeds seeds).nodes.map (·.path)) := by
    rw [List.perm_ext_iff_of_nodup nodup_nodePaths nodup_nodePaths]
    intro p
    rw [mem_nodePaths_iff hsep', mem_nodePaths_iff hsep]
    exact hreach p
  have hflag : ∀ n ∈ (m.walkSeeds seeds).nodes,
      m.node seeds' n.path = { n with isChanged := true } := by
    intro n hn
    have hseed : n.path ∈ seeds' := (hseeds _).2 (reach_of_mem_nodes hn)
    have hnode : n = m.node seeds n.path := (listed_walkSeeds.nodes n hn).2.2
    calc m.node seeds' n.path
        = { m.node seeds n.path with isChanged := true } := by rw [node, decide_eq_true hseed]; rfl
      _ = { n with isChanged := true } := by rw [← hnode]
  rw [nodes_eq_map_node]
  refine (hpaths.map _).trans ?_
  rw [List.map_map]
  exact .of_eq (List.map_congr_left hflag)

end ImportMap

/-! ## Ids as seeds -/

/-- An id stands for the path that it was made of, if this has as many slashes in front as the
workspace. -/
theorem Builder.seedPath_fileId (h : Host) {b : Builder} (hroot : b.root.IsCanonical) {p : Path}
    (hp : p.IsCanonical) (hslashes : b.root.rootSlashes = p.rootSlashes) :
    b.seedPath (fileId h b.root p) = p := by
  rw [fileId, Host.absolute_of_isCanonical hp]
  exact Path.normalize_join_route hroot hp hslashes

theorem Path.IsCanonical.rootSlashes_eq_one {p : Path} (hp : p.IsCanonical)
    (hone : ¬ ['/', '/'] <+: p) : p.rootSlashes = 1 := by
  obtain ⟨rfl | rfl, hps⟩ := hp
  · exact rootSlashes_rooted (.inl rfl) hps
  · exact absurd (List.prefix_append _ _) hone

section

variable {h : Host} (hhome : h.home.isAbsolute = true) (workspace : Path) (seeds : List Path)
  (hslashes : ∀ p, (h.importMap (h.absolute workspace)).Reach
    (seeds.map (Builder.ofWorkspace h workspace).seedPath) p →
      (h.absolute workspace).rootSlashes = p.rootSlashes)
include hhome

theorem isCanonical_of_reach_seeds {p : Path} (hp : (h.importMap (h.absolute workspace)).Reach
    (seeds.map (Builder.ofWorkspace h workspace).seedPath) p) : p.IsCanonical := by
  have hroot := Host.isCanonical_absolute hhome workspace
  apply Host.isCanonical_of_reach hhome hroot _ hp
  intro q hq
  obtain ⟨seed, -, rfl⟩ := List.mem_map.1 hq
  exact Builder.isCanonical_seedPath hroot seed

include hslashes

/-- Paths with equally many slashes in front are no twins. -/
theorem separateIds_of_rootSlashes : (h.importMap (h.absolute workspace)).SeparateIds
    (seeds.map (Builder.ofWorkspace h workspace).seedPath) := by
  intro p q hp hq hid
  have hcanonical := isCanonical_of_reach_seeds hhome workspace seeds hq
  rcases (Host.id_importMap_eq_iff h _ _ _ (isCanonical_of_reach_seeds hhome workspace seeds hp)
    hcanonical).1 hid with heq | htwin
  · exact heq
  · refine absurd ?_ hcanonical.rootSlashes_twin_ne
    rw [← htwin, ← hslashes p hp, hslashes q hq]

/-- The ids of a graph stand for the paths of its nodes. -/
theorem map_seedPath_nodeIds :
    (h.explore workspace seeds).nodeIds.map (Builder.ofWorkspace h workspace).seedPath =
      (h.explore workspace seeds).nodes.map (·.path) := by
  rw [Graph.nodeIds, List.map_map]
  apply List.map_congr_left
  intro n hn
  have hreach := ImportMap.reach_of_mem_nodes hn
  show (Builder.ofWorkspace h workspace).seedPath n.id = n.path
  rw [ImportMap.id_of_mem_nodes hn]
  exact Builder.seedPath_fileId h (Host.isCanonical_absolute hhome workspace)
    (isCanonical_of_reach_seeds hhome workspace seeds hreach) (hslashes _ hreach)

theorem mem_map_seedPath_nodeIds_iff (p : Path) :
    p ∈ (h.explore workspace seeds).nodeIds.map (Builder.ofWorkspace h workspace).seedPath ↔
      (h.importMap (h.absolute workspace)).Reach
        (seeds.map (Builder.ofWorkspace h workspace).seedPath) p := by
  rw [map_seedPath_nodeIds hhome workspace seeds hslashes]
  exact ImportMap.mem_nodePaths_iff (separateIds_of_rootSlashes hhome workspace seeds hslashes) p

end

/-- If neither the workspace nor a reached path begins with two slashes, a build from the ids of a graph
gives that graph again: the same nodes, all of them changed, and the same edges, in some other order. -/
theorem build_from_ids_finds_same_graph (reader : Script.TreeReader) (tree : FileTree)
    (workspace : Path) (seeds : List Path) :
    let h := Host.ofTree reader tree
    ∀ g, buildGraph h seeds workspace = .ok g → ¬ ['/', '/'] <+: h.absolute workspace →
      (∀ p, (h.importMap (h.absolute workspace)).Reach
        (seeds.map (Builder.ofWorkspace h workspace).seedPath) p → ¬ ['/', '/'] <+: p) →
      ∃ g', buildGraph h g.nodeIds workspace = .ok g' ∧
        g'.nodes.Perm (g.nodes.map fun n => { n with isChanged := true }) ∧
        g'.edges.Perm g.edges := by
  intro h g hg hroot hreach
  have hhome : h.home.isAbsolute = true := rfl
  have hslashes : ∀ p, (h.importMap (h.absolute workspace)).Reach
      (seeds.map (Builder.ofWorkspace h workspace).seedPath) p →
        (h.absolute workspace).rootSlashes = p.rootSlashes := by
    intro p hp
    rw [(Host.isCanonical_absolute hhome workspace).rootSlashes_eq_one hroot,
      (isCanonical_of_reach_seeds hhome workspace seeds hp).rootSlashes_eq_one (hreach p hp)]
  rw [buildGraph_eq_explore] at hg
  split at hg
  · next hdir =>
    obtain rfl : (h.explore workspace seeds).toGraph = g := Except.ok.inj hg
    have hseeds := mem_map_seedPath_nodeIds_iff hhome workspace seeds hslashes
    refine ⟨(h.explore workspace (h.explore workspace seeds).nodeIds).toGraph, ?_, ?_, ?_⟩
    · exact (buildGraph_eq_explore _ _ _).trans (if_pos hdir)
    · exact ImportMap.perm_nodes_of_mem_iff_reach
        (separateIds_of_rootSlashes hhome workspace seeds hslashes) hseeds
    · exact ImportMap.perm_edges_of_reach (ImportMap.reach_of_mem_iff_reach hseeds)
  · cases hg

/-- Two modules outside the workspace that import each other. -/
def outerModules : FileTree where
  home := []
  entries := [(["w".toList], .directory),
    (["a.rs".toList], .file "mod b;".toUTF8.toList),
    (["b.rs".toList], .file "mod a;".toUTF8.toList)]

/-- The surroundings of a build among them. -/
abbrev outerHost : Host := .ofTree Script.readTree outerModules

theorem targets_outerModules :
    (outerHost.importMap "/w".toList).targets "/a.rs".toList = ["/b.rs".toList] ∧
      (outerHost.importMap "/w".toList).targets "/b.rs".toList = ["/a.rs".toList] := by
  constructor
  · cbv
  · cbv

theorem reach_outerModules (p : Path) (hp : (outerHost.importMap "/w".toList).Reach
    ["/a.rs".toList] p) : p = "/a.rs".toList ∨ p = "/b.rs".toList := by
  obtain ⟨ha, hb⟩ := targets_outerModules
  induction hp with
  | seed hseed _ => exact Or.inl (List.mem_singleton.1 hseed)
  | step _ ht ih =>
    rcases ih with rfl | rfl
    · exact Or.inr (List.mem_singleton.1 (ha ▸ ht))
    · exact Or.inl (List.mem_singleton.1 (hb ▸ ht))

theorem nodeIds_outerModules : (outerHost.explore "w".toList ["../a.rs".toList]).nodeIds =
    ["../a.rs".toList, "../b.rs".toList] := by
  obtain ⟨ha, hb⟩ := targets_outerModules
  have hroot : outerHost.absolute "w".toList = "/w".toList := by cbv
  have hseeds : ["../a.rs".toList].map
      (Builder.ofWorkspace outerHost "w".toList).seedPath = ["/a.rs".toList] := by cbv
  have hida : (outerHost.importMap "/w".toList).id "/a.rs".toList = "../a.rs".toList := by cbv
  have hidb : (outerHost.importMap "/w".toList).id "/b.rs".toList = "../b.rs".toList := by cbv
  have hid : (outerHost.importMap "/w".toList).id "/a.rs".toList ≠
      (outerHost.importMap "/w".toList).id "/b.rs".toList := by
    rw [hida, hidb]
    decide
  obtain ⟨hnodes, -⟩ := ImportMap.walkSeeds_pair ha hb hid [] (List.forall_mem_nil _)
  rw [Host.explore, hseeds, hroot, Graph.nodeIds, hnodes]
  simp only [List.map_cons, List.map_nil, ImportMap.node, hida, hidb]

theorem build_from_ids_finds_same_graph_outerModules :
    ∃ g g' : Graph, buildGraph outerHost ["../a.rs".toList] "w".toList = .ok g ∧
      buildGraph outerHost g.nodeIds "w".toList = .ok g' ∧
      g.nodeIds = ["../a.rs".toList, "../b.rs".toList] ∧
      g'.nodes.Perm (g.nodes.map fun n => { n with isChanged := true }) ∧
      g'.edges.Perm g.edges := by
  have hroot : outerHost.absolute "w".toList = "/w".toList := by cbv
  have hseeds : ["../a.rs".toList].map
      (Builder.ofWorkspace outerHost "w".toList).seedPath = ["/a.rs".toList] := by cbv
  have hdir : outerHost.isDirectory "/w".toList = true := by cbv
  have hg : buildGraph outerHost ["../a.rs".toList] "w".toList =
      .ok (outerHost.explore "w".toList ["../a.rs".toList]).toGraph := by
    rw [buildGraph_eq_explore, hroot, if_pos hdir]
  have hone : ¬ ['/', '/'] <+: outerHost.absolute "w".toList := by
    rw [hroot]
    decide
  obtain ⟨g', hg', hnodes, hedges⟩ := build_from_ids_finds_same_graph Script.readTree outerModules
    "w".toList ["../a.rs".toList] _ hg hone (by
      rw [hroot, hseeds]
      intro p hp
      rcases reach_outerModules p hp with rfl | rfl <;> decide)
  exact ⟨_, g', hg, hg', nodeIds_outerModules, hnodes, hedges⟩

end ImportAtlas
