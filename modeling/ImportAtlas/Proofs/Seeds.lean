/-
# ImportAtlas.Proofs.Seeds -- what the seeds of a build decide

The seeds of a build are used for two things. The walk starts from each of them in turn, and a node is
changed if its path is one of them. The flag is set when the node is made and never looked at again, so
that it comes out right rests on all seeds being known before the first one is taken up.

Which files are found, which edges there are and which nodes are changed depends on the set of paths
that the seeds stand for and on nothing else: not on their order, not on how often one is given or how
it is written. Only the order of the answer does, and where two reached paths have the same id, which
of them its node is made from.
-/
import ImportAtlas.Proofs.Reach

namespace ImportAtlas

namespace ImportMap

variable {m : ImportMap} {seeds seeds' : List Path}

/-! ## The same seeds in another order -/

/-- What is reached through reached paths is reached. -/
theorem Reach.trans (hseeds : ∀ p ∈ seeds, m.isNode p = true → m.Reach seeds' p) {p : Path}
    (hp : m.Reach seeds p) : m.Reach seeds' p := by
  induction hp with
  | seed hseed hn => exact hseeds _ hseed hn
  | step _ ht ih => exact ih.step ht

theorem reach_congr (hsame : ∀ p, p ∈ seeds ↔ p ∈ seeds') (p : Path) :
    m.Reach seeds p ↔ m.Reach seeds' p := by
  constructor
  · intro hp
    exact hp.trans fun q hq hn => .seed ((hsame q).1 hq) hn
  · intro hp
    exact hp.trans fun q hq hn => .seed ((hsame q).2 hq) hn

theorem node_congr (hsame : ∀ p, p ∈ seeds ↔ p ∈ seeds') (p : Path) :
    m.node seeds p = m.node seeds' p := by
  unfold node
  rw [decide_eq_decide.2 (hsame p)]

theorem perm_nodeIds_walkSeeds (hsame : ∀ p, p ∈ seeds ↔ p ∈ seeds') :
    (m.walkSeeds seeds).nodeIds.Perm (m.walkSeeds seeds').nodeIds := by
  rw [List.perm_ext_iff_of_nodup listed_walkSeeds.nodup listed_walkSeeds.nodup]
  intro id
  rw [mem_nodeIds_walkSeeds_iff, mem_nodeIds_walkSeeds_iff]
  exact exists_congr fun p => and_congr_left' (reach_congr hsame p)

/-- Walks that reach the same paths note the same edges. -/
theorem perm_edges_of_reach (hreach : ∀ p, m.Reach seeds p ↔ m.Reach seeds' p) :
    (m.walkSeeds seeds).edges.Perm (m.walkSeeds seeds').edges := by
  obtain ⟨ps, hnodup, hmem, hperm⟩ := @exists_reached_edges_walkSeeds m seeds
  obtain ⟨ps', hnodup', hmem', hperm'⟩ := @exists_reached_edges_walkSeeds m seeds'
  -- Both builds expand the same files, each of them once.
  have hfiles : ps.Perm ps' := by
    rw [List.perm_ext_iff_of_nodup hnodup hnodup']
    intro p
    rw [hmem, hmem']
    exact hreach p
  exact hperm.trans ((hfiles.flatMap_right m.edgesFrom).trans hperm'.symm)

theorem perm_edges_walkSeeds (hsame : ∀ p, p ∈ seeds ↔ p ∈ seeds') :
    (m.walkSeeds seeds).edges.Perm (m.walkSeeds seeds').edges :=
  perm_edges_of_reach (reach_congr hsame)

/-! ## Nodes of their own -/

/-- No two reached paths have the same id. -/
def SeparateIds (m : ImportMap) (seeds : List Path) : Prop :=
  ∀ p q, m.Reach seeds p → m.Reach seeds q → m.id p = m.id q → p = q

theorem separateIds_congr (hsame : ∀ p, p ∈ seeds ↔ p ∈ seeds') (hsep : m.SeparateIds seeds) :
    m.SeparateIds seeds' := by
  intro p q hp hq
  exact hsep p q ((reach_congr hsame p).2 hp) ((reach_congr hsame q).2 hq)

theorem id_of_mem_nodes {n : FileNode} (hn : n ∈ (m.walkSeeds seeds).nodes) :
    n.id = m.id n.path :=
  congrArg FileNode.id (listed_walkSeeds.nodes n hn).2.2

/-- With separate ids every reached path has a node made from it, and there are no others. -/
theorem mem_nodes_walkSeeds_iff (hsep : m.SeparateIds seeds) (n : FileNode) :
    n ∈ (m.walkSeeds seeds).nodes ↔ m.Reach seeds n.path ∧ n = m.node seeds n.path := by
  constructor
  · intro hn
    exact ⟨reach_of_mem_nodes hn, (listed_walkSeeds.nodes n hn).2.2⟩
  · rintro ⟨hreach, hnode⟩
    have hid : m.id n.path ∈ (m.walkSeeds seeds).nodeIds :=
      (mem_nodeIds_walkSeeds_iff _).2 ⟨n.path, hreach, rfl⟩
    obtain ⟨n', hn', hid'⟩ := List.mem_map.1 hid
    have hnode' : n' = m.node seeds n'.path := (listed_walkSeeds.nodes n' hn').2.2
    -- The node with this id was made from a reached path, so from this one.
    have hpath : n'.path = n.path :=
      hsep _ _ (reach_of_mem_nodes hn') hreach ((id_of_mem_nodes hn').symm.trans hid')
    rw [hnode, ← hpath, ← hnode']
    exact hn'

theorem perm_nodes_walkSeeds (hsame : ∀ p, p ∈ seeds ↔ p ∈ seeds') (hsep : m.SeparateIds seeds) :
    (m.walkSeeds seeds).nodes.Perm (m.walkSeeds seeds').nodes := by
  have hnodup : ∀ ps : List Path, (m.walkSeeds ps).nodes.Nodup := fun ps =>
    List.Nodup.of_map FileNode.id listed_walkSeeds.nodup
  rw [List.perm_ext_iff_of_nodup (hnodup seeds) (hnodup seeds')]
  intro n
  rw [mem_nodes_walkSeeds_iff hsep, mem_nodes_walkSeeds_iff (separateIds_congr hsame hsep),
    reach_congr hsame, node_congr hsame]

end ImportMap

/-! ## Builds -/

theorem Builder.eq_of_build_eq_ok {h : Host} {b : Builder} {seeds : List Path} {g : Graph}
    (hg : (b.build h seeds).1 = .ok g) :
    g = ((h.importMapFrom b.root b.roots).walkSeeds (seeds.map b.seedPath)).toGraph := by
  rw [Builder.graph_build] at hg
  split at hg
  · exact (Except.ok.inj hg).symm
  · cases hg

/-- Whatever a builder remembers and whichever way its walk takes, a node is changed exactly if its path
is what one of the seeds stands for, and every seed that can be a node has its id among the nodes. -/
theorem build_flags_seeds (h : Host) (b : Builder) (seeds : List Path) (g : Graph)
    (hg : (b.build h seeds).1 = .ok g) :
    (∀ n ∈ g.nodes, n.isChanged = true ↔
        ∃ seed ∈ seeds, Path.normalize (Path.join b.root seed) = n.path) ∧
      ∀ seed ∈ seeds, isGraphFile h (Path.normalize (Path.join b.root seed)) = true →
        fileId h b.root (Path.normalize (Path.join b.root seed)) ∈ g.nodeIds := by
  rw [Builder.eq_of_build_eq_ok hg]
  constructor
  · intro n hn
    obtain ⟨-, -, hnode⟩ := ImportMap.listed_walkSeeds.nodes n hn
    rw [hnode]
    show decide (n.path ∈ seeds.map b.seedPath) = true ↔ _
    rw [decide_eq_true_iff, List.mem_map]
    rfl
  · intro seed hseed hfile
    have hmem : b.seedPath seed ∈ seeds.map b.seedPath := List.mem_map_of_mem hseed
    exact (ImportMap.mem_nodeIds_walkSeeds_iff _).2 ⟨b.seedPath seed, .seed hmem hfile, rfl⟩

theorem build_flags_seeds_mutualModules :
    let h := mutualHost
    let b := Builder.ofWorkspace h "w".toList
    ∃ g : Graph, (b.build h ["a.rs".toList, "../w/b.rs".toList]).1 = .ok g ∧
      "b.rs".toList ∈ g.nodeIds ∧
      ∀ n ∈ g.nodes, n.isChanged = true ↔ ∃ seed ∈ ["a.rs".toList, "../w/b.rs".toList],
        Path.normalize (Path.join b.root seed) = n.path := by
  intro h b
  have hbuild := b.graph_build h ["a.rs".toList, "../w/b.rs".toList]
  rw [show h.isDirectory b.root = true from isDirectory_mutualModules, if_pos rfl] at hbuild
  have hseed : Path.normalize (Path.join b.root "../w/b.rs".toList) = "/w/b.rs".toList := by cbv
  have hfile : isGraphFile h "/w/b.rs".toList = true := by cbv
  have hid : fileId h b.root "/w/b.rs".toList = "b.rs".toList := by cbv
  obtain ⟨hflags, hfound⟩ := build_flags_seeds h b _ _ hbuild
  refine ⟨_, hbuild, ?_, hflags⟩
  have hmem := hfound "../w/b.rs".toList (by simp) (hseed.symm ▸ hfile)
  rwa [hseed, hid] at hmem

/-- Two lists of seeds that stand for the same paths fail alike or give graphs with the same ids and, up
to their order, the same edges. Where no two reached paths have the same id, the nodes are the same
records too. -/
theorem build_ignores_seed_order (h : Host) (workspace : Path) (seeds seeds' : List Path)
    (hsame : ∀ p, p ∈ seeds.map (Builder.ofWorkspace h workspace).seedPath ↔
      p ∈ seeds'.map (Builder.ofWorkspace h workspace).seedPath) :
    (∀ fault, buildGraph h seeds workspace = .error fault ↔
        buildGraph h seeds' workspace = .error fault) ∧
      ∀ g, buildGraph h seeds workspace = .ok g →
        ∃ g', buildGraph h seeds' workspace = .ok g' ∧
          g.nodeIds.Perm g'.nodeIds ∧ g.edges.Perm g'.edges ∧
          ((h.importMap (h.absolute workspace)).SeparateIds
              (seeds.map (Builder.ofWorkspace h workspace).seedPath) →
            g.nodes.Perm g'.nodes) := by
  rw [buildGraph_eq_explore, buildGraph_eq_explore]
  cases h.isDirectory (h.absolute workspace) with
  | false => exact ⟨fun fault => Iff.rfl, fun g hg => nomatch hg⟩
  | true =>
    refine ⟨fun fault => ⟨fun hf => (nomatch hf), fun hf => (nomatch hf)⟩, ?_⟩
    intro g hg
    obtain rfl : (h.explore workspace seeds).toGraph = g := Except.ok.inj hg
    exact ⟨_, rfl, ImportMap.perm_nodeIds_walkSeeds hsame, ImportMap.perm_edges_walkSeeds hsame,
      ImportMap.perm_nodes_walkSeeds hsame⟩

/-- Two files that import each other, taken up from one of them. Further seeds among them find nothing
new. -/
theorem ImportMap.walkSeeds_pair {m : ImportMap} {a b : Path} (ha : m.targets a = [b])
    (hb : m.targets b = [a]) (hid : m.id a ≠ m.id b) (more : List Path)
    (hmore : ∀ p ∈ more, p = a ∨ p = b) :
    (m.walkSeeds (a :: more)).nodes = [m.node (a :: more) a, m.node (a :: more) b] ∧
      (m.walkSeeds (a :: more)).edges = m.edgesFrom a ++ m.edgesFrom b := by
  have hna : m.isNode a = true := m.isNode_target b a (hb ▸ List.mem_singleton.2 rfl)
  have hnb : m.isNode b = true := m.isNode_target a b (ha ▸ List.mem_singleton.2 rfl)
  have hab : a ≠ b := fun heq => hid (congrArg m.id heq)
  generalize hseeds : a :: more = seeds
  -- Once both files are visited, nothing changes the chart.
  have hkeep (s : Chart) (hs : s.visited.paths = [b, a]) :
      more.foldl (fun s p => m.walk seeds p s) s = s := by
    clear hseeds
    induction more with
    | nil => rfl
    | cons p more ih =>
      have hp : p ∈ s.visited.paths := by
        rw [hs]
        rcases hmore p List.mem_cons_self with rfl | rfl
        · exact List.mem_cons_of_mem _ List.mem_cons_self
        · exact List.mem_cons_self
      rw [List.foldl_cons, walk_of_mem hp]
      exact ih fun q hq => hmore q (List.mem_cons_of_mem _ hq)
  obtain ⟨s, hs⟩ : ∃ s, m.walk seeds a {} = s := ⟨_, rfl⟩
  have hwalk : m.walkSeeds seeds = more.foldl (fun s p => m.walk seeds p s) s := by
    rw [walkSeeds, ← hseeds, List.foldl_cons, hseeds, hs]
  rw [walk_of_isNode (p := a) (by simp) hna, ha, walkAll_cons, walkAll_nil,
    walk_of_isNode (p := b) (by simp [Ne.symm hab]) hnb, hb, walkAll_cons, walkAll_nil,
    walk_of_mem (p := a) (by simp)] at hs
  subst hs
  rw [hwalk, hkeep _ (by simp)]
  constructor
  · simp [discover, Chart.addNode, Chart.mark, Chart.addEdge, Graph.nodeIds, node, Ne.symm hid]
  · simp [discover, Chart.mark, edge, edgesFrom, ha, hb]

theorem targets_mutualModules :
    mutualHost.targets "/w".toList "/w/a.rs".toList = ["/w/b.rs".toList] ∧
      mutualHost.targets "/w".toList "/w/b.rs".toList = ["/w/a.rs".toList] := by
  constructor
  · cbv
  · cbv

theorem ids_mutualModules :
    (mutualHost.importMap "/w".toList).id "/w/a.rs".toList = "a.rs".toList ∧
      (mutualHost.importMap "/w".toList).id "/w/b.rs".toList = "b.rs".toList := by
  constructor
  · cbv
  · cbv

theorem ids_ne_mutualModules : (mutualHost.importMap "/w".toList).id "/w/a.rs".toList ≠
    (mutualHost.importMap "/w".toList).id "/w/b.rs".toList := by
  rw [ids_mutualModules.1, ids_mutualModules.2]
  decide

theorem separateIds_mutualModules (seeds : List Path)
    (hseeds : ∀ p ∈ seeds, p = "/w/a.rs".toList ∨ p = "/w/b.rs".toList) :
    (mutualHost.importMap "/w".toList).SeparateIds seeds := by
  obtain ⟨ha, hb⟩ := targets_mutualModules
  have hreach : ∀ p, (mutualHost.importMap "/w".toList).Reach seeds p →
      p = "/w/a.rs".toList ∨ p = "/w/b.rs".toList := by
    intro p hp
    induction hp with
    | seed hseed _ => exact hseeds _ hseed
    | step _ ht ih =>
      rcases ih with rfl | rfl
      · exact Or.inr (List.mem_singleton.1 (ha ▸ ht))
      · exact Or.inl (List.mem_singleton.1 (hb ▸ ht))
  intro p q hp hq hpq
  rcases hreach p hp with rfl | rfl <;> rcases hreach q hq with rfl | rfl
  · rfl
  · exact absurd hpq ids_ne_mutualModules
  · exact absurd hpq.symm ids_ne_mutualModules
  · rfl

/-- The graph of the two modules, whichever of them is the first seed. -/
theorem nodeIds_mutualModules {seeds paths : List Path}
    (hpaths : seeds.map (Builder.ofWorkspace mutualHost "w".toList).seedPath = paths)
    (hmore : ∀ p ∈ paths.tail, p = "/w/a.rs".toList ∨ p = "/w/b.rs".toList) :
    (paths.head? = some "/w/a.rs".toList →
        (mutualHost.explore "w".toList seeds).nodeIds = ["a.rs".toList, "b.rs".toList]) ∧
      (paths.head? = some "/w/b.rs".toList →
        (mutualHost.explore "w".toList seeds).nodeIds = ["b.rs".toList, "a.rs".toList]) := by
  obtain ⟨ha, hb⟩ := targets_mutualModules
  have hroot : mutualHost.absolute "w".toList = "/w".toList := by cbv
  obtain ⟨hida, hidb⟩ := ids_mutualModules
  rw [Host.explore, hpaths, hroot]
  cases paths with
  | nil =>
    constructor
    · intro hfirst
      cases hfirst
    · intro hfirst
      cases hfirst
  | cons p more =>
    constructor
    · intro hfirst
      obtain rfl := Option.some.inj hfirst
      rw [Graph.nodeIds, (ImportMap.walkSeeds_pair ha hb ids_ne_mutualModules more hmore).1]
      simp only [List.map_cons, List.map_nil, ImportMap.node, hida, hidb]
    · intro hfirst
      obtain rfl := Option.some.inj hfirst
      have hmore' : ∀ q ∈ more, q = "/w/b.rs".toList ∨ q = "/w/a.rs".toList :=
        fun q hq => (hmore q hq).symm
      rw [Graph.nodeIds, (ImportMap.walkSeeds_pair hb ha ids_ne_mutualModules.symm more hmore').1]
      simp only [List.map_cons, List.map_nil, ImportMap.node, hida, hidb]

theorem buildGraph_mutualModules (seeds : List Path) :
    buildGraph mutualHost seeds "w".toList = .ok (mutualHost.explore "w".toList seeds).toGraph := by
  rw [buildGraph_eq_explore, if_pos isDirectory_mutualModules]

theorem build_ignores_seed_order_mutualModules :
    let h := mutualHost
    let seeds := ["a.rs".toList, "b.rs".toList]
    let seeds' := ["/w/b.rs".toList, "b.rs".toList, "./x/../a.rs".toList]
    (∀ p, p ∈ seeds.map (Builder.ofWorkspace h "w".toList).seedPath ↔
        p ∈ seeds'.map (Builder.ofWorkspace h "w".toList).seedPath) ∧
      ∃ g g', buildGraph h seeds "w".toList = .ok g ∧ buildGraph h seeds' "w".toList = .ok g' ∧
        g.nodeIds = ["a.rs".toList, "b.rs".toList] ∧ g'.nodeIds = ["b.rs".toList, "a.rs".toList] ∧
        g.nodeIds.Perm g'.nodeIds ∧ g.edges.Perm g'.edges ∧ g.nodes.Perm g'.nodes := by
  intro h seeds seeds'
  have hpaths : seeds.map (Builder.ofWorkspace h "w".toList).seedPath =
      ["/w/a.rs".toList, "/w/b.rs".toList] := by cbv
  have hpaths' : seeds'.map (Builder.ofWorkspace h "w".toList).seedPath =
      ["/w/b.rs".toList, "/w/b.rs".toList, "/w/a.rs".toList] := by cbv
  have hsame : ∀ p, p ∈ seeds.map (Builder.ofWorkspace h "w".toList).seedPath ↔
      p ∈ seeds'.map (Builder.ofWorkspace h "w".toList).seedPath := by
    intro p
    rw [hpaths, hpaths']
    grind
  have hroot : h.absolute "w".toList = "/w".toList := by cbv
  have hfirst : (h.explore "w".toList seeds).nodeIds = _ :=
    (nodeIds_mutualModules hpaths (by simp)).1 rfl
  have hsecond : (h.explore "w".toList seeds').nodeIds = _ :=
    (nodeIds_mutualModules hpaths' (by simp)).2 rfl
  obtain ⟨g', hg', hids, hedges, hnodes⟩ :=
    (build_ignores_seed_order h "w".toList seeds seeds' hsame).2 _ (buildGraph_mutualModules seeds)
  obtain rfl := Except.ok.inj (hg'.symm.trans (buildGraph_mutualModules seeds'))
  refine ⟨hsame, _, _, buildGraph_mutualModules seeds, hg', hfirst, hsecond, hids, hedges, hnodes ?_⟩
  rw [hroot]
  refine separateIds_mutualModules _ fun p hp => ?_
  rw [hpaths] at hp
  simpa using hp

end ImportAtlas
