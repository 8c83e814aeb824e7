/-
# ImportAtlas.Proofs.Expansion -- which files an id stands for

A walk takes up no path twice, but nodes and edges are known by ids. The edges that start at an id are
the imports of all visited files that have it. Each file's imports keep the order of the file: whatever
the walk does below one import comes between two of its edges and leaves their order alone. A second
file with the same id puts its own edges, as one block, between two edges of the first.

Ids are ways from the workspace, so two reached paths have the same id exactly if they are twins, one
with a slash in front and one with two. An id thus stands for one file or for two. Where it stands for
two, the node is made from the one that was taken up first, and a seed that is the other one does not
make it changed.
-/
import ImportAtlas.Proofs.CanonicalReach
import ImportAtlas.Proofs.Seeds

namespace ImportAtlas

namespace ImportMap

variable {m : ImportMap} {seeds : List Path}

/-! ## The files of an id -/

/-- The visited files with an id, the latest first. -/
def filesAt (m : ImportMap) (id : Path) (s : Chart) : List Path :=
  s.visited.paths.filter fun p => m.isNode p && m.id p = id

/-- The edges from an id, first those noted and then those owed. -/
def edgesAt (m : ImportMap) (id : Path) (a : Agenda) : List Edge :=
  (a.chart.edges ++ a.owed.map m.edge).filter (·.source = id)

/-- Edges of some files, the latest first: those of each stand as a block somewhere in those of the
files before it. -/
def Nested (m : ImportMap) : List Path → List Edge → Prop
  | [], es => es = []
  | p :: ps, es => ∃ noted owed, m.Nested ps (noted ++ owed) ∧ es = noted ++ (m.edgesFrom p ++ owed)

theorem filesAt_mark {p : Path} {s : Chart} (hp : p ∉ s.visited.paths)
    (hn : ¬ m.isNode p = true) (id : Path) : m.filesAt id (s.mark p hp) = m.filesAt id s := by
  unfold filesAt
  rw [Chart.paths_mark, List.filter_cons_of_neg (by simp [hn])]

theorem filesAt_discover {p : Path} {s : Chart} (hp : p ∉ s.visited.paths)
    (hn : m.isNode p = true) (id : Path) :
    m.filesAt id (m.discover seeds p s hp) =
      if m.id p = id then p :: m.filesAt id s else m.filesAt id s := by
  unfold filesAt
  rw [paths_discover, List.filter_cons]
  simp only [hn, Bool.true_and, decide_eq_true_eq]

theorem filter_edgesFrom (id p : Path) :
    (m.edgesFrom p).filter (·.source = id) = if m.id p = id then m.edgesFrom p else [] := by
  split
  · next hid =>
    rw [List.filter_eq_self]
    intro e he
    obtain ⟨t, -, rfl⟩ := List.mem_map.1 he
    exact decide_eq_true hid
  · next hid =>
    rw [List.filter_eq_nil_iff]
    intro e he
    obtain ⟨t, -, rfl⟩ := List.mem_map.1 he
    exact fun h => hid (of_decide_eq_true h)

/-- A file that is taken up owes its own imports before everything else. -/
theorem edgesAt_fresh (id p : Path) (w : List (Path × Path)) (s : Chart)
    (hp : p ∉ s.visited.paths) :
    m.edgesAt id ⟨none, m.importsOf p ++ w, m.discover seeds p s hp⟩ =
      s.edges.filter (·.source = id) ++ ((if m.id p = id then m.edgesFrom p else []) ++
        (w.map m.edge).filter (·.source = id)) := by
  unfold edgesAt discover
  rw [Chart.edges_addNode, List.map_append, map_edge_importsOf, List.filter_append,
    List.filter_append, filter_edgesFrom]
  rfl

theorem Nested.step {id : Path} {a b : Agenda} (hab : m.Step seeds a b)
    (ha : m.Nested (m.filesAt id a.chart) (m.edgesAt id a)) :
    m.Nested (m.filesAt id b.chart) (m.edgesAt id b) := by
  cases hab with
  | seed => exact ha
  | @follow source t w s =>
    -- An owed edge goes to the end of those noted, which is where it stood already.
    have hsame : m.edgesAt id ⟨some t, w, s.addEdge (m.edge (source, t))⟩ =
        m.edgesAt id ⟨none, (source, t) :: w, s⟩ := by
      unfold edgesAt
      rw [Chart.edges_addEdge, List.append_assoc]
      rfl
    rw [hsame]
    exact ha
  | known => exact ha
  | blind hp hn =>
    rw [filesAt_mark hp hn]
    exact ha
  | @fresh p w s hp hn =>
    rw [filesAt_discover hp hn, edgesAt_fresh]
    rw [edgesAt, List.filter_append] at ha
    by_cases hid : m.id p = id
    · rw [if_pos hid, if_pos hid]
      exact ⟨_, _, ha, rfl⟩
    · rw [if_neg hid, if_neg hid, List.nil_append]
      exact ha

theorem nested_walkSeeds (id : Path) :
    m.Nested (m.filesAt id (m.walkSeeds seeds))
      ((m.walkSeeds seeds).edges.filter (·.source = id)) := by
  have hend := Steps.invariant
    (I := fun a => m.Nested (m.filesAt id a.chart) (m.edgesAt id a)) Nested.step
    (@steps_walkSeeds m seeds) rfl
  rwa [edgesAt, List.map_nil, List.append_nil] at hend

theorem nested_singleton_iff (p : Path) (es : List Edge) :
    m.Nested [p] es ↔ es = m.edgesFrom p := by
  constructor
  · rintro ⟨noted, owed, hnone, rfl⟩
    obtain ⟨rfl, rfl⟩ := List.append_eq_nil_iff.1 hnone
    rw [List.nil_append, List.append_nil]
  · rintro rfl
    exact ⟨[], [], rfl, (List.append_nil _).symm⟩

theorem Nested.pair {p q : Path} {es : List Edge} (hes : m.Nested [q, p] es) :
    ∃ before after, m.edgesFrom p = before ++ after ∧
      es = before ++ (m.edgesFrom q ++ after) := by
  obtain ⟨before, after, hfirst, hes⟩ := hes
  exact ⟨before, after, ((nested_singleton_iff p _).1 hfirst).symm, hes⟩

/-! ## The first file of an id -/

/-- Every node is made from the first file with its id. -/
def FirstNamed (m : ImportMap) (s : Chart) : Prop :=
  ∀ n ∈ s.nodes, (m.filesAt n.id s).getLast? = some n.path

theorem FirstNamed.discover {p : Path} {s : Chart} (hlisted : m.Listed seeds s)
    (hs : m.FirstNamed s) (hp : p ∉ s.visited.paths) (hn : m.isNode p = true) :
    m.FirstNamed (m.discover seeds p s hp) := by
  intro n hmem
  rw [filesAt_discover hp hn]
  -- A later file goes in front of those there are.
  have hold : n ∈ s.nodes →
      (if m.id p = n.id then p :: m.filesAt n.id s else m.filesAt n.id s).getLast? =
        some n.path := by
    intro hmem
    have hlast := hs n hmem
    split
    · rw [List.getLast?_cons, hlast]
      rfl
    · exact hlast
  unfold ImportMap.discover Chart.addNode at hmem
  split at hmem
  · exact hold hmem
  · next hnew =>
    rcases List.mem_append.1 hmem with hmem | hmem
    · exact hold hmem
    · -- The id is new, so no visited file has it.
      obtain rfl := List.mem_singleton.1 hmem
      have hnone : m.filesAt (m.id p) s = [] := by
        refine List.filter_eq_nil_iff.2 fun q hq hid => hnew ?_
        obtain ⟨hnq, hid⟩ := Bool.and_eq_true_iff.1 hid
        exact (hlisted.ids _).2 ⟨q, hq, hnq, of_decide_eq_true hid⟩
      show (if m.id p = m.id p then p :: m.filesAt (m.id p) s else _).getLast? = some p
      rw [if_pos rfl, hnone]
      rfl

theorem FirstNamed.step {a b : Agenda} (hab : m.Step seeds a b) (hlisted : m.Listed seeds a.chart)
    (ha : m.FirstNamed a.chart) : m.FirstNamed b.chart := by
  cases hab with
  | seed => exact ha
  | follow => exact ha
  | known => exact ha
  | blind hp hn =>
    intro n hmem
    rw [filesAt_mark hp hn]
    exact ha n hmem
  | fresh hp hn => exact ha.discover hlisted hp hn

theorem firstNamed_walkSeeds : m.FirstNamed (m.walkSeeds seeds) :=
  (Steps.invariant (I := fun a => m.Listed seeds a.chart ∧ m.FirstNamed a.chart)
    (fun hab ha => ⟨ha.1.step hab, ha.2.step hab ha.1⟩) steps_walkSeeds
    ⟨listed_start, fun _ hn => nomatch hn⟩).2

/-! ## Ids of one file and of two -/

theorem mem_filesAt_walkSeeds_iff (id p : Path) :
    p ∈ m.filesAt id (m.walkSeeds seeds) ↔ m.Reach seeds p ∧ m.id p = id := by
  unfold filesAt
  rw [List.mem_filter, Bool.and_eq_true_iff, decide_eq_true_iff, ← and_assoc]
  exact and_congr_left' (mem_visited_walkSeeds_iff p)

theorem nodup_filesAt_walkSeeds (id : Path) : (m.filesAt id (m.walkSeeds seeds)).Nodup :=
  (m.walkSeeds seeds).visited.nodup.filter _

theorem eq_singleton_of_mem_iff {ps : List Path} {p : Path} (hnodup : ps.Nodup)
    (hmem : ∀ q, q ∈ ps ↔ q = p) : ps = [p] := by
  rw [← List.perm_singleton, List.perm_ext_iff_of_nodup hnodup (List.nodup_singleton p)]
  intro q
  rw [hmem, List.mem_singleton]

/-- The edges from an id that only one reached path has are the imports of that path, in order. -/
theorem filter_edges_walkSeeds {p : Path} (hp : m.Reach seeds p)
    (hown : ∀ q, m.Reach seeds q → m.id q = m.id p → q = p) :
    (m.walkSeeds seeds).edges.filter (·.source = m.id p) = m.edgesFrom p := by
  have hnested := @nested_walkSeeds m seeds (m.id p)
  have hfiles : m.filesAt (m.id p) (m.walkSeeds seeds) = [p] := by
    refine eq_singleton_of_mem_iff (nodup_filesAt_walkSeeds _) fun q => ?_
    rw [mem_filesAt_walkSeeds_iff]
    constructor
    · rintro ⟨hq, hid⟩
      exact hown q hq hid
    · rintro rfl
      exact ⟨hp, rfl⟩
  rw [hfiles] at hnested
  exact (nested_singleton_iff p _).1 hnested

/-- Where one more reached path has the id of a node, its imports come as a block between two of the
node's own. -/
theorem exists_filter_edges_walkSeeds {n : FileNode} (hn : n ∈ (m.walkSeeds seeds).nodes) {q : Path}
    (hq : m.Reach seeds q) (hid : m.id q = n.id) (hne : q ≠ n.path)
    (hown : ∀ r, m.Reach seeds r → m.id r = n.id → r = n.path ∨ r = q) :
    ∃ before after, m.edgesFrom n.path = before ++ after ∧
      (m.walkSeeds seeds).edges.filter (·.source = n.id) =
        before ++ (m.edgesFrom q ++ after) := by
  have hnested := @nested_walkSeeds m seeds n.id
  have hnodup := @nodup_filesAt_walkSeeds m seeds n.id
  have hmem := @mem_filesAt_walkSeeds_iff m seeds n.id
  -- The node's own file was the first, so it is the last in the list.
  obtain ⟨later, hfiles⟩ := List.getLast?_eq_some_iff.1 (firstNamed_walkSeeds n hn)
  rw [hfiles] at hnested hnodup hmem
  obtain ⟨hlater, -, hapart⟩ := List.nodup_append.1 hnodup
  have honly : later = [q] := by
    refine eq_singleton_of_mem_iff hlater fun r => ?_
    constructor
    · intro hr
      obtain ⟨hreach, hrid⟩ := (hmem r).1 (List.mem_append_left _ hr)
      exact (hown r hreach hrid).resolve_left (hapart r hr n.path (List.mem_singleton.2 rfl))
    · rintro rfl
      have hr := (hmem r).2 ⟨hq, hid⟩
      exact (List.mem_append.1 hr).resolve_right fun h => hne (List.mem_singleton.1 h)
  rw [honly] at hnested
  exact hnested.pair

end ImportMap

/-! ## Builds -/

/-- What the edges and flags of a graph say about the files that have the ids of its nodes. -/
structure Graph.NamesFiles (g : Graph) (m : ImportMap) (seeds : List Path) : Prop where
  /-- Reached paths have the same id exactly if they are the same or twins. -/
  id_eq_iff : ∀ p q, m.Reach seeds p → m.Reach seeds q → (m.id p = m.id q ↔ p = q ∨ p = q.twin)
  /-- The edges from the id of a node are the imports of its file, in order and as often, unless the
  twin of its path is reached too. -/
  edges : ∀ n ∈ g.nodes, ¬ m.Reach seeds n.path.twin →
    g.edges.filter (·.source = n.id) = m.edgesFrom n.path
  /-- Otherwise the imports of the twin come once, as a block between two of those. -/
  edges_twin : ∀ n ∈ g.nodes, m.Reach seeds n.path.twin →
    ∃ before after, m.edgesFrom n.path = before ++ after ∧
      g.edges.filter (·.source = n.id) = before ++ (m.edgesFrom n.path.twin ++ after)
  /-- A seed with the id of a node makes it changed, unless only the twin of its path is a seed. -/
  changed : ∀ n ∈ g.nodes,
    (∃ p ∈ seeds, m.id p = n.id) ↔ n.isChanged = true ∨ n.path.twin ∈ seeds

theorem ImportMap.namesFiles_walkSeeds {m : ImportMap} {seeds : List Path}
    (hid : ∀ p q : Path, p.IsCanonical → q.IsCanonical → (m.id p = m.id q ↔ p = q ∨ p = q.twin))
    (hseeds : ∀ p ∈ seeds, p.IsCanonical) (hreach : ∀ p, m.Reach seeds p → p.IsCanonical) :
    (m.walkSeeds seeds).toGraph.NamesFiles m seeds := by
  have hshare : ∀ n ∈ (m.walkSeeds seeds).nodes, ∀ q : Path, q.IsCanonical →
      (m.id q = n.id ↔ q = n.path ∨ q = n.path.twin) := by
    intro n hn q hq
    rw [id_of_mem_nodes hn]
    exact hid q n.path hq (hreach _ (reach_of_mem_nodes hn))
  refine ⟨fun p q hp hq => hid p q (hreach p hp) (hreach q hq), ?_, ?_, ?_⟩
  · intro n hn htwin
    rw [id_of_mem_nodes hn]
    refine filter_edges_walkSeeds (reach_of_mem_nodes hn) fun q hq hsame => ?_
    rcases (hshare n hn q (hreach q hq)).1 (hsame.trans (id_of_mem_nodes hn).symm) with h | h
    · exact h
    · exact absurd (h ▸ hq) htwin
  · intro n hn htwin
    have hpath : n.path.IsCanonical := hreach _ (reach_of_mem_nodes hn)
    exact exists_filter_edges_walkSeeds hn htwin ((hshare n hn _ hpath.twin).2 (Or.inr rfl))
      hpath.twin_ne fun r hr => (hshare n hn r (hreach r hr)).1
  · intro n hn
    have hflag : n.isChanged = true ↔ n.path ∈ seeds := by
      rw [(listed_walkSeeds.nodes n hn).2.2]
      exact decide_eq_true_iff
    rw [hflag]
    constructor
    · rintro ⟨p, hp, hsame⟩
      rcases (hshare n hn p (hseeds p hp)).1 hsame with rfl | rfl
      · exact Or.inl hp
      · exact Or.inr hp
    · rintro (hp | hp)
      · exact ⟨n.path, hp, (id_of_mem_nodes hn).symm⟩
      · exact ⟨n.path.twin, hp, (hshare n hn _ (hseeds _ hp)).2 (Or.inr rfl)⟩

/-- On a workspace that is a directory, a build expands each id once for every reached path that has it:
for one path, or for two that are twins. -/
theorem build_expands_ids_up_to_twins (h : Host) (workspace : Path) (seeds : List Path)
    (hhome : h.home.isAbsolute = true) (hdir : h.isDirectory (h.absolute workspace) = true) :
    ∃ g : Graph, buildGraph h seeds workspace = .ok g ∧
      g.NamesFiles (h.importMap (h.absolute workspace))
        (seeds.map (Builder.ofWorkspace h workspace).seedPath) := by
  have hroot : (h.absolute workspace).IsCanonical := Host.isCanonical_absolute hhome workspace
  have hseeds : ∀ p ∈ seeds.map (Builder.ofWorkspace h workspace).seedPath, p.IsCanonical := by
    intro p hp
    obtain ⟨seed, -, rfl⟩ := List.mem_map.1 hp
    exact Builder.isCanonical_seedPath hroot seed
  have hreach : ∀ p, (h.importMap (h.absolute workspace)).Reach
      (seeds.map (Builder.ofWorkspace h workspace).seedPath) p → p.IsCanonical :=
    fun p hp => Host.isCanonical_of_reach hhome hroot hseeds hp
  refine ⟨(h.explore workspace seeds).toGraph, ?_, ?_⟩
  · rw [buildGraph_eq_explore, if_pos hdir]
  · exact ImportMap.namesFiles_walkSeeds (Host.id_importMap_eq_iff h _) hseeds hreach

theorem build_expands_ids_up_to_twins_mutualModules :
    let h := mutualHost
    let seeds := ["a.rs".toList, "//w/b.rs".toList]
    h.home.isAbsolute = true ∧ h.isDirectory (h.absolute "w".toList) = true ∧
      ∃ g : Graph, buildGraph h seeds "w".toList = .ok g ∧
        g.NamesFiles (h.importMap (h.absolute "w".toList))
          (seeds.map (Builder.ofWorkspace h "w".toList).seedPath) :=
  ⟨rfl, isDirectory_mutualModules,
    build_expands_ids_up_to_twins _ _ _ rfl isDirectory_mutualModules⟩

/-- Two files that import each other, taken up from one of them, and then their twins from the other. -/
theorem ImportMap.walkSeeds_twins {m : ImportMap} {a b a' b' : Path} (ha : m.targets a = [b])
    (hb : m.targets b = [a]) (ha' : m.targets a' = [b']) (hb' : m.targets b' = [a'])
    (hapart : [a, b, a', b'].Nodup) (hida : m.id a' = m.id a) (hidb : m.id b' = m.id b)
    (hid : m.id a ≠ m.id b) :
    (m.walkSeeds [a, b']).nodes = [m.node [a, b'] a, m.node [a, b'] b] ∧
      (m.walkSeeds [a, b']).edges.filter (·.source = m.id a) = m.edgesFrom a ++ m.edgesFrom a' := by
  have hna : m.isNode a = true := m.isNode_target b a (hb ▸ List.mem_singleton.2 rfl)
  have hnb : m.isNode b = true := m.isNode_target a b (ha ▸ List.mem_singleton.2 rfl)
  have hna' : m.isNode a' = true := m.isNode_target b' a' (hb' ▸ List.mem_singleton.2 rfl)
  have hnb' : m.isNode b' = true := m.isNode_target a' b' (ha' ▸ List.mem_singleton.2 rfl)
  simp only [List.nodup_cons, List.mem_cons, List.not_mem_nil, or_false, not_or] at hapart
  obtain ⟨⟨hab, haa', hab'⟩, ⟨hba', hbb'⟩, ha'b', -⟩ := hapart
  rw [walkSeeds, List.foldl_cons, List.foldl_cons, List.foldl_nil,
    walk_of_isNode (p := a) (by simp) hna, ha, walkAll_cons, walkAll_nil,
    walk_of_isNode (p := b) (by simp [Ne.symm hab]) hnb, hb, walkAll_cons, walkAll_nil,
    walk_of_mem (p := a) (by simp),
    walk_of_isNode (p := b') (by simp [Ne.symm hab', Ne.symm hbb']) hnb', hb', walkAll_cons,
    walkAll_nil,
    walk_of_isNode (p := a') (by simp [Ne.symm haa', Ne.symm hba', ha'b']) hna', ha', walkAll_cons,
    walkAll_nil, walk_of_mem (p := b') (by simp)]
  constructor
  · simp [discover, Chart.addNode, Chart.mark, Chart.addEdge, Graph.nodeIds, node, hida, hidb,
      Ne.symm hid]
  · simp [discover, Chart.mark, edge, edgesFrom, ha, ha', hida, hidb, Ne.symm hid]

/-- Where a seed is written with two slashes, an id is expanded a second time, and the seed with the id
of a node leaves it unchanged. -/
theorem build_expands_twins_mutualModules :
    let h := mutualHost
    let seeds := ["a.rs".toList, "//w/b.rs".toList]
    ∃ g : Graph, buildGraph h seeds "w".toList = .ok g ∧
      (∃ n ∈ g.nodes, g.edges.filter (·.source = n.id) ≠
        (h.importMap (h.absolute "w".toList)).edgesFrom n.path) ∧
      ∃ n ∈ g.nodes, n.isChanged = false ∧ ∃ seed ∈ seeds,
        (h.importMap (h.absolute "w".toList)).id
          ((Builder.ofWorkspace h "w".toList).seedPath seed) = n.id := by
  intro h seeds
  have hroot : h.absolute "w".toList = "/w".toList := by cbv
  have hpaths : seeds.map (Builder.ofWorkspace h "w".toList).seedPath =
      ["/w/a.rs".toList, "//w/b.rs".toList] := by cbv
  have hseed : (Builder.ofWorkspace h "w".toList).seedPath "//w/b.rs".toList =
      "//w/b.rs".toList := by cbv
  have ha : (h.importMap "/w".toList).targets "/w/a.rs".toList = ["/w/b.rs".toList] :=
    targets_mutualModules.1
  have hb : (h.importMap "/w".toList).targets "/w/b.rs".toList = ["/w/a.rs".toList] :=
    targets_mutualModules.2
  have ha' : (h.importMap "/w".toList).targets "//w/a.rs".toList = ["//w/b.rs".toList] := by cbv
  have hb' : (h.importMap "/w".toList).targets "//w/b.rs".toList = ["//w/a.rs".toList] := by cbv
  obtain ⟨hida, hidb⟩ := ids_mutualModules
  have hida' : (h.importMap "/w".toList).id "//w/a.rs".toList = "a.rs".toList := by cbv
  have hidb' : (h.importMap "/w".toList).id "//w/b.rs".toList = "b.rs".toList := by cbv
  have hapart : ["/w/a.rs".toList, "/w/b.rs".toList, "//w/a.rs".toList, "//w/b.rs".toList].Nodup := by
    decide
  obtain ⟨hnodes, hedges⟩ := ImportMap.walkSeeds_twins ha hb ha' hb' hapart
    (hida'.trans hida.symm) (hidb'.trans hidb.symm) ids_ne_mutualModules
  have hexplore : h.explore "w".toList seeds = (h.importMap "/w".toList).walkSeeds
      ["/w/a.rs".toList, "//w/b.rs".toList] := by
    unfold Host.explore
    rw [hpaths, hroot]
  refine ⟨(h.explore "w".toList seeds).toGraph, ?_, ?_, ?_⟩
  · rw [buildGraph_eq_explore, if_pos isDirectory_mutualModules]
  · rw [hexplore, hnodes, hroot]
    refine ⟨_, List.mem_cons_self, fun hedges' => ?_⟩
    have hnone := List.append_right_eq_self.1 (hedges.symm.trans hedges')
    rw [ImportMap.edgesFrom, ha'] at hnone
    cases hnone
  · rw [hexplore, hnodes, hroot]
    refine ⟨_, List.mem_cons_of_mem _ List.mem_cons_self, ?_, "//w/b.rs".toList,
      List.mem_cons_of_mem _ List.mem_cons_self, ?_⟩
    · show decide ("/w/b.rs".toList ∈ ["/w/a.rs".toList, "//w/b.rs".toList]) = false
      decide
    · rw [hseed]
      exact hidb'.trans hidb.symm

end ImportAtlas
