/-
# ImportAtlas.Proofs.Reach -- a build finds what is reached, and all of it

A path is reached if it is a seed that can be a node, or if a reached path imports it. This is a least
set and knows nothing of an order, of visited paths or of a stack. The results here say that a build
finds exactly this set: its ids are the ids of the nodes, each once, and the edges are those of every
reached path, each path counted once and each import as often as it stands in the file.

Each half is an invariant of the steps of a walk. What is owed enters two of them: an import of a
visited file need not be visited itself as long as it is owed (`Closed`), and the edges found together
with those owed are the edges of the visited files (`Paid`).
-/
import ImportAtlas.Proofs.Recursion

namespace ImportAtlas

namespace ImportMap

/-- The least set of paths that holds the seeds that can be nodes and everything they import. -/
inductive Reach (m : ImportMap) (seeds : List Path) : Path → Prop
  | seed {p : Path} : p ∈ seeds → m.isNode p = true → Reach m seeds p
  | step {p t : Path} : Reach m seeds p → t ∈ m.targets p → Reach m seeds t

variable {m : ImportMap} {seeds : List Path}

theorem Reach.isNode {p : Path} (hp : m.Reach seeds p) : m.isNode p = true := by
  cases hp with
  | seed _ hn => exact hn
  | step _ ht => exact m.isNode_target _ _ ht

/-! ## Nothing but what is reached -/

/-- Every path that a walk has to do with is reached, if it can be a node. -/
structure Sound (m : ImportMap) (seeds : List Path) (a : Agenda) : Prop where
  visited : ∀ p ∈ a.chart.visited.paths, m.isNode p = true → m.Reach seeds p
  owed : ∀ i ∈ a.owed, m.Reach seeds i.2
  due : ∀ p, a.due = some p → m.isNode p = true → m.Reach seeds p

theorem sound_start : m.Sound seeds {} := by
  constructor
  · intro p hp
    cases hp
  · intro i hi
    cases hi
  · intro p hp
    cases hp

theorem Sound.step {a b : Agenda} (hab : m.Step seeds a b) (ha : m.Sound seeds a) :
    m.Sound seeds b := by
  obtain ⟨hvisited, howed, hdue⟩ := ha
  cases hab with
  | seed hseed =>
    refine ⟨hvisited, howed, ?_⟩
    rintro p ⟨⟩ hn
    exact .seed hseed hn
  | follow =>
    refine ⟨hvisited, fun i hi => howed i (List.mem_cons_of_mem _ hi), ?_⟩
    rintro p ⟨⟩ -
    exact howed _ List.mem_cons_self
  | known hp => exact ⟨hvisited, howed, fun p h => nomatch h⟩
  | blind hp hn =>
    refine ⟨?_, howed, fun p h => nomatch h⟩
    intro q hq hnq
    rcases List.mem_cons.1 hq with rfl | hq
    · exact absurd hnq hn
    · exact hvisited q hq hnq
  | @fresh p w s hp hn =>
    -- The path was due, so it is reached; hence so is all that it imports.
    have hreach : m.Reach seeds p := hdue p rfl hn
    refine ⟨?_, ?_, fun p h => nomatch h⟩
    · intro q hq hnq
      rw [discover, Chart.visited_addNode] at hq
      rcases List.mem_cons.1 hq with rfl | hq
      · exact hreach
      · exact hvisited q hq hnq
    · intro i hi
      rcases List.mem_append.1 hi with hi | hi
      · obtain ⟨t, ht, rfl⟩ := List.mem_map.1 hi
        exact .step hreach ht
      · exact howed i hi

/-! ## All of what is reached -/

/-- What a visited file imports is visited, is about to be, or is owed. -/
def Closed (m : ImportMap) (a : Agenda) : Prop :=
  ∀ p ∈ a.chart.visited.paths, m.isNode p = true → ∀ t ∈ m.targets p,
    t ∈ a.chart.visited.paths ∨ a.due = some t ∨ ∃ i ∈ a.owed, i.2 = t

theorem Closed.step {a b : Agenda} (hab : m.Step seeds a b) (ha : m.Closed a) : m.Closed b := by
  intro p hp hn t ht
  cases hab with
  | seed hseed =>
    rcases ha p hp hn t ht with h | h | ⟨i, hi, -⟩
    · exact Or.inl h
    · cases h
    · cases hi
  | follow =>
    rcases ha p hp hn t ht with h | h | ⟨i, hi, rfl⟩
    · exact Or.inl h
    · cases h
    · rcases List.mem_cons.1 hi with rfl | hi
      · exact Or.inr (Or.inl rfl)
      · exact Or.inr (Or.inr ⟨i, hi, rfl⟩)
  | known hq =>
    rcases ha p hp hn t ht with h | h | h
    · exact Or.inl h
    · cases h
      exact Or.inl hq
    · exact Or.inr (Or.inr h)
  | blind hq hnq =>
    rcases List.mem_cons.1 hp with rfl | hp
    · exact absurd hn hnq
    rcases ha p hp hn t ht with h | h | h
    · exact Or.inl (List.mem_cons_of_mem _ h)
    · cases h
      exact Or.inl List.mem_cons_self
    · exact Or.inr (Or.inr h)
  | @fresh q w s hq hnq =>
    dsimp only [discover] at hp ⊢
    rw [Chart.visited_addNode] at hp ⊢
    rcases List.mem_cons.1 hp with rfl | hp
    · -- The file that has just been taken up owes all of its imports.
      exact Or.inr (Or.inr ⟨(m.id p, t), List.mem_append_left _ (List.mem_map_of_mem ht), rfl⟩)
    rcases ha p hp hn t ht with h | h | ⟨i, hi, rfl⟩
    · exact Or.inl (List.mem_cons_of_mem _ h)
    · cases h
      exact Or.inl List.mem_cons_self
    · exact Or.inr (Or.inr ⟨i, List.mem_append_right _ hi, rfl⟩)

/-- A path that is due is taken up, and stays so. -/
theorem due_or_visited_step {a b : Agenda} (hab : m.Step seeds a b) (p : Path)
    (ha : a.due = some p ∨ p ∈ a.chart.visited.paths) :
    b.due = some p ∨ p ∈ b.chart.visited.paths := by
  cases hab with
  | seed => exact Or.inr (ha.resolve_left fun h => nomatch h)
  | follow => exact Or.inr (ha.resolve_left fun h => nomatch h)
  | known hq =>
    rcases ha with h | h
    · cases h
      exact Or.inr hq
    · exact Or.inr h
  | blind hq =>
    rcases ha with h | h
    · cases h
      exact Or.inr List.mem_cons_self
    · exact Or.inr (List.mem_cons_of_mem _ h)
  | fresh hq =>
    right
    rw [discover, Chart.visited_addNode]
    rcases ha with h | h
    · cases h
      exact List.mem_cons_self
    · exact List.mem_cons_of_mem _ h

theorem mem_visited_walk {p q : Path} {s : Chart} (h : p = q ∨ q ∈ s.visited.paths) :
    q ∈ (m.walk seeds p s).visited.paths := by
  have hsteps : m.Steps seeds ⟨some p, [], s⟩ ⟨none, [], m.walk seeds p s⟩ := steps_walk p [] s
  have hend := Steps.invariant (I := fun a => a.due = some q ∨ q ∈ a.chart.visited.paths)
    (fun hab => due_or_visited_step hab q) hsteps (h.imp_left (congrArg some))
  exact hend.resolve_left fun h => nomatch h

/-- Every seed is taken up. -/
theorem mem_visited_walkSeeds {p : Path} (hp : p ∈ seeds) :
    p ∈ (m.walkSeeds seeds).visited.paths := by
  suffices hfold : ∀ (ps : List Path) (s : Chart), (p ∈ ps ∨ p ∈ s.visited.paths) →
      p ∈ (ps.foldl (fun s q => m.walk seeds q s) s).visited.paths from hfold seeds {} (Or.inl hp)
  intro ps
  induction ps with
  | nil => exact fun s h => h.resolve_left fun h => nomatch h
  | cons q ps ih =>
    intro s h
    refine ih _ ?_
    rcases h with h | h
    · rcases List.mem_cons.1 h with rfl | h
      · exact Or.inr (mem_visited_walk (Or.inl rfl))
      · exact Or.inl h
    · exact Or.inr (mem_visited_walk (Or.inr h))

/-- The visited paths that can be nodes are the reached ones. -/
theorem mem_visited_walkSeeds_iff (p : Path) :
    (p ∈ (m.walkSeeds seeds).visited.paths ∧ m.isNode p = true) ↔ m.Reach seeds p := by
  constructor
  · rintro ⟨hp, hn⟩
    exact (Steps.invariant Sound.step steps_walkSeeds sound_start).visited p hp hn
  · intro hp
    have hclosed : m.Closed { chart := m.walkSeeds seeds } :=
      Steps.invariant Closed.step steps_walkSeeds fun q hq => nomatch hq
    refine ⟨?_, hp.isNode⟩
    -- In the end nothing is due or owed, so the visited paths are closed under imports.
    induction hp with
    | seed hseed _ => exact mem_visited_walkSeeds hseed
    | step hq ht ih =>
      rcases hclosed _ ih hq.isNode _ ht with h | h | ⟨i, hi, -⟩
      · exact h
      · cases h
      · cases hi

/-! ## Nodes -/

/-- The nodes stand for the visited files: one node for each id, made from one of the files with that
id. -/
structure Listed (m : ImportMap) (seeds : List Path) (s : Chart) : Prop where
  nodup : s.nodeIds.Nodup
  ids : ∀ id, id ∈ s.nodeIds ↔ ∃ p ∈ s.visited.paths, m.isNode p = true ∧ m.id p = id
  nodes : ∀ n ∈ s.nodes, n.path ∈ s.visited.paths ∧ m.isNode n.path = true ∧
    n = m.node seeds n.path

theorem listed_start : m.Listed seeds {} := by
  refine ⟨List.nodup_nil, fun id => ?_, fun n hn => nomatch hn⟩
  constructor
  · intro h
    cases h
  · rintro ⟨p, hp, -⟩
    cases hp

/-- A file whose id is taken gives no second node; otherwise its node comes last. -/
theorem nodeIds_addNode (s : Chart) (n : FileNode) :
    (s.addNode n).nodeIds = if n.id ∈ s.nodeIds then s.nodeIds else s.nodeIds ++ [n.id] := by
  unfold Chart.addNode
  split
  · rfl
  · rw [Graph.nodeIds, List.map_append]
    rfl

theorem mem_nodeIds_addNode (s : Chart) (n : FileNode) (id : Path) :
    id ∈ (s.addNode n).nodeIds ↔ id ∈ s.nodeIds ∨ n.id = id := by
  rw [nodeIds_addNode]
  split
  · next hn => exact ⟨Or.inl, fun h => h.elim (fun h => h) fun h => h ▸ hn⟩
  · rw [List.mem_append, List.mem_singleton, eq_comm]

theorem Listed.mark {s : Chart} {p : Path} (hs : m.Listed seeds s) (hp : p ∉ s.visited.paths)
    (hn : ¬ m.isNode p = true) : m.Listed seeds (s.mark p hp) := by
  obtain ⟨hnodup, hids, hnodes⟩ := hs
  refine ⟨hnodup, fun id => (hids id).trans ⟨?_, ?_⟩, ?_⟩
  · rintro ⟨q, hq, hnq, rfl⟩
    exact ⟨q, List.mem_cons_of_mem _ hq, hnq, rfl⟩
  · rintro ⟨q, hq, hnq, rfl⟩
    rcases List.mem_cons.1 hq with rfl | hq
    · exact absurd hnq hn
    · exact ⟨q, hq, hnq, rfl⟩
  · intro n hmem
    obtain ⟨hpath, hrest⟩ := hnodes n hmem
    exact ⟨List.mem_cons_of_mem _ hpath, hrest⟩

theorem Listed.discover {s : Chart} {p : Path} (hs : m.Listed seeds s)
    (hp : p ∉ s.visited.paths) (hn : m.isNode p = true) :
    m.Listed seeds (m.discover seeds p s hp) := by
  obtain ⟨hnodup, hids, hnodes⟩ := hs
  unfold ImportMap.discover
  refine ⟨?_, fun id => ?_, ?_⟩
  · -- A second file with the same id leaves the ids as they are.
    rw [nodeIds_addNode]
    split
    · exact hnodup
    · next hnew =>
      rw [List.nodup_append]
      refine ⟨hnodup, List.pairwise_singleton _ _, fun a ha b hb heq => ?_⟩
      rw [List.mem_singleton.1 hb] at heq
      exact hnew (heq ▸ ha)
  · rw [mem_nodeIds_addNode, Chart.visited_addNode]
    show id ∈ s.nodeIds ∨ m.id p = id ↔ _
    rw [hids, Chart.paths_mark]
    constructor
    · rintro (⟨q, hq, hnq, rfl⟩ | rfl)
      · exact ⟨q, List.mem_cons_of_mem _ hq, hnq, rfl⟩
      · exact ⟨p, List.mem_cons_self, hn, rfl⟩
    · rintro ⟨q, hq, hnq, rfl⟩
      rcases List.mem_cons.1 hq with rfl | hq
      · exact Or.inr rfl
      · exact Or.inl ⟨q, hq, hnq, rfl⟩
  · intro n hmem
    rw [Chart.visited_addNode, Chart.paths_mark]
    unfold Chart.addNode at hmem
    have hold : n ∈ s.nodes → n.path ∈ p :: s.visited.paths ∧ m.isNode n.path = true ∧
        n = m.node seeds n.path := fun h =>
      ⟨List.mem_cons_of_mem _ (hnodes n h).1, (hnodes n h).2⟩
    split at hmem
    · exact hold hmem
    · rcases List.mem_append.1 hmem with hmem | hmem
      · exact hold hmem
      · rw [List.mem_singleton.1 hmem]
        exact ⟨List.mem_cons_self, hn, rfl⟩

theorem Listed.step {a b : Agenda} (hab : m.Step seeds a b) (ha : m.Listed seeds a.chart) :
    m.Listed seeds b.chart := by
  cases hab with
  | seed => exact ha
  | follow => exact ⟨ha.nodup, ha.ids, ha.nodes⟩
  | known => exact ha
  | blind hp hn => exact ha.mark hp hn
  | fresh hp hn => exact ha.discover hp hn

theorem listed_walkSeeds : m.Listed seeds (m.walkSeeds seeds) :=
  Steps.invariant (I := fun a => m.Listed seeds a.chart) Listed.step steps_walkSeeds listed_start

/-! ## Edges -/

/-- The edges found and those owed are together the edges of the visited files, up to their order. -/
def Paid (m : ImportMap) (a : Agenda) : Prop :=
  (a.chart.edges ++ a.owed.map m.edge).Perm
    ((a.chart.visited.paths.filter m.isNode).flatMap m.edgesFrom)

theorem Paid.step {a b : Agenda} (hab : m.Step seeds a b) (ha : m.Paid a) : m.Paid b := by
  unfold Paid at ha ⊢
  cases hab with
  | seed => exact ha
  | follow =>
    rw [Chart.edges_addEdge, List.append_assoc]
    exact ha
  | known => exact ha
  | blind hp hn =>
    rw [Chart.paths_mark, List.filter_cons_of_neg hn]
    exact ha
  | @fresh p w s hp hn =>
    dsimp only [discover] at ha ⊢
    rw [Chart.edges_addNode, Chart.visited_addNode, Chart.paths_mark, List.filter_cons_of_pos hn,
      List.flatMap_cons, List.map_append, map_edge_importsOf]
    -- The new file's edges are owed behind those found and counted before them.
    have hswap : (s.edges ++ (m.edgesFrom p ++ w.map m.edge)).Perm
        (m.edgesFrom p ++ (s.edges ++ w.map m.edge)) := by
      rw [← List.append_assoc, ← List.append_assoc]
      exact List.perm_append_comm.append_right _
    exact hswap.trans (ha.append_left _)

theorem paid_walkSeeds : m.Paid { chart := m.walkSeeds seeds } :=
  Steps.invariant Paid.step steps_walkSeeds (List.Perm.refl [])

/-! ## What a walk finds -/

theorem mem_nodeIds_walkSeeds_iff (id : Path) :
    id ∈ (m.walkSeeds seeds).nodeIds ↔ ∃ p, m.Reach seeds p ∧ m.id p = id := by
  rw [listed_walkSeeds.ids]
  constructor
  · rintro ⟨p, hp, hn, hid⟩
    exact ⟨p, (mem_visited_walkSeeds_iff p).1 ⟨hp, hn⟩, hid⟩
  · rintro ⟨p, hp, hid⟩
    obtain ⟨hvisited, hn⟩ := (mem_visited_walkSeeds_iff p).2 hp
    exact ⟨p, hvisited, hn, hid⟩

theorem reach_of_mem_nodes {n : FileNode} (hn : n ∈ (m.walkSeeds seeds).nodes) :
    m.Reach seeds n.path := by
  obtain ⟨hvisited, hnode, -⟩ := listed_walkSeeds.nodes n hn
  exact (mem_visited_walkSeeds_iff n.path).1 ⟨hvisited, hnode⟩

/-- The reached paths can be listed without repetition, and the edges are those of the listed paths. -/
theorem exists_reached_edges_walkSeeds :
    ∃ reached : List Path, reached.Nodup ∧ (∀ p, p ∈ reached ↔ m.Reach seeds p) ∧
      (m.walkSeeds seeds).edges.Perm (reached.flatMap m.edgesFrom) := by
  refine ⟨(m.walkSeeds seeds).visited.paths.filter m.isNode,
    (m.walkSeeds seeds).visited.nodup.filter _, fun p => ?_, ?_⟩
  · rw [List.mem_filter]
    exact mem_visited_walkSeeds_iff p
  · have hpaid : m.Paid { chart := m.walkSeeds seeds } := paid_walkSeeds
    unfold Paid at hpaid
    rwa [List.map_nil, List.append_nil] at hpaid

end ImportMap

/-- A graph of all that is reached and of nothing else. -/
structure Graph.Covers (g : Graph) (m : ImportMap) (seeds : List Path) : Prop where
  /-- There is one node for each id. -/
  nodup_ids : g.nodeIds.Nodup
  /-- The ids are those of the reached paths. -/
  mem_ids : ∀ id, id ∈ g.nodeIds ↔ ∃ p, m.Reach seeds p ∧ m.id p = id
  /-- Every node is made from a reached path. -/
  paths : ∀ n ∈ g.nodes, m.Reach seeds n.path
  /-- The edges are those of the reached paths, each path taken once. -/
  edges : ∃ reached : List Path, reached.Nodup ∧ (∀ p, p ∈ reached ↔ m.Reach seeds p) ∧
    g.edges.Perm (reached.flatMap m.edgesFrom)
  /-- Both ends of an edge are nodes. -/
  ends : ∀ e ∈ g.edges, e.source ∈ g.nodeIds ∧ e.target ∈ g.nodeIds

theorem ImportMap.covers_walkSeeds (m : ImportMap) (seeds : List Path) :
    (m.walkSeeds seeds).toGraph.Covers m seeds := by
  refine ⟨listed_walkSeeds.nodup, mem_nodeIds_walkSeeds_iff, fun n => reach_of_mem_nodes,
    exists_reached_edges_walkSeeds, ?_⟩
  intro e he
  obtain ⟨reached, -, hreached, hperm⟩ : ∃ reached : List Path, reached.Nodup ∧
      (∀ p, p ∈ reached ↔ m.Reach seeds p) ∧
      (m.walkSeeds seeds).edges.Perm (reached.flatMap m.edgesFrom) :=
    exists_reached_edges_walkSeeds
  obtain ⟨p, hp, hfrom⟩ := List.mem_flatMap.1 (hperm.mem_iff.1 he)
  obtain ⟨t, ht, rfl⟩ := List.mem_map.1 hfrom
  have hsource : m.Reach seeds p := (hreached p).1 hp
  exact ⟨(mem_nodeIds_walkSeeds_iff _).2 ⟨p, hsource, rfl⟩,
    (mem_nodeIds_walkSeeds_iff _).2 ⟨t, hsource.step ht, rfl⟩⟩

/-! ## Builds -/

/-- On a workspace that is a directory, a build gives a graph of exactly the paths that are reached from
its seeds. -/
theorem build_covers_reached (h : Host) (workspace : Path) (seeds : List Path)
    (hdir : h.isDirectory (h.absolute workspace) = true) :
    ∃ g : Graph, buildGraph h seeds workspace = .ok g ∧
      g.Covers (h.importMap (h.absolute workspace))
        (seeds.map (Builder.ofWorkspace h workspace).seedPath) := by
  refine ⟨(h.explore workspace seeds).toGraph, ?_, ImportMap.covers_walkSeeds _ _⟩
  rw [buildGraph_eq_explore, if_pos hdir]

theorem build_covers_reached_mutualModules :
    mutualHost.isDirectory (mutualHost.absolute "w".toList) = true ∧
      ∃ g : Graph,
        buildGraph mutualHost ["a.rs".toList, "missing.rs".toList] "w".toList = .ok g ∧
        g.Covers (mutualHost.importMap
            (mutualHost.absolute "w".toList))
          (["a.rs".toList, "missing.rs".toList].map
            (Builder.ofWorkspace mutualHost "w".toList).seedPath) :=
  ⟨isDirectory_mutualModules, build_covers_reached _ _ _ isDirectory_mutualModules⟩

end ImportAtlas
