/-
# ImportAtlas.Proofs.Reuse -- builders that are used again

A build leaves nothing behind in its builder but the crate roots that were looked up. A later build goes
by them, also if the surroundings have changed and a search would find another root. So a used builder
and a new one differ in nothing but the imports of files below `crate` that are resolved from a
remembered root.

The results here say how far that goes. Every remembered root is the one that a search found in one of
the earlier builds. A used builder gives the same answer as a new one if it reads the same imports from
every file that the new one reaches, and, as long as ids tell the files apart, only then. In particular
the answers are the same as long as the crate roots of the reached files stay where they were, whatever
else has changed.
-/
import ImportAtlas.Proofs.Expansion

namespace ImportAtlas

namespace ImportMap

variable {m m' : ImportMap} {seeds : List Path}

/-! ## Maps that agree on what is reached -/

/-- Two maps with the same files under the same ids. -/
structure SameFiles (m m' : ImportMap) : Prop where
  isNode : m.isNode = m'.isNode
  id : m.id = m'.id

theorem SameFiles.discover_eq (hfiles : m.SameFiles m') {p : Path} {s : Chart}
    (hp : p ∉ s.visited.paths) : m.discover seeds p s hp = m'.discover seeds p s hp := by
  unfold discover node
  rw [hfiles.id]

theorem SameFiles.edge_eq (hfiles : m.SameFiles m') (i : Path × Path) : m.edge i = m'.edge i := by
  unfold edge
  rw [hfiles.id]

/-- A walk looks at the imports of reached paths only. -/
theorem walk_congr (hfiles : m.SameFiles m') :
    (∀ (p : Path) (s : Chart), (∀ q, m.Reach [p] q → m.targets q = m'.targets q) →
        m.walk seeds p s = m'.walk seeds p s) ∧
      ∀ (id : Path) (ts : List Path) (s : Chart),
        (∀ q, m.Reach ts q → m.targets q = m'.targets q) →
        m.walkAll seeds id ts s = m'.walkAll seeds id ts s := by
  refine walkWithin.mutual_induct m seeds _ _ ?known ?fresh ?blind ?nil ?cons
  case known =>
    intro p s hp _
    rw [walk_of_mem hp, walk_of_mem hp]
  case fresh =>
    intro p s hp hn _ ih hsame
    have hself : m.Reach [p] p := .seed (List.mem_singleton.2 rfl) hn
    have hbelow : ∀ q, m.Reach (m.targets p) q → m.Reach [p] q := fun q hq =>
      hq.trans fun t ht _ => hself.step ht
    have hn' : m'.isNode p = true := hfiles.isNode ▸ hn
    rw [walk_of_isNode hp hn, walk_of_isNode hp hn', ih fun q hq => hsame q (hbelow q hq),
      hsame p hself, hfiles.discover_eq, hfiles.id]
  case blind =>
    intro p s hp hn _
    have hn' : ¬ m'.isNode p = true := hfiles.isNode ▸ hn
    rw [walk_of_not_isNode hp hn, walk_of_not_isNode hp hn']
  case nil =>
    intro id s _
    rw [walkAll_nil, walkAll_nil]
  case cons =>
    intro id s t ts _ ihFirst _ ihRest hsame
    have hfirst : ∀ q, m.Reach [t] q → m.targets q = m'.targets q := fun q hq =>
      hsame q (hq.trans fun u hu hn => .seed (List.mem_singleton.1 hu ▸ List.mem_cons_self) hn)
    have hrest : ∀ q, m.Reach ts q → m.targets q = m'.targets q := fun q hq =>
      hsame q (hq.trans fun u hu hn => .seed (List.mem_cons_of_mem _ hu) hn)
    rw [walkAll_cons, walkAll_cons, ← hfiles.edge_eq, ← ihFirst hfirst]
    exact ihRest hrest

theorem walkSeeds_congr (hfiles : m.SameFiles m')
    (hsame : ∀ p, m.Reach seeds p → m.targets p = m'.targets p) :
    m.walkSeeds seeds = m'.walkSeeds seeds := by
  unfold walkSeeds
  refine List.foldl_ext _ _ _ fun s p hp => (walk_congr hfiles).1 p s fun q hq => ?_
  exact hsame q (hq.trans fun r hr hn => .seed (List.mem_singleton.1 hr ▸ hp) hn)

/-! ## Graphs that show the same imports -/

/-- No two paths that either map reaches have the same id. -/
def SeparateTogether (m m' : ImportMap) (seeds : List Path) : Prop :=
  ∀ p q, m.Reach seeds p ∨ m'.Reach seeds p → m.Reach seeds q ∨ m'.Reach seeds q →
    m.id p = m.id q → p = q

theorem eq_of_map_eq {α β : Type} {f : α → β} {as bs : List α}
    (hinj : ∀ a ∈ as, ∀ b ∈ bs, f a = f b → a = b) (heq : as.map f = bs.map f) : as = bs := by
  induction as generalizing bs with
  | nil => exact (List.map_eq_nil_iff.1 heq.symm).symm
  | cons a as ih =>
    cases bs with
    | nil => cases heq
    | cons b bs =>
      obtain ⟨hhead, htail⟩ := List.cons.inj heq
      have hab : a = b := hinj a List.mem_cons_self b List.mem_cons_self hhead
      have hrest : as = bs := ih (fun x hx y hy =>
        hinj x (List.mem_cons_of_mem _ hx) y (List.mem_cons_of_mem _ hy)) htail
      rw [hab, hrest]

/-- Where ids tell the files apart, the graph of a walk shows every reached path and its imports. -/
theorem targets_eq_of_toGraph_eq (hfiles : m.SameFiles m') (hsep : m.SeparateTogether m' seeds)
    (heq : (m.walkSeeds seeds).toGraph = (m'.walkSeeds seeds).toGraph) {p : Path}
    (hp : m.Reach seeds p) : m.targets p = m'.targets p := by
  have hedges : (m.walkSeeds seeds).edges = (m'.walkSeeds seeds).edges := congrArg Graph.edges heq
  have hp' : m'.Reach seeds p := by
    have hid : m.id p ∈ (m.walkSeeds seeds).nodeIds := (mem_nodeIds_walkSeeds_iff _).2 ⟨p, hp, rfl⟩
    obtain ⟨n, hn, hnid⟩ := List.mem_map.1 hid
    have hn' : n ∈ (m'.walkSeeds seeds).nodes := congrArg Graph.nodes heq ▸ hn
    have hpath : n.path = p :=
      hsep _ _ (Or.inl (reach_of_mem_nodes hn)) (Or.inl hp) ((id_of_mem_nodes hn).symm.trans hnid)
    exact hpath ▸ reach_of_mem_nodes hn'
  have hfrom : m.edgesFrom p = m'.edgesFrom p := by
    rw [← filter_edges_walkSeeds hp fun q hq hid => hsep q p (Or.inl hq) (Or.inl hp) hid,
      ← filter_edges_walkSeeds hp' fun q hq hid =>
        hsep q p (Or.inr hq) (Or.inr hp') (hfiles.id ▸ hid), hedges, hfiles.id]
  unfold edgesFrom at hfrom
  rw [← hfiles.id] at hfrom
  refine eq_of_map_eq (fun t ht u hu htu => ?_) hfrom
  exact hsep t u (Or.inl (hp.step ht)) (Or.inr (hp'.step hu)) (congrArg Edge.target htu)

end ImportMap

theorem Host.sameFiles_importMapFrom (h : Host) (workspace : Path) (roots : Crate.Roots) :
    (h.importMap workspace).SameFiles (h.importMapFrom workspace roots) := ⟨rfl, rfl⟩

/-! ## What a builder remembers -/

namespace Builder

/-- A builder after some builds, each with the surroundings it met and its seeds. -/
def after (b : Builder) (past : List (Host × List Path)) : Builder :=
  past.foldl (fun b build => (b.build build.1 build.2).2.1) b

/-- A build leaves the workspace of its builder and all answers about crate roots as they were. -/
theorem build_keeps (h : Host) (b : Builder) (seeds : List Path) :
    (b.build h seeds).2.1.root = b.root ∧
      (b.build h seeds).2.1.roots.answer h b.root = b.roots.answer h b.root := by
  unfold build
  split
  · exact ⟨rfl, (b.chart_survey h seeds).1⟩
  · exact ⟨rfl, rfl⟩

theorem root_after (b : Builder) (past : List (Host × List Path)) :
    (b.after past).root = b.root := by
  induction past generalizing b with
  | nil => rfl
  | cons build past ih =>
    show ((b.build build.1 build.2).2.1.after past).root = b.root
    rw [ih, (b.build_keeps build.1 build.2).1]

theorem after_eq (root : Path) (past : List (Host × List Path)) :
    after { root } past = { root, roots := (after { root } past).roots } :=
  congrArg (fun r => Builder.mk r (after { root } past).roots) (root_after { root } past)

/-- What one build adds to the memory is what a search finds there. -/
theorem get?_of_get?_build {h : Host} {b : Builder} {seeds : List Path} {dir : Path}
    {answer : Option Path} (hget : (b.build h seeds).2.1.roots.get? dir = some answer) :
    b.roots.get? dir = some answer ∨ answer = Crate.rootAt h b.root dir := by
  have hkeep := congrFun (b.build_keeps h seeds).2 dir
  rw [Crate.Roots.answer, Crate.Roots.answer, hget] at hkeep
  cases hold : b.roots.get? dir with
  | some old =>
    rw [hold] at hkeep
    exact Or.inl (congrArg some hkeep.symm)
  | none =>
    rw [hold] at hkeep
    exact Or.inr hkeep

/-- Everything that a builder remembers, it remembered at the outset or found by a search in one of its
builds. -/
theorem exists_rootAt_of_get?_after {b : Builder} {past : List (Host × List Path)} {dir : Path}
    {answer : Option Path} (hget : (b.after past).roots.get? dir = some answer) :
    b.roots.get? dir = some answer ∨
      ∃ build ∈ past, answer = Crate.rootAt build.1 b.root dir := by
  induction past generalizing b with
  | nil => exact Or.inl hget
  | cons build past ih =>
    rcases ih (b := (b.build build.1 build.2).2.1) hget with hfirst | ⟨later, hmem, hanswer⟩
    · rcases get?_of_get?_build hfirst with hold | hnew
      · exact Or.inl hold
      · exact Or.inr ⟨build, List.mem_cons_self, hnew⟩
    · rw [(b.build_keeps build.1 build.2).1] at hanswer
      exact Or.inr ⟨later, List.mem_cons_of_mem _ hmem, hanswer⟩

/-- A directory is answered as by a search if all earlier searches found the same there. -/
theorem answer_after {root : Path} {past : List (Host × List Path)} {h : Host} {dir : Path}
    (hsame : ∀ build ∈ past, Crate.rootAt build.1 root dir = Crate.rootAt h root dir) :
    (Builder.after { root } past).roots.answer h root dir = Crate.rootAt h root dir := by
  unfold Crate.Roots.answer
  cases hget : (Builder.after { root } past).roots.get? dir with
  | none => rfl
  | some answer =>
    rcases exists_rootAt_of_get?_after hget with hstart | ⟨build, hmem, hanswer⟩
    · cases hstart
    · exact hanswer.trans (hsame build hmem)

section Memory

variable {h : Host} {root : Path} {roots : Crate.Roots} {seeds : List Path}

theorem graph_build_fresh :
    (build h { root } seeds).1 =
      if h.isDirectory root then
        .ok ((h.importMap root).walkSeeds (seeds.map (seedPath { root }))).toGraph
      else .error ⟨root⟩ := by
  rw [graph_build, Host.importMapFrom_eq rfl]

/-- A builder gives what a new one gives if it reads the same imports from every file that the new one
reaches. -/
theorem build_eq_of_targetsFrom_eq
    (hsame : ∀ p, (h.importMap root).Reach (seeds.map (seedPath { root })) p →
      h.targetsFrom root roots p = h.targets root p) :
    (build h { root, roots } seeds).1 = (build h { root } seeds).1 := by
  have hwalk : (h.importMap root).walkSeeds (seeds.map (seedPath { root })) =
      (h.importMapFrom root roots).walkSeeds (seeds.map (seedPath { root })) :=
    ImportMap.walkSeeds_congr (h.sameFiles_importMapFrom _ _) fun p hp => (hsame p hp).symm
  rw [graph_build_fresh, graph_build, hwalk]
  rfl

theorem targetsFrom_eq_of_build_eq (hdir : h.isDirectory root = true)
    (hsep : (h.importMap root).SeparateTogether (h.importMapFrom root roots)
      (seeds.map (seedPath { root })))
    (heq : (build h { root, roots } seeds).1 = (build h { root } seeds).1) {p : Path}
    (hp : (h.importMap root).Reach (seeds.map (seedPath { root })) p) :
    h.targetsFrom root roots p = h.targets root p := by
  rw [graph_build_fresh, graph_build, if_pos hdir, if_pos hdir] at heq
  exact (ImportMap.targets_eq_of_toGraph_eq (h.sameFiles_importMapFrom _ _) hsep
    (Except.ok.inj heq).symm hp).symm

end Memory

end Builder

/-- A builder that has been used before goes by the crate roots that searches found in its earlier
builds, and by nothing else of the past. It gives what a new builder would give on the surroundings as
they are if no reached file's crate root was another one in any of those builds. And as long as ids tell
the files apart, it does so exactly if the remembered roots leave the imports of all reached files as
they are. -/
theorem reused_builder_goes_by_found_roots (root : Path) (past : List (Host × List Path)) (h : Host)
    (seeds : List Path) :
    let fresh : Builder := { root }
    let used := fresh.after past
    let reached := (h.importMap root).Reach (seeds.map fresh.seedPath)
    (∀ dir answer, used.roots.get? dir = some answer →
        ∃ build ∈ past, answer = Crate.rootAt build.1 root dir) ∧
      ((∀ p, reached p → ∀ build ∈ past, Crate.rootAt build.1 root (h.directoryOf p) =
          Crate.rootAt h root (h.directoryOf p)) →
        (used.build h seeds).1 = (fresh.build h seeds).1) ∧
      (h.isDirectory root = true →
        (h.importMap root).SeparateTogether (h.importMapFrom root used.roots)
          (seeds.map fresh.seedPath) →
        ((used.build h seeds).1 = (fresh.build h seeds).1 ↔
          ∀ p, reached p → h.targetsFrom root used.roots p = h.targets root p)) := by
  intro fresh used reached
  have hused : used = { root, roots := used.roots } := Builder.after_eq root past
  refine ⟨?_, ?_, ?_⟩
  · intro dir answer hget
    exact (Builder.exists_rootAt_of_get?_after hget).resolve_left fun h => nomatch h
  · intro hstay
    rw [hused]
    refine Builder.build_eq_of_targetsFrom_eq fun p hp => ?_
    exact Host.targetsFrom_eq_targets (Builder.answer_after (hstay p hp))
  · intro hdir hsep
    rw [hused]
    constructor
    · intro heq p hp
      exact Builder.targetsFrom_eq_of_build_eq hdir hsep heq hp
    · exact Builder.build_eq_of_targetsFrom_eq

/-! ## A root that has moved -/

/-- Taking up a file remembers what resolving its imports found. -/
theorem roots_expand {h : Host} {root p : Path} {isChanged : Bool} {dialect : Dialect} {s : Survey}
    {text : List Char} (hread : h.read p = .ok text) :
    (expand h root isChanged p dialect s).2.roots =
      (resolveAll h root s.roots dialect p text).roots := by
  unfold expand
  dsimp only
  rw [hread, Survey.roots_addNode]
  dsimp only
  split <;> rfl

theorem run_of_no_targets (h : Host) (root : Path) (seeds : List Path) (id : Path) (s : Survey) :
    run h root seeds [⟨id, []⟩] s = s := by
  rw [run, run]

/-- A walk from a file without imported files remembers what resolving its imports found. -/
theorem roots_traverse_of_no_targets {h : Host} {root p : Path} {seeds : List Path} {s : Survey}
    {dialect : Dialect} {text : List Char} (hp : p ∉ s.visited.paths) (hfile : h.isFile p = true)
    (hd : Dialect.ofPath? p = some dialect) (hread : h.read p = .ok text)
    (hnone : h.targetsFrom root s.roots p = []) :
    (traverse h root seeds s p).roots = (resolveAll h root s.roots dialect p text).roots := by
  have hvisit : visit h root true p s = expand h root true p dialect (s.mark p hp) := by
    unfold visit enter
    rw [dif_neg hp, if_pos hfile, hd]
  have hroots : (expand h root true p dialect (s.mark p hp)).2.roots =
      (resolveAll h root s.roots dialect p text).roots := roots_expand hread
  obtain ⟨-, -, hframe⟩ := expand_spec (s := s.mark p hp) true hd rfl
  unfold traverse
  rw [hvisit]
  rcases hexpand : expand h root true p dialect (s.mark p hp) with ⟨frame, s'⟩
  rw [hexpand] at hroots hframe
  rcases hframe with hframe | ⟨hframe, -⟩
  · obtain rfl : frame = some ⟨fileId h root p, []⟩ := hnone ▸ hframe
    show (run h root seeds [⟨fileId h root p, []⟩] s').roots = _
    rw [run_of_no_targets]
    exact hroots
  · obtain rfl : frame = none := hframe
    exact hroots

theorem Builder.roots_build_of_no_targets {h : Host} {root seed p : Path} {dialect : Dialect}
    {text : List Char} (hdir : h.isDirectory root = true) (hseed : seedPath { root } seed = p)
    (hfile : h.isFile p = true) (hd : Dialect.ofPath? p = some dialect) (hread : h.read p = .ok text)
    (hnone : h.targetsFrom root [] p = []) :
    (build h { root } [seed]).2.1.roots = (resolveAll h root [] dialect p text).roots := by
  subst hseed
  unfold build survey
  rw [if_pos hdir]
  exact roots_traverse_of_no_targets List.not_mem_nil hfile hd hread hnone

/-- Two modules whose crate has no manifest yet. -/
def looseModules : FileTree where
  home := []
  entries := [(["w".toList], .directory),
    (["w".toList, "a.rs".toList], .file "use crate::b;".toUTF8.toList),
    (["w".toList, "b.rs".toList], .file [])]

/-- The surroundings of a build among them. -/
abbrev looseHost : Host := .ofTree Script.readTree looseModules

/-- The same modules with a manifest beside them. -/
def crateModules : FileTree :=
  { looseModules with
    entries := looseModules.entries ++ [(["w".toList, "Cargo.toml".toList], .file [])] }

/-- The surroundings of a build among these. -/
abbrev crateHost : Host := .ofTree Script.readTree crateModules

/-- Without a manifest no root is found for the modules, and that is remembered. -/
theorem roots_after_looseModules :
    (Builder.after { root := "/w".toList }
      [(looseHost, ["a.rs".toList])]).roots = [("/w".toList, none)] := by
  have hdir : looseHost.isDirectory "/w".toList = true := by cbv
  have hseed : Builder.seedPath { root := "/w".toList } "a.rs".toList = "/w/a.rs".toList := by cbv
  have hfile : looseHost.isFile "/w/a.rs".toList = true := by cbv
  have hd : Dialect.ofPath? "/w/a.rs".toList = some .rust := by cbv
  have hread : looseHost.read "/w/a.rs".toList = .ok "use crate::b;".toList := by
    cbv
  have hnone : looseHost.targetsFrom "/w".toList [] "/w/a.rs".toList = [] := by cbv
  have hroots : (resolveAll looseHost "/w".toList [] .rust "/w/a.rs".toList
      "use crate::b;".toList).roots = [("/w".toList, none)] := by cbv
  exact (Builder.roots_build_of_no_targets hdir hseed hfile hd hread hnone).trans hroots

/-- A file that only one of two maps finds below a single seed shows in its graph. -/
theorem ImportMap.toGraph_ne_of_missed {m m' : ImportMap} {a b : Path} (hn : m.isNode a = true)
    (hfound : b ∈ m.targets a) (hmissed : m'.targets a = []) (hid : m'.id a ≠ m.id b) :
    (m'.walkSeeds [a]).toGraph ≠ (m.walkSeeds [a]).toGraph := by
  intro heq
  have hseed : m.Reach [a] a := .seed (List.mem_singleton.2 rfl) hn
  have honly : ∀ p, m'.Reach [a] p → p = a := by
    intro p hp
    induction hp with
    | seed hp _ => exact List.mem_singleton.1 hp
    | step _ ht ih =>
      rw [ih, hmissed] at ht
      cases ht
  have hids : (m'.walkSeeds [a]).nodeIds = (m.walkSeeds [a]).nodeIds := congrArg Graph.nodeIds heq
  have hmem : m.id b ∈ (m.walkSeeds [a]).nodeIds :=
    (mem_nodeIds_walkSeeds_iff _).2 ⟨b, hseed.step hfound, rfl⟩
  rw [← hids, mem_nodeIds_walkSeeds_iff] at hmem
  obtain ⟨p, hp, hpid⟩ := hmem
  exact hid (honly p hp ▸ hpid)

theorem Builder.build_ne_of_missed {h : Host} {root seed a b : Path} {roots : Crate.Roots}
    (hdir : h.isDirectory root = true) (hseed : seedPath { root } seed = a)
    (hnode : isGraphFile h a = true) (hfound : b ∈ h.targets root a)
    (hmissed : h.targetsFrom root roots a = []) (hid : fileId h root a ≠ fileId h root b) :
    (build h { root, roots } [seed]).1 ≠ (build h { root } [seed]).1 := by
  subst hseed
  have hne : ((h.importMapFrom root roots).walkSeeds [seedPath { root } seed]).toGraph ≠
      ((h.importMap root).walkSeeds [seedPath { root } seed]).toGraph :=
    ImportMap.toGraph_ne_of_missed hnode hfound hmissed hid
  intro heq
  rw [graph_build_fresh, graph_build, if_pos hdir, if_pos hdir] at heq
  exact hne (Except.ok.inj heq)

/-- A manifest that comes after the first build is not seen by the same builder. -/
theorem reused_builder_misses_manifest :
    let now := crateHost
    let fresh : Builder := { root := "/w".toList }
    let used := fresh.after [(looseHost, ["a.rs".toList])]
    (used.build now ["a.rs".toList]).1 ≠ (fresh.build now ["a.rs".toList]).1 := by
  intro now fresh used
  have hused : used = { root := "/w".toList, roots := [("/w".toList, none)] } :=
    (Builder.after_eq _ _).trans (congrArg (Builder.mk "/w".toList) roots_after_looseModules)
  have hdir : now.isDirectory "/w".toList = true := by cbv
  have hseed : fresh.seedPath "a.rs".toList = "/w/a.rs".toList := by cbv
  have hnode : isGraphFile now "/w/a.rs".toList = true := by cbv
  have htargets : now.targets "/w".toList "/w/a.rs".toList = ["/w/b.rs".toList] := by cbv
  have hfound : "/w/b.rs".toList ∈ now.targets "/w".toList "/w/a.rs".toList := by
    rw [htargets]
    exact List.mem_singleton.2 rfl
  have hmissed : now.targetsFrom "/w".toList [("/w".toList, none)] "/w/a.rs".toList = [] := by cbv
  have hid : fileId now "/w".toList "/w/a.rs".toList ≠ fileId now "/w".toList "/w/b.rs".toList := by
    cbv
    decide
  rw [hused]
  exact Builder.build_ne_of_missed hdir hseed hnode hfound hmissed hid

end ImportAtlas
