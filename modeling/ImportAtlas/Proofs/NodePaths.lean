/-
# ImportAtlas.Proofs.NodePaths -- what a build takes up, and what its nodes are called

A build tells paths apart by their texts, so it matters that each path it takes up is written in one way
only. `Progress.due?` is the path that a build is about to take up, a seed or an import; at every moment
of every build it is canonical (`Progress.Tidy`). This holds for builders that have been used before
too: the crate roots they remember were found below canonical directories.

A node is called by the last part of its path, and its id ends with the same name. The id is the way from
the workspace, and a way ends with a step down unless it leads to a directory above the workspace or to
the workspace itself. Neither is a file, since nothing stands below a file.
-/
import ImportAtlas.Proofs.Reuse
import ImportAtlas.Proofs.Turns

namespace ImportAtlas

/-! ## Nothing stands below a file -/

namespace FileTree

variable {t : FileTree} {links : Nat} {dir place : Place} {ps qs : List Path} {bytes : List UInt8}

theorem follow_skip (rest : List Path) : t.follow links dir ([] :: rest) = t.follow links dir rest := by
  rw [follow, if_pos rfl]

/-- A path that goes on where another one ends at a file leads nowhere. -/
theorem follow_append_of_file (hfile : t.follow links dir ps = .entry place (.file bytes))
    (hne : qs ≠ []) : t.follow links dir (ps ++ qs) = .blocked .notDirectory := by
  fun_induction follow t links dir ps with
  | case1 => cases hfile
  | case2 _ _ _ ih => rw [List.cons_append, follow_skip, ih hfile]
  | case3 => cases hfile
  | case4 _ _ _ hsearch hpart ih =>
    rw [List.cons_append, follow, if_neg hpart, if_neg hsearch, if_pos rfl, ih hfile]
  | case5 _ _ _ hsearch hpart hhere ih =>
    rw [List.cons_append, follow, if_neg hpart, if_neg hsearch, if_neg hhere, if_pos rfl, ih hfile]
  | case6 => cases hfile
  | case7 => cases hfile
  | case8 => cases hfile
  | case9 _ _ _ _ hpart hsearch hhere hup hname hentry ih =>
    rw [List.cons_append, follow, if_neg hpart, if_neg hsearch, if_neg hhere, if_neg hup,
      if_neg hname, hentry]
    exact ih hfile
  | case10 _ _ _ hpart hsearch hhere hup hname _ hentry =>
    -- The shorter path ended here; in the longer one something is left to follow.
    rw [List.singleton_append, follow, if_neg hpart, if_neg hsearch, if_neg hhere, if_neg hup,
      if_neg hname, hentry]
    exact if_neg hne
  | case11 => cases hfile
  | case12 => cases hfile
  | case13 _ _ _ hpart hsearch hhere hup hname target hentry left ih =>
    -- A link is replaced by its parts, in front of what is left of either path.
    rw [List.cons_append, follow, if_neg hpart, if_neg hsearch, if_neg hhere, if_neg hup,
      if_neg hname, hentry]
    dsimp only
    rw [← List.append_assoc]
    exact ih hfile

theorem follow_rooted (k : Nat) (hps : ∀ p ∈ ps, Path.IsPlain p) :
    t.follow links dir (Path.rooted k ps).parts = t.follow links dir ps := by
  have hroot : ∀ rest, t.follow links dir (List.replicate k [] ++ rest) = t.follow links dir rest := by
    intro rest
    induction k with
    | zero => rfl
    | succ k ih => rw [List.replicate_succ, List.cons_append, follow_skip, ih]
  rw [Path.parts_rooted, hroot]
  by_cases hne : ps = []
  · subst hne
    exact follow_skip []
  · rw [Path.parts_unparts hne fun p hp => (hps p hp).no_slash]

/-- A canonical path leads where its parts lead from the root, however many slashes it has. -/
theorem follow_of_arrive {p : Path} {e : Entry} (hp : p.IsCanonical)
    (harrive : t.arrive p = .entry place e) : t.follow linkLimit [] p.steps = .entry place e := by
  unfold arrive at harrive
  split at harrive
  · cases harrive
  · split at harrive
    · cases harrive
    · split at harrive
      · cases harrive
      · rw [start, if_pos hp.isAbsolute] at harrive
        obtain ⟨-, hps⟩ := hp
        rw [follow_rooted _ hps] at harrive
        rwa [Path.steps_rooted _ hps]

/-- A path to a directory, and all that it leads through, names no file. -/
theorem isFile_of_isDirectory {p d : Path} (hp : p.IsCanonical) (hd : d.IsCanonical)
    (habove : p.steps <+: d.steps) (hdir : t.isDirectory d = true) : t.isFile p = false := by
  unfold isDirectory at hdir
  unfold isFile
  split at hdir
  · next harriveDir =>
    split
    · next harrive =>
      have hfile := follow_of_arrive hp harrive
      have hend := follow_of_arrive hd harriveDir
      obtain ⟨rest, hrest⟩ := habove
      rw [← hrest] at hend
      by_cases hne : rest = []
      · rw [hne, List.append_nil, hfile] at hend
        cases hend
      · rw [follow_append_of_file hfile hne] at hend
        cases hend
    · rfl
  · cases hdir

end FileTree

/-! ## Last parts -/

namespace Path

variable {x : Path}

theorem name_unparts_concat (ps : List Path) (hx : '/' ∉ x) : name (unparts (ps ++ [x])) = x := by
  by_cases hne : ps = []
  · subst hne
    exact name_of_no_slash hx
  · rw [unparts_concat hne]
    exact name_append_slash _ hx

/-- A canonical path is called by the last of its steps. -/
theorem IsCanonical.name_eq {p : Path} {front : List Path} (hp : p.IsCanonical)
    (hsteps : p.steps = front ++ [x]) : name p = x := by
  obtain ⟨hk, hps⟩ := hp
  rw [steps_rooted _ hps] at hsteps
  subst hsteps
  have hx : '/' ∉ x := (hps x (List.mem_append_right _ List.mem_cons_self)).no_slash
  by_cases hne : front = []
  · subst hne
    rcases hk with rfl | rfl
    · exact name_append_slash [] hx
    · exact name_append_slash ['/'] hx
  · rw [rooted_concat_of_ne_nil hne]
    exact name_append_slash _ hx

/-- A way that does not only lead up ends with the name of what it leads to. -/
theorem name_route {dir p : Path} (hp : p.IsCanonical) (hbelow : ¬ p.steps <+: dir.steps) :
    name (route dir p) = name p ∧ (name p).IsPlain := by
  obtain ⟨common, hdir, hsteps⟩ := exists_common dir.steps p.steps
  -- A way without a step down leads to the directory or to one above it.
  have hdown : (dropCommon dir.steps p.steps).2 ≠ [] := by
    intro hnil
    rw [hnil, List.append_nil] at hsteps
    exact hbelow ⟨_, by rw [hsteps, ← hdir]⟩
  obtain ⟨front, x, hlast⟩ := (List.eq_nil_or_concat' _).resolve_left hdown
  rw [hlast, ← List.append_assoc] at hsteps
  have hx : x.IsPlain := by
    refine hp.isPlain_steps x ?_
    rw [hsteps]
    exact List.mem_append_right _ List.mem_cons_self
  have hway : way dir p =
      (List.replicate (dropCommon dir.steps p.steps).1.length up ++ front) ++ [x] := by
    rw [way, hlast, List.append_assoc]
  rw [hp.name_eq hsteps, route_eq, hway, if_neg (by simp)]
  exact ⟨name_unparts_concat _ hx.no_slash, hx⟩

end Path

/-! ## Remembered crate roots -/

/-- What a builder remembers or finds, wherever it was used before, is a canonical directory. -/
theorem Builder.isCanonical_answer_after {root : Path} (hroot : root.IsCanonical)
    (past : List (Host × List Path)) (h : Host) {dir : Path} (hdir : dir.IsCanonical) :
    ∀ r, (Builder.after { root } past).roots.answer h root dir = some r → r.IsCanonical := by
  intro r hr
  unfold Crate.Roots.answer at hr
  cases hget : (Builder.after { root } past).roots.get? dir with
  | none =>
    rw [hget] at hr
    exact Crate.isCanonical_rootAt hroot hdir r hr
  | some answer =>
    rw [hget] at hr
    -- What is remembered was found by a search in an earlier build, maybe on another tree.
    rcases exists_rootAt_of_get?_after hget with hstart | ⟨build, -, hanswer⟩
    · cases hstart
    · exact Crate.isCanonical_rootAt hroot hdir r (hanswer.symm.trans hr)

/-! ## Every moment of a build -/

/-- Taking up a path leaves all answers about crate roots as they are, and its frame holds what the path
imports by these answers. -/
theorem visit_answer {h : Host} {root : Path} {s : Survey} {known : Crate.Roots}
    (hs : s.roots.answer h root = known.answer h root) (isChanged : Bool) (p : Path) :
    (visit h root isChanged p s).2.roots.answer h root = known.answer h root ∧
      ∀ f ∈ (visit h root isChanged p s).1.toList, f.targets = h.targetsFrom root known p := by
  unfold visit enter
  split
  · refine ⟨hs, fun f hf => ?_⟩
    cases hf
  · next hnew =>
    split
    · split
      · refine ⟨hs, fun f hf => ?_⟩
        cases hf
      · next dialect hd =>
        obtain ⟨hkeep, -, hframe⟩ := expand_spec (s := s.mark p hnew) isChanged hd hs
        refine ⟨hkeep, fun f hf => ?_⟩
        rcases hframe with hsome | ⟨hnone, -⟩
        · rw [hsome] at hf
          rw [List.mem_singleton.1 hf]
        · rw [hnone] at hf
          cases hf
    · refine ⟨hs, fun f hf => ?_⟩
      cases hf

namespace Progress

variable {h : Host} {root : Path} {seeds : List Path} {known : Crate.Roots} {c c' : Progress}

/-- The path that a build is about to take up: the next import of the topmost frame, or the next seed if
there is no frame. -/
def due? (c : Progress) : Option Path :=
  match c.stack, c.todo with
  | [], p :: _ => some p
  | ⟨_, t :: _⟩ :: _, _ => some t
  | _, _ => none

/-- A moment that a build comes to from another one. -/
abbrev Reaches (h : Host) (root : Path) (seeds : List Path) : Progress → Progress → Prop :=
  Relation.ReflTransGen fun c c' => ∃ es, Step h root seeds c es c'

theorem Trace.reaches {es : List Event} {s : Survey} (htrace : Trace h root seeds c es s) :
    Reaches h root seeds c ⟨[], [], s⟩ := by
  induction htrace with
  | done => exact .refl
  | more hstep _ ih => exact .head ⟨_, hstep⟩ ih

theorem mem_paths_visit {isChanged : Bool} {p q : Path} {s : Survey} :
    q ∈ (visit h root isChanged p s).2.visited.paths ↔ q ∈ s.visited.paths ∨ some p = some q := by
  rw [paths_visit, Option.some.injEq, eq_comm (a := p)]
  split
  · next hp =>
    constructor
    · exact Or.inl
    · rintro (hq | rfl)
      · exact hq
      · exact hp
  · rw [List.mem_cons, or_comm]

/-- A step takes up the path that is due and no other. -/
theorem mem_paths_step {es : List Event} (hstep : Step h root seeds c es c') (p : Path) :
    p ∈ c'.survey.visited.paths ↔ p ∈ c.survey.visited.paths ∨ c.due? = some p := by
  cases hstep with
  | seed => exact mem_paths_visit
  | @back todo id rest s =>
    have hdue : due? ⟨todo, ⟨id, []⟩ :: rest, s⟩ = none := by cases todo <;> rfl
    rw [hdue]
    simp
  | follow he hs =>
    subst hs
    exact mem_paths_visit

/-- All paths that a build has to do with are canonical, and the crate roots it goes by are those it
started with. -/
structure Tidy (h : Host) (root : Path) (known : Crate.Roots) (c : Progress) : Prop where
  todo : ∀ p ∈ c.todo, p.IsCanonical
  stack : ∀ f ∈ c.stack, ∀ t ∈ f.targets, t.IsCanonical
  visited : ∀ p ∈ c.survey.visited.paths, p.IsCanonical
  roots : c.survey.roots.answer h root = known.answer h root

theorem Tidy.due (hc : c.Tidy h root known) {p : Path} (hp : c.due? = some p) : p.IsCanonical := by
  obtain ⟨todo, stack, s⟩ := c
  unfold due? at hp
  dsimp only at hp
  split at hp
  · obtain rfl := Option.some.inj hp
    exact hc.todo _ List.mem_cons_self
  · obtain rfl := Option.some.inj hp
    exact hc.stack _ List.mem_cons_self _ List.mem_cons_self
  · cases hp

/-- A step takes up a canonical path, so what it puts on the stack is canonical again. -/
theorem Tidy.step (htargets : ∀ p t, t ∈ h.targetsFrom root known p → t.IsCanonical)
    {es : List Event} (hstep : Step h root seeds c es c') (hc : c.Tidy h root known) :
    c'.Tidy h root known := by
  have hvisited : ∀ p ∈ c'.survey.visited.paths, p.IsCanonical := by
    intro p hp
    rcases (mem_paths_step hstep p).1 hp with hold | hdue
    · exact hc.visited p hold
    · exact hc.due hdue
  obtain ⟨htodo, hstack, -, hroots⟩ := hc
  cases hstep with
  | @seed p todo s =>
    obtain ⟨hkeep, hframe⟩ := visit_answer hroots true p
    refine ⟨fun q hq => htodo q (List.mem_cons_of_mem _ hq), ?_, hvisited, hkeep⟩
    intro f hf t ht
    rw [hframe f hf] at ht
    exact htargets p t ht
  | back => exact ⟨htodo, fun f hf => hstack f (List.mem_cons_of_mem _ hf), hvisited, hroots⟩
  | @follow todo id t ts rest s s' e he hs =>
    have hroots' : s'.roots.answer h root = known.answer h root := by
      rw [hs]
      exact hroots
    obtain ⟨hkeep, hframe⟩ := visit_answer hroots' (decide (t ∈ seeds)) t
    refine ⟨htodo, ?_, hvisited, hkeep⟩
    intro f hf u hu
    -- A frame is that of the import, the one it was taken from, or one below.
    rcases List.mem_append.1 hf with hf | hf
    · rw [hframe f hf] at hu
      exact htargets t u hu
    · rcases List.mem_cons.1 hf with rfl | hf
      · exact hstack ⟨id, t :: ts⟩ List.mem_cons_self u (List.mem_cons_of_mem _ hu)
      · exact hstack f (List.mem_cons_of_mem _ hf) u hu

theorem Tidy.reaches (htargets : ∀ p t, t ∈ h.targetsFrom root known p → t.IsCanonical)
    (hreach : Reaches h root seeds c c') (hc : c.Tidy h root known) : c'.Tidy h root known := by
  induction hreach with
  | refl => exact hc
  | tail _ hlast ih =>
    obtain ⟨es, hstep⟩ := hlast
    exact ih.step htargets hstep

end Progress

theorem Builder.tidy_start (h : Host) {b : Builder} (hroot : b.root.IsCanonical)
    (seeds : List Path) : (b.start seeds).Tidy h b.root b.roots := by
  refine ⟨?_, fun f hf => (nomatch hf), fun p hp => (nomatch hp), rfl⟩
  intro p hp
  obtain ⟨seed, -, rfl⟩ := List.mem_map.1 hp
  exact Builder.isCanonical_seedPath hroot seed

/-- A build comes to the moment where nothing is left to do. -/
theorem Builder.reaches_survey (h : Host) (b : Builder) (seeds : List Path) :
    Progress.Reaches h b.root (seeds.map b.seedPath) (b.start seeds) ⟨[], [], b.survey h seeds⟩ := by
  obtain ⟨es, htrace⟩ := Progress.exists_trace h b.root (seeds.map b.seedPath) (b.start seeds)
  rw [Builder.finish_start] at htrace
  exact htrace.reaches

/-! ## Builds -/

/-- A node that is what its fields say. -/
structure FileNode.IsFaithful (h : Host) (root : Path) (n : FileNode) : Prop where
  path_isAbsolute : n.path.isAbsolute = true
  path_normalize : Path.normalize n.path = n.path
  path_isFile : h.isFile n.path = true
  path_dialect : ∃ dialect, Dialect.ofPath? n.path = some dialect
  id : n.id = fileId h root n.path
  label : n.label = Path.name n.path
  /-- The id ends with the label. -/
  label_id : n.label = Path.name n.id
  label_ne_here : n.label ≠ Path.here
  label_ne_up : n.label ≠ Path.up

/-- The node of a canonical file is faithful if the workspace is a directory. -/
theorem FileTree.isFaithful_node {reader : Script.TreeReader} {t : FileTree} {root : Path}
    {roots : Crate.Roots} {seeds : List Path} {p : Path} (hroot : root.IsCanonical)
    (hdir : t.isDirectory root = true) (hp : p.IsCanonical)
    (hn : isGraphFile (.ofTree reader t) p = true) :
    (((Host.ofTree reader t).importMapFrom root roots).node seeds p).IsFaithful (.ofTree reader t)
      root := by
  obtain ⟨hdialect, hfile⟩ := Bool.and_eq_true_iff.1 hn
  have hbelow : ¬ p.steps <+: root.steps := by
    intro habove
    have hnot : t.isFile p = false := isFile_of_isDirectory hp hroot habove hdir
    rw [show t.isFile p = true from hfile] at hnot
    cases hnot
  obtain ⟨hname, hplain⟩ := Path.name_route hp hbelow
  have hid : fileId (.ofTree reader t) root p = Path.route root p := by
    rw [fileId, Host.absolute_of_isCanonical hp]
  exact
    { path_isAbsolute := hp.isAbsolute
      path_normalize := hp.normalize_eq
      path_isFile := hfile
      path_dialect := Option.isSome_iff_exists.1 hdialect
      id := rfl
      label := rfl
      label_id := (congrArg Path.name hid |>.trans hname).symm
      label_ne_here := hplain.ne_here
      label_ne_up := hplain.ne_up }

/-- A build takes up paths in normal form only, and makes faithful nodes of them. -/
structure Builder.IsOrderly (h : Host) (b : Builder) (seeds : List Path) : Prop where
  /-- At every moment the path that is about to be taken up is absolute and in normal form. -/
  due : ∀ c, Progress.Reaches h b.root (seeds.map b.seedPath) (b.start seeds) c →
    ∀ p, c.due? = some p → p.isAbsolute = true ∧ Path.normalize p = p
  /-- Whatever a file holds, so are the paths that its imports are resolved to. -/
  resolved : ∀ file dialect text ts, Dialect.ofPath? file = some dialect →
    (resolveAll h b.root b.roots dialect file text).targets = some ts →
    ∀ t ∈ ts, t.isAbsolute = true ∧ Path.normalize t = t
  nodes : ∃ g, (b.build h seeds).1 = .ok g ∧ ∀ n ∈ g.nodes, n.IsFaithful h b.root

/-- On every tree and with every reader of scripts, a builder for a workspace that is a directory takes up
absolute paths in normal form only, whatever its seeds and the files hold and wherever it was used before.
Each node of its graph is a supported file under the id of its path, and both path and id end with its
label. -/
theorem build_takes_up_canonical_paths (reader : Script.TreeReader) (tree : FileTree)
    (workspace : Path) (past : List (Host × List Path)) (seeds : List Path) :
    let h := Host.ofTree reader tree
    tree.isDirectory (h.absolute workspace) = true →
      ((Builder.ofWorkspace h workspace).after past).IsOrderly h seeds := by
  intro h hdir
  have hhome : h.home.isAbsolute = true := rfl
  generalize hb : (Builder.ofWorkspace h workspace).after past = b
  have hbroot : b.root = h.absolute workspace := by
    rw [← hb]
    exact Builder.root_after _ past
  have hroot : b.root.IsCanonical := by
    rw [hbroot]
    exact Host.isCanonical_absolute hhome workspace
  rw [← hbroot] at hdir
  have hanswer : ∀ file r, b.roots.answer h b.root (h.directoryOf file) = some r →
      r.IsCanonical := by
    intro file
    have hfound := Builder.isCanonical_answer_after hroot past h
      (Host.isCanonical_directoryOf hhome file)
    rwa [show Builder.after { root := b.root } past = b by rw [hbroot]; exact hb] at hfound
  have htidy : ∀ c, Progress.Reaches h b.root (seeds.map b.seedPath) (b.start seeds) c →
      c.Tidy h b.root b.roots := fun c hc =>
    Progress.Tidy.reaches
      (fun p t ht => Host.isCanonical_of_mem_targetsFrom hhome (hanswer p) ht) hc
      (Builder.tidy_start _ hroot seeds)
  refine ⟨?_, ?_, ?_⟩
  · intro c hc p hp
    exact Path.isCanonical_iff.1 ((htidy c hc).due hp)
  · intro file dialect text ts hd hts t ht
    exact Path.isCanonical_iff.1 (Host.isCanonical_of_mem_resolveAll hhome hd (hanswer file) hts t ht)
  · have hbuild := b.graph_build h seeds
    rw [show h.isDirectory b.root = true from hdir, if_pos rfl] at hbuild
    refine ⟨_, hbuild, fun n hn => ?_⟩
    obtain ⟨hpath, hfile, hnode⟩ := ImportMap.listed_walkSeeds.nodes n hn
    -- The recursion and the build have visited the same paths.
    rw [← (b.chart_survey h seeds).2] at hpath
    rw [hnode]
    exact FileTree.isFaithful_node hroot hdir
      ((htidy _ (b.reaches_survey _ seeds)).visited n.path hpath) hfile

theorem build_takes_up_canonical_paths_mutualModules :
    mutualModules.isDirectory (mutualHost.absolute "w".toList) = true ∧
      ((Builder.ofWorkspace mutualHost "w".toList).after [(looseHost, ["a.rs".toList])]).IsOrderly
        mutualHost ["a.rs".toList, "../w//./b.rs".toList] :=
  ⟨isDirectory_mutualModules, build_takes_up_canonical_paths _ _ _ _ _ isDirectory_mutualModules⟩

end ImportAtlas
