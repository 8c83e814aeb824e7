/-
# ImportAtlas.Proofs.Faults -- a file that breaks down concerns no other

Three things can go wrong with a file: its text cannot be had, it is a script and no program, or the
question about a candidate for one of its imports breaks down. Such a file (`Host.isFaulty`) is a node
like any other but has no edges of its own, not even for the imports that came before.

That nothing else happens is said by comparing two builds. `Host.mute` puts another text in the place of
every faulty file, one in which there is nothing to import (`Host.IsQuiet`). So these files import nothing
there and no others are touched, and a build there gives the same graph. The only build that fails is one
of a workspace that is no directory.
-/
import ImportAtlas.Proofs.Provenance
import ImportAtlas.Proofs.Reach

namespace ImportAtlas

/-! ## Faulty files -/

/-- Whether a text was read as a program. -/
def Script.Reading.isTree : Script.Reading → Bool
  | tree _ => true
  | malformed => false
  | failed _ => false

theorem Script.Reading.imports_eq_nil {r : Script.Reading} (hr : r.isTree = false) :
    r.imports = [] := by
  cases r with
  | tree => cases hr
  | malformed => rfl
  | failed => rfl

namespace Host

/-- Whether a supported file breaks down: its text cannot be had, it is a script and no program, or a
question about one of its references is not answered. -/
def isFaulty (h : Host) (workspace p : Path) : Bool :=
  match Dialect.ofPath? p, h.read p with
  | none, _ => false
  | some _, .error _ => true
  | some dialect, .ok text =>
    (dialect = .script && !(Script.readFile h.readTree p text).isTree) ||
      (Reference.extract h dialect p text).1.any fun ref => (ref.meaning? h workspace p).isNone

/-- In none of some texts, one for each file, is there anything to import. -/
def IsQuiet (h : Host) (texts : Path → List Char) : Prop :=
  ∀ p dialect, Dialect.ofPath? p = some dialect → (Reference.extract h dialect p (texts p)).1 = []

/-- The same surroundings, where the faulty files hold other texts. -/
def mute (h : Host) (workspace : Path) (texts : Path → List Char) : Host :=
  h.withRead fun p => if h.isFaulty workspace p then .ok (texts p) else h.read p

variable {h : Host} {workspace p : Path} {texts : Path → List Char}

/-- A faulty file imports nothing, whatever its other imports mean. -/
theorem targets_of_isFaulty (hf : h.isFaulty workspace p = true) : h.targets workspace p = [] := by
  unfold isFaulty at hf
  unfold targets imports?
  split at hf
  · cases hf
  · next hd hread => rw [hd, hread]; rfl
  · next dialect text hd hread =>
    rw [hd, hread]
    dsimp only
    rcases (Bool.or_eq_true _ _).mp hf with hparse | hprobe
    · -- A script that is no program has no references, so there is nothing to ask.
      obtain ⟨hscript, htree⟩ := (Bool.and_eq_true _ _).mp hparse
      obtain rfl : dialect = .script := of_decide_eq_true hscript
      have hnone : (Reference.extract h .script p text).1 = [] := by
        show (Script.readFile h.readTree p text).imports.map Reference.script = []
        rw [Script.Reading.imports_eq_nil ((Bool.not_eq_eq_eq_not ..).mp htree)]
        rfl
      rw [hnone]
      rfl
    · -- One unanswered question leaves the file without the imports that were answered too.
      obtain ⟨ref, href, hmeaning⟩ := List.any_eq_true.1 hprobe
      have hnone : meanings? h workspace p (Reference.extract h dialect p text).1 = none :=
        (meanings?_eq_none_iff _).2 ⟨ref, href, Option.isNone_iff_eq_none.1 hmeaning⟩
      rw [hnone]
      rfl

theorem exists_dialect_of_isFaulty (hf : h.isFaulty workspace p = true) :
    ∃ dialect, Dialect.ofPath? p = some dialect := by
  unfold isFaulty at hf
  split at hf
  · cases hf
  · next hd _ => exact ⟨_, hd⟩
  · next hd _ => exact ⟨_, hd⟩

/-- A file of modules that can be read is faulty if one of them cannot be asked about. -/
theorem isFaulty_of_rust {text : List Char} (hd : Dialect.ofPath? p = some .rust)
    (hread : h.read p = .ok text) :
    h.isFaulty workspace p =
      (Crate.imports text).any fun i => ((Reference.crate i).meaning? h workspace p).isNone := by
  unfold isFaulty
  rw [hd, hread]
  exact List.any_map

/-- A supported file that is not faulty has all of its imports. -/
theorem imports?_ne_none (hp : isGraphFile h p = true) (hf : h.isFaulty workspace p = false) :
    h.imports? workspace p ≠ none := by
  obtain ⟨dialect, hd⟩ := Option.isSome_iff_exists.1 (Bool.and_eq_true_iff.1 hp).1
  unfold isFaulty at hf
  unfold imports?
  rw [hd] at hf ⊢
  cases hread : h.read p with
  | error fault =>
    rw [hread] at hf
    cases hf
  | ok text =>
    rw [hread] at hf
    obtain ⟨-, hprobe⟩ := Bool.or_eq_false_iff.1 hf
    intro hnone
    obtain ⟨ref, href, hmeaning⟩ := (meanings?_eq_none_iff _).1 hnone
    have hanswered := List.any_eq_false.1 hprobe ref href
    rw [hmeaning] at hanswered
    exact hanswered rfl

/-! ## The faulty files taken to import nothing -/

/-- Empty texts are quiet if the reader finds no imports in an empty script. -/
theorem isQuiet_nil (hempty : ∀ flavor, (h.readTree flavor []).imports = []) :
    h.IsQuiet fun _ => [] := by
  intro p dialect _
  cases dialect with
  | script =>
    show (Script.readFile h.readTree p []).imports.map Reference.script = []
    rw [Script.readFile, hempty]
    rfl
  | rust => rfl
  | graphql => rfl

section Mute

variable (hquiet : h.IsQuiet texts)
include hquiet

theorem imports?_mute_of_isFaulty (hf : h.isFaulty workspace p = true) :
    (h.mute workspace texts).imports? workspace p = some [] := by
  obtain ⟨dialect, hd⟩ := exists_dialect_of_isFaulty hf
  have hread : (h.mute workspace texts).read p = .ok (texts p) := if_pos hf
  have hrefs : (Reference.extract (h.mute workspace texts) dialect p (texts p)).1 = [] :=
    hquiet p dialect hd
  unfold imports?
  rw [hd, hread]
  dsimp only
  rw [hrefs]
  rfl

omit hquiet in
theorem imports?_mute_of_not_isFaulty (hf : h.isFaulty workspace p = false) :
    (h.mute workspace texts).imports? workspace p = h.imports? workspace p := by
  refine imports?_withRead ?_
  rw [hf]
  rfl

/-- Where the faulty files are quiet nothing breaks down. -/
theorem imports?_mute_ne_none (hp : isGraphFile h p = true) :
    (h.mute workspace texts).imports? workspace p ≠ none := by
  cases hf : h.isFaulty workspace p with
  | true =>
    rw [imports?_mute_of_isFaulty hquiet hf]
    exact Option.some_ne_none []
  | false =>
    rw [imports?_mute_of_not_isFaulty hf]
    exact imports?_ne_none hp hf

theorem targets_mute (p : Path) :
    (h.mute workspace texts).targets workspace p = h.targets workspace p := by
  cases hf : h.isFaulty workspace p with
  | false =>
    unfold targets
    rw [imports?_mute_of_not_isFaulty hf]
    rfl
  | true =>
    rw [targets_of_isFaulty hf]
    unfold targets
    rw [imports?_mute_of_isFaulty hquiet hf]
    rfl

theorem importMap_mute :
    (h.mute workspace texts).importMap workspace = h.importMap workspace := by
  unfold importMap
  rw [ImportMap.mk.injEq]
  exact ⟨rfl, funext (targets_mute hquiet), rfl⟩

end Mute

end Host

theorem buildGraph_mute {h : Host} {texts : Path → List Char} (hquiet : h.IsQuiet texts)
    (workspace : Path) (seeds : List Path) :
    buildGraph (h.mute (h.absolute workspace) texts) seeds workspace =
      buildGraph h seeds workspace := by
  have hexplore : (h.mute (h.absolute workspace) texts).explore workspace seeds =
      h.explore workspace seeds := by
    unfold Host.explore
    rw [show (h.mute (h.absolute workspace) texts).absolute workspace = h.absolute workspace from rfl,
      Host.importMap_mute hquiet]
    rfl
  rw [buildGraph_eq_explore, buildGraph_eq_explore, hexplore]
  rfl

/-! ## Graphs with faulty files -/

/-- A graph in which the faulty files are nodes and contribute nothing else. -/
structure Graph.Confines (g : Graph) (h : Host) (workspace : Path) (seeds : List Path) : Prop where
  /-- A faulty file that is reached is a node. -/
  nodes : ∀ p, (h.importMap workspace).Reach seeds p → h.isFaulty workspace p = true →
    fileId h workspace p ∈ g.nodeIds
  /-- The edges are those of the reached files that are not faulty, each file taken once. -/
  edges : ∃ sound : List Path, sound.Nodup ∧
    (∀ p, p ∈ sound ↔ (h.importMap workspace).Reach seeds p ∧ h.isFaulty workspace p = false) ∧
    g.edges.Perm (sound.flatMap (h.importMap workspace).edgesFrom)

/-- Files without imports can be left out where edges are collected. -/
theorem ImportMap.flatMap_edgesFrom_filter {m : ImportMap} {quiet : Path → Bool}
    (hquiet : ∀ p, quiet p = true → m.targets p = []) (ps : List Path) :
    (ps.filter fun p => !quiet p).flatMap m.edgesFrom = ps.flatMap m.edgesFrom := by
  induction ps with
  | nil => rfl
  | cons p ps ih =>
    rw [List.flatMap_cons]
    cases hp : quiet p with
    | true =>
      rw [List.filter_cons_of_neg (by simp [hp]), ih, edgesFrom, hquiet p hp]
      rfl
    | false =>
      rw [List.filter_cons_of_pos (by simp [hp]), List.flatMap_cons, ih]

theorem Graph.Covers.confines {g : Graph} {h : Host} {workspace : Path} {seeds : List Path}
    (hg : g.Covers (h.importMap workspace) seeds) : g.Confines h workspace seeds := by
  constructor
  · intro p hp _
    exact (hg.mem_ids _).2 ⟨p, hp, rfl⟩
  · obtain ⟨reached, hnodup, hreached, hperm⟩ := hg.edges
    refine ⟨reached.filter fun p => !h.isFaulty workspace p, hnodup.filter _, fun p => ?_, ?_⟩
    · rw [List.mem_filter, hreached, Bool.not_eq_true']
    · rw [ImportMap.flatMap_edgesFrom_filter fun p => Host.targets_of_isFaulty]
      exact hperm

/-! ## Builds -/

/-- Whatever the files hold, whichever of them cannot be read, whichever questions break down while
imports are resolved and whichever scripts the reader breaks down on, a build fails only if its workspace
is no directory. Otherwise the faulty files that it reaches are nodes without edges of their own, and the
graph is the one that is built where they have nothing to import and nothing breaks down. -/
theorem build_confines_faults (h : Host) (workspace : Path) (seeds : List Path) :
    let root := h.absolute workspace
    (∀ fault, buildGraph h seeds workspace = .error fault ↔
        h.isDirectory root = false ∧ fault = ⟨root⟩) ∧
      (h.isDirectory root = true →
        ∃ g : Graph, buildGraph h seeds workspace = .ok g ∧
          g.Confines h root (seeds.map (Builder.ofWorkspace h workspace).seedPath) ∧
          ∀ texts, h.IsQuiet texts →
            buildGraph (h.mute root texts) seeds workspace = .ok g ∧
            (∀ p, h.isFaulty root p = true → (h.mute root texts).imports? root p = some []) ∧
            ∀ p, isGraphFile h p = true → (h.mute root texts).imports? root p ≠ none) := by
  intro root
  have hbuild : buildGraph h seeds workspace =
      if h.isDirectory root then .ok (h.explore workspace seeds).toGraph else .error ⟨root⟩ :=
    buildGraph_eq_explore h workspace seeds
  constructor
  · intro fault
    rw [hbuild]
    cases h.isDirectory root with
    | true => simp
    | false => simp [eq_comm]
  · intro hdir
    rw [hdir, if_pos rfl] at hbuild
    refine ⟨_, hbuild, (ImportMap.covers_walkSeeds _ _).confines, fun texts hquiet => ⟨?_, ?_, ?_⟩⟩
    · rw [buildGraph_mute hquiet]
      exact hbuild
    · exact fun p => Host.imports?_mute_of_isFaulty hquiet
    · exact fun p => Host.imports?_mute_ne_none hquiet

/-- Three modules, of which one may not be read and one declares a module that cannot be asked about. -/
def guardedModules : FileTree where
  home := []
  entries := [(["w".toList], .directory),
    (["w".toList, "a.rs".toList], .file "mod b;\nmod c;".toUTF8.toList),
    (["w".toList, "b.rs".toList], .file "mod a;".toUTF8.toList),
    (["w".toList, "c.rs".toList], .file "mod a;\nmod d;".toUTF8.toList)]
  withheld := [(["w".toList, "b.rs".toList], .read)]

/-- The question whether a path names a file among them, which breaks down for one. -/
def guardedProbe : Probe := fun p =>
  bif p = "/w/d.rs".toList then none else some (guardedModules.isFile p)

/-- The surroundings of a build among them. -/
abbrev guardedHost : Host := (Host.ofTree Script.readTree guardedModules).withProbe guardedProbe

theorem isFaulty_guardedModules :
    guardedHost.isFaulty "/w".toList "/w/a.rs".toList = false ∧
      guardedHost.isFaulty "/w".toList "/w/b.rs".toList = true ∧
      guardedHost.isFaulty "/w".toList "/w/c.rs".toList = true := by
  have ha : guardedHost.read "/w/a.rs".toList = .ok "mod b;\nmod c;".toList := by cbv
  have hc : guardedHost.read "/w/c.rs".toList = .ok "mod a;\nmod d;".toList := by cbv
  refine ⟨?_, ?_, ?_⟩
  · rw [Host.isFaulty_of_rust (by cbv) ha]
    cbv
  · cbv
  · rw [Host.isFaulty_of_rust (by cbv) hc]
    cbv

theorem targets_guardedModules :
    (guardedHost.importMap "/w".toList).targets "/w/a.rs".toList =
      ["/w/b.rs".toList, "/w/c.rs".toList] := by cbv

theorem reach_guardedModules_iff (p : Path) :
    (guardedHost.importMap "/w".toList).Reach ["/w/a.rs".toList] p ↔
      p ∈ ["/w/a.rs".toList, "/w/b.rs".toList, "/w/c.rs".toList] := by
  obtain ⟨-, hfaultyb, hfaultyc⟩ := isFaulty_guardedModules
  have ha := targets_guardedModules
  have hb : (guardedHost.importMap "/w".toList).targets "/w/b.rs".toList = [] :=
    Host.targets_of_isFaulty hfaultyb
  have hc : (guardedHost.importMap "/w".toList).targets "/w/c.rs".toList = [] :=
    Host.targets_of_isFaulty hfaultyc
  have hnode : (guardedHost.importMap "/w".toList).isNode "/w/a.rs".toList = true := by cbv
  have hseed : (guardedHost.importMap "/w".toList).Reach ["/w/a.rs".toList] "/w/a.rs".toList :=
    .seed List.mem_cons_self hnode
  constructor
  · intro hp
    induction hp with
    | seed hp _ => exact List.mem_append_left _ hp
    | step _ ht ih =>
      simp only [List.mem_cons, List.not_mem_nil, or_false] at ih
      rcases ih with rfl | rfl | rfl
      · rw [ha] at ht
        exact List.mem_cons_of_mem _ ht
      · rw [hb] at ht
        cases ht
      · rw [hc] at ht
        cases ht
  · intro hp
    simp only [List.mem_cons, List.not_mem_nil, or_false] at hp
    rcases hp with rfl | rfl | rfl
    · exact hseed
    · exact hseed.step (ha ▸ List.mem_cons_self)
    · exact hseed.step (ha ▸ List.mem_cons_of_mem _ List.mem_cons_self)

/-- The faulty modules of a graph add no edges to those of the third one. -/
theorem Graph.Confines.edges_guardedModules {g : Graph}
    (hg : g.Confines guardedHost "/w".toList ["/w/a.rs".toList]) :
    g.edges.Perm [{ source := "a.rs".toList, target := "b.rs".toList },
      { source := "a.rs".toList, target := "c.rs".toList }] := by
  obtain ⟨ha, hb, hc⟩ := isFaulty_guardedModules
  obtain ⟨sound, hnodup, hsound, hperm⟩ := hg.edges
  have hmem : ∀ p, p ∈ sound ↔ p ∈ ["/w/a.rs".toList] := by
    intro p
    rw [hsound, reach_guardedModules_iff, List.mem_singleton]
    constructor
    · rintro ⟨hp, hp'⟩
      simp only [List.mem_cons, List.not_mem_nil, or_false] at hp
      rcases hp with rfl | rfl | rfl
      · rfl
      · exact absurd (hp'.symm.trans hb) Bool.false_ne_true
      · exact absurd (hp'.symm.trans hc) Bool.false_ne_true
    · rintro rfl
      exact ⟨List.mem_cons_self, ha⟩
  obtain rfl : sound = ["/w/a.rs".toList] := List.perm_singleton.1
    ((List.perm_ext_iff_of_nodup hnodup (List.nodup_singleton _)).2 hmem)
  have hida : (guardedHost.importMap "/w".toList).id "/w/a.rs".toList = "a.rs".toList := by cbv
  have hidb : (guardedHost.importMap "/w".toList).id "/w/b.rs".toList = "b.rs".toList := by cbv
  have hidc : (guardedHost.importMap "/w".toList).id "/w/c.rs".toList = "c.rs".toList := by cbv
  rw [List.flatMap_singleton, ImportMap.edgesFrom, targets_guardedModules, List.map_cons, List.map_cons,
    List.map_nil, hida, hidb, hidc] at hperm
  exact hperm

/-- Both faulty modules are nodes, and only the third one has edges, although the first module that one of
the others declares was found. -/
theorem build_confines_faults_guardedModules :
    let h := guardedHost
    let root := h.absolute "w".toList
    let texts : Path → List Char := fun _ => []
    h.isDirectory root = true ∧ h.IsQuiet texts ∧
      ∃ g : Graph, buildGraph h ["a.rs".toList] "w".toList = .ok g ∧
        buildGraph (h.mute root texts) ["a.rs".toList] "w".toList = .ok g ∧
        "b.rs".toList ∈ g.nodeIds ∧ "c.rs".toList ∈ g.nodeIds ∧
        g.edges.Perm [{ source := "a.rs".toList, target := "b.rs".toList },
          { source := "a.rs".toList, target := "c.rs".toList }] := by
  intro h root texts
  obtain ⟨-, hb, hc⟩ := isFaulty_guardedModules
  have hroot : h.absolute "w".toList = "/w".toList := by cbv
  have hseed : ["a.rs".toList].map (Builder.ofWorkspace h "w".toList).seedPath =
      ["/w/a.rs".toList] := by cbv
  have hdir : h.isDirectory root = true := by
    rw [show root = "/w".toList from hroot]
    cbv
  have hidb : fileId h "/w".toList "/w/b.rs".toList = "b.rs".toList := by cbv
  have hidc : fileId h "/w".toList "/w/c.rs".toList = "c.rs".toList := by cbv
  have hquiet : h.IsQuiet texts := Host.isQuiet_nil Script.imports_readTree_nil
  obtain ⟨g, hg, hconfines, hmute⟩ := (build_confines_faults h "w".toList ["a.rs".toList]).2 hdir
  rw [hroot, hseed] at hconfines
  refine ⟨hdir, hquiet, g, hg, (hmute texts hquiet).1, ?_, ?_, hconfines.edges_guardedModules⟩
  · rw [← hidb]
    exact hconfines.nodes _ ((reach_guardedModules_iff _).2 (by decide)) hb
  · rw [← hidc]
    exact hconfines.nodes _ ((reach_guardedModules_iff _).2 (by decide)) hc

end ImportAtlas
