/-
# ImportAtlas.Proofs.ListedNodes -- which listed files a start finds

The names that version control lists are joined to the workspace as it was given. The result is taken as
a seed and joined to the absolute path of the workspace once more. For an absolute workspace the second
join changes nothing. A relative one is joined twice, so that the names are looked for below another
directory (`listingBase`), and no listed file is found under its own path unless that is the workspace
again (`listed_files_are_found_below_base`).
-/
import ImportAtlas.Proofs.CanonicalReach
import ImportAtlas.Proofs.Joining
import ImportAtlas.Proofs.Seeds
import ImportAtlas.Proofs.Start

namespace ImportAtlas

open Changes (Change Columns printStatus)
open Pipeline

/-! ## Where listed names are looked for -/

/-- The directory below which the names are looked for that are listed in a workspace. -/
def listingBase (h : Host) (workspace : Path) : Path :=
  (Builder.ofWorkspace h workspace).seedPath workspace

section

variable {h : Host} (hhome : h.home.isAbsolute = true) (workspace : Path)
include hhome

theorem isCanonical_listingBase : (listingBase h workspace).IsCanonical :=
  Builder.isCanonical_seedPath (Host.isCanonical_absolute hhome workspace) workspace

/-- A listed name becomes a seed below the listing base. -/
theorem seedPath_join (name : Path) :
    (Builder.ofWorkspace h workspace).seedPath (Path.join workspace name) =
      Path.normalize (Path.join (listingBase h workspace) name) := by
  have hroot : (h.absolute workspace).isAbsolute = true :=
    (Host.isCanonical_absolute hhome workspace).isAbsolute
  show Path.normalize (Path.join (h.absolute workspace) (Path.join workspace name)) =
    Path.normalize (Path.join (Path.normalize (Path.join (h.absolute workspace) workspace)) name)
  rw [Path.join_assoc, Path.normalize_join_normalize (Path.isAbsolute_join hroot workspace)]

theorem seedPath_join_of_isInner {name : Path} (hname : name.IsInner) :
    (Builder.ofWorkspace h workspace).seedPath (Path.join workspace name) =
      Path.join (listingBase h workspace) name := by
  rw [seedPath_join hhome]
  exact (Path.isCanonical_join (isCanonical_listingBase hhome workspace) hname).normalize_eq

end

/-- Below a workspace the id of a file is its name there. -/
theorem fileId_join (h : Host) {root name : Path} (hroot : root.IsCanonical) (hname : name.IsInner) :
    fileId h root (Path.join root name) = name := by
  rw [fileId, Host.absolute_of_isCanonical (Path.isCanonical_join hroot hname),
    Path.route_join hroot hname]

/-- An absolute workspace is its own listing base. -/
theorem listingBase_of_isAbsolute (h : Host) {workspace : Path}
    (hworkspace : workspace.isAbsolute = true) : listingBase h workspace = h.absolute workspace := by
  show Path.normalize (Path.join _ workspace) = Path.absolute _ workspace
  rw [Path.join_of_isAbsolute _ hworkspace, Path.absolute, if_pos hworkspace]

/-! ## The graph of a start -/

/-- Whether a graph goes to an output path without a hitch. -/
def Accepts (tree : FileTree) (output : Path) : Prop :=
  checkOutput tree (.string output) = .ok true ∧ IsWritable tree output

/-- The graph that a start yields. -/
def startedGraph? (begun : Except StartFault PipelineResult × World) : Option Graph :=
  match begun.1 with
  | .ok r =>
    match r.success, r.data.get? "graph" with
    | true, some (.graph g) => some g
    | _, _ => none
  | .error _ => none

theorem get?_delivered (workspace : Path) (files : List ChangedFile) (g : Graph) (output : Path) :
    (delivered workspace files g output).get? "graph" = some (.graph g) := by
  unfold delivered
  split <;> rfl

section

variable (settings : Settings) (world : World) {workspace : Path} (output : Option Path) (id : String)

theorem startedGraph?_eq {stdout stderr : List UInt8} (commit : Option Path)
    (hdir : world.host.isDirectory (world.host.absolute workspace) = true)
    (haccept : Accepts world.tree (settings.outputFor output))
    (hreply : (Git.Launcher.nextReply world.launcher.replies).1 = .exited stdout stderr 0) :
    startedGraph? (startPipeline settings world (.string workspace) (.orNull .string commit)
        (.orNull .string output) id) =
      some (world.host.explore workspace
        ((changesIn commit workspace (Text.Utf8.decodeLenient stdout)).map (·.path))).toGraph := by
  obtain ⟨r, after, hbegun, hcourse⟩ :=
    startPipeline_of_checkOutput settings world workspace commit output id haccept.1
  have hsuccess : r.success = true :=
    hcourse.success_iff.2 ⟨endsWell_iff.2 ⟨stdout, stderr, hreply⟩, hdir, haccept.2⟩
  have hcourse' := hcourse
  rw [hsuccess] at hcourse'
  obtain ⟨stdout', stderr', g, hreply', hbuild, hdata, -⟩ := hcourse'.delivers
  rw [hreply] at hreply'
  cases hreply'
  rw [buildGraph_eq_explore, if_pos hdir] at hbuild
  rw [startedGraph?, hbegun]
  dsimp only
  rw [hsuccess, hdata, get?_delivered, ← Except.ok.inj hbuild]

end

/-! ## Listed files as nodes -/

section

variable {h : Host} (hhome : h.home.isAbsolute = true) (workspace : Path)
  {changes : List (Change Columns)}
  (hlisted : ∀ c ∈ changes, c.status.isDeleted = false → c.IsLegible ∧ c.name.1.IsInner)
include hhome hlisted

/-- The seeds that a listing stands for. -/
theorem seeds_ofStatus :
    ((Changes.ofStatus workspace (printStatus changes)).map (·.path)).map
        (Builder.ofWorkspace h workspace).seedPath =
      (changes.filter fun c => !c.status.isDeleted).map fun c =>
        Path.join (listingBase h workspace) c.name.1 := by
  rw [Changes.ofStatus_printStatus, List.map_map, List.map_map]
  refine List.map_congr_left fun c hc => ?_
  obtain ⟨hc, hkept⟩ := List.mem_filter.1 hc
  obtain ⟨hlegible, hinner⟩ := hlisted c hc (by simpa using hkept)
  show (Builder.ofWorkspace h workspace).seedPath (Path.join workspace c.readName) = _
  rw [c.readName_eq_iff.2 hlegible, seedPath_join_of_isInner hhome workspace hinner]

theorem explore_listed :
    h.explore workspace ((Changes.ofStatus workspace (printStatus changes)).map (·.path)) =
      (h.importMap (h.absolute workspace)).walkSeeds
        ((changes.filter fun c => !c.status.isDeleted).map fun c =>
          Path.join (listingBase h workspace) c.name.1) := by
  rw [Host.explore, seeds_ofStatus hhome workspace hlisted]

theorem mem_seeds_iff (p : Path) :
    p ∈ ((Changes.ofStatus workspace (printStatus changes)).map (·.path)).map
        (Builder.ofWorkspace h workspace).seedPath ↔
      ∃ c ∈ changes, c.status.isDeleted = false ∧ p = Path.join (listingBase h workspace) c.name.1 := by
  rw [seeds_ofStatus hhome workspace hlisted, List.mem_map]
  constructor
  · rintro ⟨c, hc, rfl⟩
    obtain ⟨hc, hkept⟩ := List.mem_filter.1 hc
    exact ⟨c, hc, by simpa using hkept, rfl⟩
  · rintro ⟨c, hc, hkept, rfl⟩
    exact ⟨c, List.mem_filter.2 ⟨hc, by simpa using hkept⟩, rfl⟩

theorem isChanged_iff_listed {n : FileNode}
    (hn : n ∈ (h.explore workspace
      ((Changes.ofStatus workspace (printStatus changes)).map (·.path))).toGraph.nodes) :
    n.isChanged = true ↔
      ∃ c ∈ changes, c.status.isDeleted = false ∧
        n.path = Path.join (listingBase h workspace) c.name.1 := by
  obtain ⟨-, -, hnode⟩ := ImportMap.listed_walkSeeds.nodes n hn
  rw [← mem_seeds_iff hhome workspace hlisted, hnode]
  exact decide_eq_true_iff

/-- A listed file that can be a node is one, or its twin is. -/
theorem exists_node_of_listed {c : Change Columns} (hc : c ∈ changes)
    (hkept : c.status.isDeleted = false)
    (hfile : isGraphFile h (Path.join (listingBase h workspace) c.name.1) = true) :
    ∃ n ∈ (h.explore workspace
        ((Changes.ofStatus workspace (printStatus changes)).map (·.path))).toGraph.nodes,
      n.id = fileId h (h.absolute workspace) (Path.join (listingBase h workspace) c.name.1) ∧
        (n.path = Path.join (listingBase h workspace) c.name.1 ∧ n.isChanged = true ∨
          n.path = (Path.join (listingBase h workspace) c.name.1).twin ∧ n.isChanged = false) := by
  have hbase := isCanonical_listingBase hhome workspace
  have hroot := Host.isCanonical_absolute hhome workspace
  have hcanonical := Path.isCanonical_join hbase (hlisted c hc hkept).2
  have hmem := (mem_seeds_iff hhome workspace hlisted _).2 ⟨c, hc, hkept, rfl⟩
  obtain ⟨n, hn, hid⟩ := List.mem_map.1
    ((ImportMap.mem_nodeIds_walkSeeds_iff (m := h.importMap (h.absolute workspace)) _).2
      ⟨_, .seed hmem hfile, rfl⟩)
  refine ⟨n, hn, hid, ?_⟩
  have hpath : n.path.IsCanonical := by
    refine Host.isCanonical_of_reach hhome hroot ?_ (ImportMap.reach_of_mem_nodes hn)
    intro p hp
    obtain ⟨seed, -, rfl⟩ := List.mem_map.1 hp
    exact Builder.isCanonical_seedPath hroot seed
  rw [ImportMap.id_of_mem_nodes hn] at hid
  rcases (Host.id_importMap_eq_iff h _ _ _ hpath hcanonical).1 hid with heq | heq
  · exact .inl ⟨heq, (isChanged_iff_listed hhome workspace hlisted hn).2 ⟨c, hc, hkept, heq⟩⟩
  · refine .inr ⟨heq, Bool.eq_false_iff.2 fun hchanged => ?_⟩
    -- All listed files have as many slashes in front as the base, and a twin has not.
    have hslashes {c : Change Columns} (hc : c ∈ changes) (hkept : c.status.isDeleted = false) :
        (Path.join (listingBase h workspace) c.name.1).rootSlashes =
          (listingBase h workspace).rootSlashes :=
      Path.rootSlashes_join hbase.isAbsolute (hlisted c hc hkept).2.isAbsolute_eq
    obtain ⟨d, hd, hkept', hsame⟩ := (isChanged_iff_listed hhome workspace hlisted hn).1 hchanged
    refine hcanonical.rootSlashes_twin_ne ?_
    rw [← heq, hsame, hslashes hd hkept', hslashes hc hkept]

end

theorem ImportMap.Reach.exists_seed {m : ImportMap} {seeds : List Path} {p : Path}
    (hp : m.Reach seeds p) : ∃ seed ∈ seeds, m.isNode seed = true := by
  induction hp with
  | seed hseed hnode => exact ⟨_, hseed, hnode⟩
  | step _ _ ih => exact ih

/-- A file that was changed in the working tree. -/
def modified : Change Columns :=
  ⟨⟨' ', 'M', rfl, rfl, .inr (by decide)⟩, none, ⟨"a.rs".toList, by decide⟩⟩

/-- Two modules in a workspace, one of which version control lists. -/
def modifiedWorld : World where
  tree := mutualModules
  launcher := ⟨[.exited (Text.Utf8.encode (String.ofList (printStatus [modified]))) [] 0], []⟩
  reader := Script.readTree

theorem isInner_modified : modified.name.1.IsInner := by
  have hplain : Path.IsPlain "a.rs".toList := .of_length (by decide) (by decide)
  refine .mk (List.cons_ne_nil "a.rs".toList []) fun p hp => ?_
  rw [List.mem_singleton.1 hp]
  exact hplain

theorem listed_modified (c : Change Columns) (hc : c ∈ [modified]) (_ : c.status.isDeleted = false) :
    c.IsLegible ∧ c.name.1.IsInner := by
  rw [List.mem_singleton.1 hc]
  exact ⟨by decide, isInner_modified⟩

theorem accepts_none (tree : FileTree) : Accepts tree (({} : Settings).outputFor none) :=
  ⟨rfl, .inl rfl⟩

end ImportAtlas
