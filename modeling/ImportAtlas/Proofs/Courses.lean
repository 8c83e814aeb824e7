/-
# ImportAtlas.Proofs.Courses -- the courses that the stages of a start can take

The first of the stages starts one process, and what follows is one of four courses (`Course`): no listing
of changes, no workspace, no file, or a graph that was built from the listed files and, if there is an
output path, written to it.

Each stage has one lemma for each way it can end. Stages that are run in order report what the one reports
that gave up, or else the last, and so `reports_startStages` is put together from these lemmas.
-/
import ImportAtlas.Pipeline.Start
import ImportAtlas.Proofs.Attempts
import ImportAtlas.Proofs.Listings
import ImportAtlas.Proofs.Recursion
import ImportAtlas.Proofs.Writing

namespace ImportAtlas

open Json (Value)

/-- A world in which one more process was started. A build finds there what it found before. -/
def World.asked (world : World) (call : Git.Call) : World :=
  { world with launcher := (world.launcher.start call).2 }

/-- The same world with other files. -/
def World.withTree (world : World) (tree : FileTree) : World := { world with tree }

namespace Pipeline

/-! ## Asking for changes -/

/-- What version control is asked: about a commit, or about the working tree if none is named. -/
def changesArgs : Option Path → List Value
  | some (c :: cs) =>
    [.text "diff-tree", .text "--no-commit-id", .text "--name-status", .text "-r", .text "--root",
      .string (c :: cs)]
  | _ => [.text "status", .text "--porcelain"]

/-- The changed files in the answer. -/
def changesIn : Option Path → Path → List Char → List ChangedFile
  | some (_ :: _) => Changes.ofNameStatus
  | _ => Changes.ofStatus

/-- The process that is started to ask. -/
def changesCall (workspace : Path) (commit : Option Path) : Git.Call :=
  ⟨.text "git" :: changesArgs commit, .string workspace⟩

theorem askChanges_eq (l : Git.Launcher) (workspace : Value) (commit : Option Path) :
    askChanges l workspace (.orNull .string commit) =
      Git.listing l workspace (changesArgs commit) (changesIn commit) := by
  rcases commit with _ | _ | ⟨c, cs⟩ <;> rfl

/-- Whether a process ran and ended well. -/
def endsWell : Git.Reply → Bool
  | .exited _ _ code => code = 0
  | _ => false

theorem endsWell_iff {reply : Git.Reply} :
    endsWell reply = true ↔ ∃ stdout stderr, reply = .exited stdout stderr 0 := by
  cases reply with
  | exited stdout stderr code =>
    constructor
    · intro h
      exact ⟨stdout, stderr, by rw [of_decide_eq_true h]⟩
    · rintro ⟨_, _, h⟩
      cases h
      rfl
  | refused reason => exact ⟨nofun, nofun⟩
  | failed kind message => exact ⟨nofun, nofun⟩

/-- The words of the command that asks. -/
def changesWords : Option Path → List String
  | some (c :: cs) =>
    ["git", "diff-tree", "--no-commit-id", "--name-status", "-r", "--root", String.ofList (c :: cs)]
  | _ => ["git", "status", "--porcelain"]

theorem commandWords_changesArgs (commit : Option Path) :
    Git.commandWords 0 (.text "git" :: changesArgs commit) = .ok (changesWords commit) := by
  rcases commit with _ | _ | ⟨c, cs⟩ <;> rfl

/-- Why there is no listing in a reply to some command; none if the process ended well. -/
def replyFault? (words : List String) : Git.Reply → Option Git.Fault
  | .exited _ stderr code =>
    if code = 0 then none
    else some (.badExit words code (Text.trim (Text.Utf8.decodeLenient stderr)))
  | .refused reason => some (.notStarted words reason)
  | .failed kind message => some (.foreign kind message)

theorem exists_replyFault? (words : List String) {reply : Git.Reply} (hreply : endsWell reply = false) :
    ∃ fault, replyFault? words reply = some fault := by
  cases reply with
  | exited stdout stderr code =>
    have hcode : code ≠ 0 := of_decide_eq_false hreply
    exact ⟨_, if_neg hcode⟩
  | refused reason => exact ⟨_, rfl⟩
  | failed kind message => exact ⟨_, rfl⟩

theorem listing_of_replyFault? {α : Type} {l : Git.Launcher} {args : List Value} {words : List String}
    {fault : Git.Fault} (hwords : Git.commandWords 0 (.text "git" :: args) = .ok words)
    (hfault : replyFault? words (Git.Launcher.nextReply l.replies).1 = some fault) (workspace : Value)
    (ofOutput : Path → List Char → List α) :
    Git.listing l workspace args ofOutput =
      (.error fault, (l.start ⟨.text "git" :: args, workspace⟩).2) := by
  have hstart : l.start ⟨.text "git" :: args, workspace⟩ =
      ((Git.Launcher.nextReply l.replies).1, (l.start ⟨.text "git" :: args, workspace⟩).2) := rfl
  have hnames (f : List String → Git.Fault) : Git.faultOf (.text "git" :: args) f = f words := by
    rw [Git.faultOf, hwords]
  rw [Git.listing, Git.run, hstart]
  cases hreply : (Git.Launcher.nextReply l.replies).1 with
  | exited stdout stderr code =>
    rw [hreply, replyFault?] at hfault
    split at hfault
    · cases hfault
    · next hcode =>
      dsimp only
      rw [if_neg hcode, hnames, Option.some.inj hfault]
  | refused reason =>
    rw [hreply] at hfault
    dsimp only
    rw [hnames, ← Option.some.inj hfault]
  | failed kind message =>
    rw [hreply] at hfault
    rw [← Option.some.inj hfault]

/-! ## What the stages hand on -/

/-- The record behind the first stage. -/
def listed (workspace : Path) (files : List ChangedFile) : Datum :=
  .record [("workspace_root", .value (.string workspace)), ("changed_files", .changes files),
    ("seed_paths", .value (.array (files.map fun f => .string f.path)))]

/-- The record behind the second stage. -/
def charted (workspace : Path) (files : List ChangedFile) (g : Graph) : Datum :=
  .record [("workspace_root", .value (.string workspace)), ("changed_files", .changes files),
    ("seed_paths", .value (.array (files.map fun f => .string f.path))), ("graph", .graph g)]

/-- The record behind the last stage. -/
def delivered (workspace : Path) (files : List ChangedFile) (g : Graph) (output : Path) : Datum :=
  if output = [] then charted workspace files g
  else (charted workspace files g).set "output_path" (.value (.string (Path.tidy output)))

/-- A stage ended well and handed on some data. -/
def Stage.Ends {σ : Type} (stage : Stage σ) (input : Datum) (world : σ) (output : Datum) (after : σ) :
    Prop :=
  ∃ result, stage.execute input world = (.ok result, after) ∧ result.success = true ∧
    result.data = output

/-- A stage gave up. -/
def Stage.GivesUp {σ : Type} (stage : Stage σ) (input : Datum) (world after : σ) : Prop :=
  ∃ fault, stage.execute input world = (.error fault, after)

section

variable {world : World} {tree : FileTree} (workspace : Path) (commit : Option Path)
  (files : List ChangedFile) {g : Graph}

theorem need_workspace (fields : List (String × Item)) :
    need (.record (("workspace_root", .value (.string workspace)) :: fields)) "workspace_root" =
      .ok (.value (.string workspace)) := rfl

theorem ends_changedFiles {stdout stderr : List UInt8}
    (hreply : (Git.Launcher.nextReply world.launcher.replies).1 = .exited stdout stderr 0) :
    (Stage.changedFiles [("commit_ref", .orNull .string commit)]).Ends
      (startDatum (.string workspace)) world
      (listed workspace (changesIn commit workspace (Text.Utf8.decodeLenient stdout)))
      (world.asked (changesCall workspace commit)) := by
  have hoption : Options.get [("commit_ref", .orNull .string commit)] "commit_ref" =
      .orNull .string commit := rfl
  have hask := askChanges_eq world.launcher (.string workspace) commit
  rw [Git.listing_of_exited hreply] at hask
  unfold Stage.Ends Stage.changedFiles startDatum
  simp only [need_workspace, hoption, Item.toJson, hask]
  exact ⟨_, rfl, rfl, rfl⟩

theorem execute_changedFiles_of_fault {fault : Git.Fault}
    (hfault : replyFault? (changesWords commit) (Git.Launcher.nextReply world.launcher.replies).1 =
      some fault) :
    (Stage.changedFiles [("commit_ref", .orNull .string commit)]).execute
      (startDatum (.string workspace)) world =
      (.error (.git fault), world.asked (changesCall workspace commit)) := by
  have hoption : Options.get [("commit_ref", .orNull .string commit)] "commit_ref" =
      .orNull .string commit := rfl
  have hask := askChanges_eq world.launcher (.string workspace) commit
  rw [listing_of_replyFault? (commandWords_changesArgs commit) hfault] at hask
  unfold Stage.changedFiles startDatum
  simp only [need_workspace, hoption, Item.toJson, hask]
  rfl

theorem givesUp_changedFiles
    (hreply : endsWell (Git.Launcher.nextReply world.launcher.replies).1 = false) :
    (Stage.changedFiles [("commit_ref", .orNull .string commit)]).GivesUp
      (startDatum (.string workspace)) world
      (world.asked (changesCall workspace commit)) := by
  obtain ⟨fault, hfault⟩ := exists_replyFault? (changesWords commit) hreply
  exact ⟨_, execute_changedFiles_of_fault workspace commit hfault⟩

theorem asPaths_strings (paths : List Path) :
    (Value.array (paths.map Value.string)).asPaths = .ok paths := by
  show (paths.map Value.string).mapM Value.asPart = .ok paths
  induction paths with
  | nil => rfl
  | cons p paths ih => rw [List.map_cons, List.mapM_cons, ih]; rfl

theorem graphOf_listed (h : Host) :
    graphOf h (.array (files.map fun f => .string f.path)) (.string workspace) =
      (buildGraph h (files.map (·.path)) workspace).mapError .build := by
  have hpaths := asPaths_strings (files.map (·.path))
  rw [List.map_map] at hpaths
  unfold graphOf
  simp only [Value.asPath]
  rw [show (fun f : ChangedFile => Value.string f.path) = Value.string ∘ (·.path) from rfl, hpaths]

theorem seeds_listed :
    (((listed workspace files).get? "seed_paths").map Item.toJson).getD (.array []) =
      .array (files.map fun f => .string f.path) := rfl

theorem ends_dependencyGraph (options : Options)
    (hbuild : buildGraph world.host (files.map (·.path)) workspace = .ok g) :
    (Stage.dependencyGraph options).Ends (listed workspace files) world (charted workspace files g)
      world := by
  have hgraph := graphOf_listed workspace files world.host
  rw [hbuild] at hgraph
  unfold Stage.Ends Stage.dependencyGraph
  simp only [seeds_listed]
  unfold listed
  simp only [need_workspace, Item.toJson, hgraph]
  exact ⟨_, rfl, rfl, rfl⟩

theorem execute_dependencyGraph_of_fault (options : Options) {fault : BuildFault}
    (hbuild : buildGraph world.host (files.map (·.path)) workspace = .error fault) :
    (Stage.dependencyGraph options).execute (listed workspace files) world =
      (.error (.build fault), world) := by
  have hgraph := graphOf_listed workspace files world.host
  rw [hbuild] at hgraph
  unfold Stage.dependencyGraph
  simp only [seeds_listed]
  unfold listed
  simp only [need_workspace, Item.toJson, hgraph]
  rfl

theorem givesUp_dependencyGraph (options : Options) {fault : BuildFault}
    (hbuild : buildGraph world.host (files.map (·.path)) workspace = .error fault) :
    (Stage.dependencyGraph options).GivesUp (listed workspace files) world world :=
  ⟨_, execute_dependencyGraph_of_fault workspace files options hbuild⟩

/-! ## Writing the graph -/

/-- A graph as it is written to a file. -/
def graphBytes (g : Graph) : List UInt8 := Text.Utf8.encode (String.ofList (g.toText (some 2)))

/-- The way of a graph to its output path: none if there is no such path, or into a file in directories
that are made for it. -/
inductive Exported (tree : FileTree) (g : Graph) : Path → FileTree → Prop where
  | nowhere : Exported tree g [] tree
  | written {output : Path} {made after : FileTree} (hne : output ≠ [])
      (hmade : makeParents tree output = (made, none))
      (hwrite : made.write (Path.tidy output) (graphBytes g) = .ok after) :
      Exported tree g output after

/-- Whether a graph can be written to an output path: its directories can be made, and then there is a
spot where the file may be written. -/
def IsWritable (tree : FileTree) (output : Path) : Prop :=
  output = [] ∨ ∃ made place, makeParents tree output = (made, none) ∧
    made.spotFor? (Path.tidy output) = some place

theorem exists_exported_iff (g : Graph) {output : Path} :
    (∃ after, Exported tree g output after) ↔ IsWritable tree output := by
  constructor
  · rintro ⟨after, h⟩
    cases h with
    | nowhere => exact .inl rfl
    | written _ hmade hwrite =>
      obtain ⟨place, hspot, -⟩ := FileTree.write_eq_ok_iff.1 hwrite
      exact .inr ⟨_, place, hmade, hspot⟩
  · rintro (rfl | ⟨made, place, hmade, hspot⟩)
    · exact ⟨tree, .nowhere⟩
    · by_cases hne : output = []
      · subst hne
        exact ⟨tree, .nowhere⟩
      · exact ⟨_, .written hne hmade (FileTree.write_eq_ok_iff.2 ⟨place, hspot, rfl⟩)⟩

theorem Exported.holds {after : FileTree} {output : Path} (h : Exported tree g output after)
    (hne : output ≠ []) : after.Holds (Path.tidy output) (graphBytes g) := by
  cases h with
  | nowhere => exact absurd rfl hne
  | written _ _ hwrite => exact FileTree.holds_of_write hwrite

theorem graphText_exportIndent (g : Graph) :
    (Item.graph g).graphText exportIndent = .ok (g.toText (some 2)) := rfl

theorem exportGraph_eq_none_iff {after : FileTree} {output : Path} (hne : output ≠ []) :
    exportGraph tree output exportIndent (.graph g) = (after, none) ↔ Exported tree g output after := by
  rw [exportGraph, graphText_exportIndent]
  constructor
  · intro h
    split at h
    · cases h
    · next made hmade =>
      dsimp only at h
      split at h
      · next hwrite =>
        cases h
        exact .written hne hmade hwrite
      · cases h
  · intro h
    cases h with
    | nowhere => exact absurd rfl hne
    | written _ hmade hwrite =>
      rw [graphBytes] at hwrite
      rw [hmade]
      dsimp only
      rw [hwrite]

theorem isVoid_string_iff {text : List Char} : (Value.string text).isVoid = true ↔ text = [] :=
  List.isEmpty_iff

theorem ends_graphExport {output : Path} {after : FileTree}
    (h : Exported world.tree g output after) :
    (Stage.graphExport [("output_path", .string output)]).Ends (charted workspace files g) world
      (delivered workspace files g output) (world.withTree after) := by
  have hneed : need (charted workspace files g) "graph" = .ok (.graph g) := rfl
  have hoption : Options.get [("output_path", .string output)] "output_path" = .string output := rfl
  have hindent : (Options.get? [("output_path", .string output)] "indent").getD exportIndent =
    exportIndent := rfl
  unfold Stage.Ends Stage.graphExport
  simp only [hneed, hoption, hindent, Value.asPath]
  by_cases hne : output = []
  · subst hne
    cases h with
    | nowhere => exact ⟨_, rfl, rfl, rfl⟩
    | written hne => exact absurd rfl hne
  · rw [if_neg (mt isVoid_string_iff.1 hne), (exportGraph_eq_none_iff hne).2 h]
    refine ⟨_, rfl, rfl, ?_⟩
    rw [delivered, if_neg hne]

theorem givesUp_graphExport {output : Path} (h : ¬ ∃ after, Exported world.tree g output after) :
    ∃ after : FileTree, (Stage.graphExport [("output_path", .string output)]).GivesUp
      (charted workspace files g) world (world.withTree after) := by
  have hneed : need (charted workspace files g) "graph" = .ok (.graph g) := rfl
  have hoption : Options.get [("output_path", .string output)] "output_path" = .string output := rfl
  have hindent : (Options.get? [("output_path", .string output)] "indent").getD exportIndent =
    exportIndent := rfl
  have hne : output ≠ [] := by
    rintro rfl
    exact h ⟨_, .nowhere⟩
  unfold Stage.GivesUp Stage.graphExport
  simp only [hneed, hoption, hindent, Value.asPath]
  rw [if_neg (mt isVoid_string_iff.1 hne)]
  cases hexport : exportGraph world.tree output exportIndent (.graph g) with
  | mk after fault =>
    cases fault with
    | none => exact absurd ⟨after, (exportGraph_eq_none_iff hne).1 hexport⟩ h
    | some fault => exact ⟨after, fault, rfl⟩

end

/-! ## One stage after the other -/

/-- The data of the last of some results. -/
def lastData (results : List StageResult) : Datum :=
  match results.getLast? with
  | some last => last.data
  | none => .null

theorem lastData_cons (first : StageResult) {results : List StageResult} (hne : results ≠ []) :
    lastData (first :: results) = lastData results := by
  cases results with
  | nil => exact absurd rfl hne
  | cons second results => rw [lastData, lastData, List.getLast?_cons_cons]

/-- What stages report once they are run: a world that differs from a given one at most in its tree, and
whether they succeeded, with which data and which tree. -/
structure Progress.Reports (done : Progress World) (asked : World)
    (course : Bool → Datum → FileTree → Prop) : Prop where
  started : done.world = asked.withTree done.world.tree
  goes : course done.halt.isNone (lastData done.results) done.world.tree

section

variable {p : Pipeline World} {stage : Stage World} {later : List (Stage World)} {input output : Datum}
  {world after asked : World} {status : StatusBoard}
  {course : Bool → Datum → FileTree → Prop}

theorem Progress.Reports.of_tree {done : Progress World} {tree : FileTree}
    (h : done.Reports (asked.withTree tree) course) : done.Reports asked course :=
  ⟨h.started, h.goes⟩

theorem runStages_of_fault {fault : Fault} (hstop : p.continueOnFailure = false)
    (hexec : stage.execute input world = (.error fault, after)) :
    runStages p 1 (stage :: later) input status world =
      ⟨[{ success := false,
          metadata := [("stage", .text stage.name), ("error_type", .text fault.label)],
          error := some fault.message,
          timed := true }],
        ((status.set stage.name .running).set stage.name .failed).setAll (later.map (·.name)) .skipped,
        some (.failure (failureText stage.name (some fault.message))), after⟩ := by
  rw [runStages, Stage.attempt_one, Stage.run, hexec]
  dsimp only
  rw [if_neg Bool.false_ne_true, if_neg (by rw [hstop]; decide)]

theorem reports_of_givesUp (hstop : p.continueOnFailure = false) (h : stage.GivesUp input world after)
    (hcourse : ∀ data, course false data after.tree) :
    (runStages p 1 (stage :: later) input status world).Reports after course := by
  obtain ⟨fault, hexec⟩ := h
  rw [runStages_of_fault hstop hexec]
  exact ⟨rfl, hcourse _⟩

theorem runStages_of_ends (h : stage.Ends input world output after) :
    ∃ result : StageResult, result.data = output ∧
      runStages p 1 (stage :: later) input status world =
        let rest := runStages p 1 later output
          ((status.set stage.name .running).set stage.name .completed) after
        { rest with results := result :: rest.results } := by
  obtain ⟨result, hexec, hsuccess, hdata⟩ := h
  refine ⟨{ result with timed := true }, hdata, ?_⟩
  rw [runStages, Stage.attempt_one, Stage.run, hexec]
  dsimp only
  rw [if_pos hsuccess, hdata]

theorem results_runStages_ne_nil :
    (runStages p 1 (stage :: later) input status world).results ≠ [] := by
  rw [runStages, Stage.attempt_one]
  dsimp only
  split
  · exact List.cons_ne_nil _ _
  · split <;> exact List.cons_ne_nil _ _

theorem reports_of_ends {next : Stage World} (h : stage.Ends input world output after)
    (hrest : ∀ status, (runStages p 1 (next :: later) output status after).Reports asked course) :
    (runStages p 1 (stage :: next :: later) input status world).Reports asked course := by
  obtain ⟨first, -, hrun⟩ := runStages_of_ends h
  have hreport := hrest ((status.set stage.name .running).set stage.name .completed)
  rw [hrun]
  refine ⟨hreport.started, ?_⟩
  dsimp only
  rw [lastData_cons first results_runStages_ne_nil]
  exact hreport.goes

theorem reports_of_ends_last (h : stage.Ends input world output after)
    (hcourse : course true output after.tree) :
    (runStages p 1 [stage] input status world).Reports after course := by
  obtain ⟨last, hdata, hrun⟩ := runStages_of_ends h
  rw [hrun]
  refine ⟨rfl, ?_⟩
  rw [← hdata] at hcourse
  exact hcourse

end

/-- What comes of a start that is not refused: whether it succeeds, the data it reports, and the tree
that it leaves. -/
inductive Course (world : World) (reply : Git.Reply) (workspace : Path) (commit : Option Path)
    (output : Path) : Bool → Datum → FileTree → Prop where
  | noListing {data : Datum} (hreply : endsWell reply = false) :
      Course world reply workspace commit output false data world.tree
  | noWorkspace {data : Datum} {stdout stderr : List UInt8} (hreply : reply = .exited stdout stderr 0)
      (hdir : world.host.isDirectory (world.host.absolute workspace) = false) :
      Course world reply workspace commit output false data world.tree
  | noFile {data : Datum} {stdout stderr : List UInt8} {g : Graph} {after : FileTree}
      (hreply : reply = .exited stdout stderr 0)
      (hbuild : buildGraph world.host
        ((changesIn commit workspace (Text.Utf8.decodeLenient stdout)).map (·.path)) workspace = .ok g)
      (hexport : ¬ ∃ after, Exported world.tree g output after) :
      Course world reply workspace commit output false data after
  | done {stdout stderr : List UInt8} {g : Graph} {after : FileTree}
      (hreply : reply = .exited stdout stderr 0)
      (hbuild : buildGraph world.host
        ((changesIn commit workspace (Text.Utf8.decodeLenient stdout)).map (·.path)) workspace = .ok g)
      (hexport : Exported world.tree g output after) :
      Course world reply workspace commit output true
        (delivered workspace (changesIn commit workspace (Text.Utf8.decodeLenient stdout)) g output)
        after

section

variable {world : World} {after : FileTree} {reply : Git.Reply} {workspace : Path} {commit : Option Path}
  {output : Path} {success : Bool} {data : Datum}

theorem isDirectory_of_buildGraph {h : Host} {seeds : List Path} {g : Graph}
    (hbuild : buildGraph h seeds workspace = .ok g) : h.isDirectory (h.absolute workspace) = true := by
  rw [buildGraph_eq_explore] at hbuild
  split at hbuild
  · next hdir => exact hdir
  · cases hbuild

theorem Course.success_iff (hcourse : Course world reply workspace commit output success data after) :
    success = true ↔ endsWell reply = true ∧
      world.host.isDirectory (world.host.absolute workspace) = true ∧
      IsWritable world.tree output := by
  cases hcourse with
  | noListing hreply => simp [hreply]
  | noWorkspace _ hdir => simp [hdir]
  | noFile _ _ hexport => simp [mt (exists_exported_iff _).2 hexport]
  | done hreply hbuild hexport =>
    refine iff_of_true rfl ⟨endsWell_iff.2 ⟨_, _, hreply⟩, isDirectory_of_buildGraph hbuild, ?_⟩
    exact (exists_exported_iff _).1 ⟨_, hexport⟩

theorem Course.delivers (hcourse : Course world reply workspace commit output true data after) :
    ∃ stdout stderr g, reply = .exited stdout stderr 0 ∧
      let files := changesIn commit workspace (Text.Utf8.decodeLenient stdout)
      buildGraph world.host (files.map (·.path)) workspace = .ok g ∧
        data = delivered workspace files g output ∧ Exported world.tree g output after := by
  cases hcourse with
  | done hreply hbuild hexport => exact ⟨_, _, _, hreply, hbuild, rfl, hexport⟩

end

/-- The stages of a start. -/
def startStages (commit : Option Path) (options : Options) (output : Path) : List (Stage World) :=
  [.changedFiles [("commit_ref", .orNull .string commit)], .dependencyGraph options,
    .graphExport [("output_path", .string output)]]

/-- The stages of a start take one of the courses, and only the first of them starts a process. -/
theorem reports_startStages {p : Pipeline World} (hstop : p.continueOnFailure = false)
    (commit : Option Path) (options : Options) (output : Path) (status : StatusBoard) (world : World)
    (workspace : Path) :
    (runStages p 1 (startStages commit options output) (startDatum (.string workspace)) status
      world).Reports (world.asked (changesCall workspace commit))
      (Course world (Git.Launcher.nextReply world.launcher.replies).1 workspace commit output) := by
  unfold startStages
  cases hreply : endsWell (Git.Launcher.nextReply world.launcher.replies).1 with
  | false =>
    exact reports_of_givesUp hstop (givesUp_changedFiles workspace commit hreply) fun _ =>
      .noListing hreply
  | true =>
    obtain ⟨stdout, stderr, hreply⟩ := endsWell_iff.1 hreply
    refine reports_of_ends (ends_changedFiles workspace commit hreply) fun _ => ?_
    cases hbuild : buildGraph (world.asked (changesCall workspace commit)).host
        ((changesIn commit workspace (Text.Utf8.decodeLenient stdout)).map (·.path)) workspace with
    | error fault =>
      refine reports_of_givesUp hstop (givesUp_dependencyGraph workspace _ options hbuild) fun _ =>
        .noWorkspace hreply ?_
      rw [buildGraph_eq_explore] at hbuild
      split at hbuild
      · cases hbuild
      · next hdir => exact Bool.eq_false_iff.2 hdir
    | ok g =>
      refine reports_of_ends (ends_dependencyGraph workspace _ options hbuild) fun _ => ?_
      by_cases hexport :
          ∃ after, Exported (world.asked (changesCall workspace commit)).tree g output after
      · obtain ⟨after, hexport⟩ := hexport
        exact .of_tree (reports_of_ends_last (ends_graphExport workspace _ hexport)
          (.done hreply hbuild hexport))
      · obtain ⟨after, hlast⟩ := givesUp_graphExport workspace _ hexport
        exact .of_tree (reports_of_givesUp hstop hlast fun _ => .noFile hreply hbuild hexport)

end Pipeline

end ImportAtlas
