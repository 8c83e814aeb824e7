/-
# ImportAtlas.Proofs.Answers -- what the service answers

Two handlers lead to a graph. One calls the builder with the seeds of the request. The other runs the
stages of a pipeline, each of which turns a fault into a report, and reads the response off the last
report. `changesAnswer` gives the same response without stages, from the reply of version control and the
builder alone (`answerChanges_eq`).

Neither way looks at the settings. The pipeline is handed an empty output path, which is a path that is
given and not one that is left to the settings, so that nothing is ever written. This is a fact about the
handlers, and it holds of the service whatever the gateway in front of them lets through
(`service_leaves_files_whatever_output_path`).
-/
import ImportAtlas.Proofs.ListedNodes
import ImportAtlas.Service

namespace ImportAtlas

namespace Service

open Json (Value)
open Pipeline

/-! ## Graphs of given seeds -/

theorem answerGraph_eq (world : World) (r : GraphRequest) :
    answerGraph world r =
      if world.host.isDirectory (world.host.absolute r.workspace) then
        ⟨200, (world.host.explore r.workspace r.seeds).toGraph.toJson⟩
      else refuse 400 (BuildFault.message ⟨world.host.absolute r.workspace⟩) := by
  rw [answerGraph, buildGraph_eq_explore]
  cases world.host.isDirectory (world.host.absolute r.workspace) <;> rfl

theorem status_answerGraph (world : World) (r : GraphRequest) :
    ((answerGraph world r).status = 400 ↔
        ¬ world.host.isDirectory (world.host.absolute r.workspace) = true) ∧
      ((answerGraph world r).status = 200 ↔
        world.host.isDirectory (world.host.absolute r.workspace) = true) := by
  rw [answerGraph_eq]
  by_cases hroot : world.host.isDirectory (world.host.absolute r.workspace) = true
  · rw [if_pos hroot]
    simp [hroot]
  · rw [if_neg hroot]
    simp [hroot, refuse]

/-! ## Graphs of changes -/

/-- What is answered when a stage gives up: some kinds of errors lie with the request. -/
def faultAnswer (stage : String) (fault : Fault) : Response :=
  refuse (if requestErrors.contains fault.label then 400 else 500)
    (failureText stage (some fault.message))

/-- What a process printed. -/
def printed : Git.Reply → List Char
  | .exited stdout _ _ => Text.Utf8.decodeLenient stdout
  | _ => []

/-- What is answered to a request for the changes in a workspace, given the reply of version control. -/
def changesAnswer (h : Host) (r : ChangesRequest) (reply : Git.Reply) : Response :=
  match replyFault? (changesWords r.commit) reply with
  | some fault => faultAnswer "Changed Files" (.git fault)
  | none =>
    let files := changesIn r.commit r.workspace (printed reply)
    match buildGraph h (files.map (·.path)) r.workspace with
    | .error fault => faultAnswer "Dependency Graph" (.build fault)
    | .ok graph =>
      ⟨200, .record [("nodes", .array (graph.nodes.map FileNode.toJson)),
        ("edges", .array (graph.edges.map Edge.toJson)),
        ("changedFiles", .array (files.map ChangedFile.toJson))]⟩

/-- The response that a report is read into. -/
def reportAnswer (result : PipelineResult) : Response :=
  if result.success then ⟨200, changesBody result.data⟩
  else refuse (failureStatus result) (result.error.getD "")

/-- A report is read from its last stage, whatever the stages before it reported. -/
theorem reportAnswer_of_fault {result : PipelineResult} {stage : String} {fault : Fault}
    (hsuccess : result.success = false)
    (herror : result.error = some (failureText stage (some fault.message)))
    (hlast : ∃ last, result.results.getLast? = some last ∧
      last.metadata = [("stage", .text stage), ("error_type", .text fault.label)]) :
    reportAnswer result = faultAnswer stage fault := by
  obtain ⟨last, hlast, hmetadata⟩ := hlast
  have hstatus : failureStatus result = if requestErrors.contains fault.label then 400 else 500 := by
    rw [failureStatus, hlast]
    dsimp only
    rw [hmetadata]
    simp [Value.text]
  rw [reportAnswer, hsuccess, if_neg Bool.false_ne_true, hstatus, herror]
  rfl

theorem exists_exited_of_replyFault? {words : List String} {reply : Git.Reply}
    (hfault : replyFault? words reply = none) : ∃ stdout stderr, reply = .exited stdout stderr 0 := by
  cases hends : endsWell reply with
  | true => exact endsWell_iff.1 hends
  | false =>
    obtain ⟨fault, hsome⟩ := exists_replyFault? words hends
    cases hfault.symm.trans hsome

section

variable (settings : Settings) (world : World) (workspace : Path) (commit : Option Path)

theorem startPipeline_of_replyFault? {fault : Git.Fault}
    (hfault : replyFault? (changesWords commit) (Git.Launcher.nextReply world.launcher.replies).1 =
      some fault) :
    ∃ r, startPipeline settings world (.string workspace) (.orNull .string commit) (.text "")
        pipelineId = (.ok r, world.asked (changesCall workspace commit)) ∧
      reportAnswer r = faultAnswer "Changed Files" (.git fault) := by
  obtain ⟨p, hstop, hstart⟩ :=
    startPipeline_eq_runStages settings world workspace commit (some []) pipelineId rfl
  rw [startStages, runStages_of_fault hstop
    (execute_changedFiles_of_fault workspace commit hfault)] at hstart
  exact ⟨_, hstart, reportAnswer_of_fault rfl rfl ⟨_, rfl, rfl⟩⟩

theorem startPipeline_of_buildFault {stdout stderr : List UInt8}
    {fault : BuildFault}
    (hreply : (Git.Launcher.nextReply world.launcher.replies).1 = .exited stdout stderr 0)
    (hbuild : buildGraph world.host
      ((changesIn commit workspace (Text.Utf8.decodeLenient stdout)).map (·.path)) workspace =
        .error fault) :
    ∃ r, startPipeline settings world (.string workspace) (.orNull .string commit) (.text "")
        pipelineId = (.ok r, world.asked (changesCall workspace commit)) ∧
      reportAnswer r = faultAnswer "Dependency Graph" (.build fault) := by
  obtain ⟨p, hstop, hstart⟩ :=
    startPipeline_eq_runStages settings world workspace commit (some []) pipelineId rfl
  obtain ⟨first, -, hrun⟩ := runStages_of_ends (ends_changedFiles workspace commit hreply)
  -- Version control leaves the files alone that the second stage works on.
  have hasked : buildGraph (world.asked (changesCall workspace commit)).host _ workspace =
    .error fault := hbuild
  rw [startStages, hrun, runStages_of_fault hstop
    (execute_dependencyGraph_of_fault workspace _ _ hasked)] at hstart
  exact ⟨_, hstart, reportAnswer_of_fault rfl rfl ⟨_, rfl, rfl⟩⟩

theorem startPipeline_of_graph {stdout stderr : List UInt8} {g : Graph}
    (hreply : (Git.Launcher.nextReply world.launcher.replies).1 = .exited stdout stderr 0)
    (hbuild : buildGraph world.host
      ((changesIn commit workspace (Text.Utf8.decodeLenient stdout)).map (·.path)) workspace = .ok g) :
    ∃ r, startPipeline settings world (.string workspace) (.orNull .string commit) (.text "")
        pipelineId = (.ok r, world.asked (changesCall workspace commit)) ∧
      r.success = true ∧
      r.data = charted workspace (changesIn commit workspace (Text.Utf8.decodeLenient stdout)) g := by
  obtain ⟨r, after, hstart, hcourse⟩ :=
    startPipeline_of_checkOutput settings world workspace commit (some []) pipelineId rfl
  have hsuccess : r.success = true :=
    hcourse.success_iff.2 ⟨endsWell_iff.2 ⟨_, _, hreply⟩, isDirectory_of_buildGraph hbuild, .inl rfl⟩
  rw [hsuccess] at hcourse
  obtain ⟨_, _, g', hreply', hbuild', hdata, hexport⟩ := hcourse.delivers
  cases hreply.symm.trans hreply'
  cases hbuild.symm.trans hbuild'
  -- With an empty output path the graph goes nowhere.
  obtain rfl : world.tree = after := by
    cases hexport with
    | nowhere => rfl
    | written hne => exact absurd rfl hne
  exact ⟨r, hstart, hsuccess, hdata⟩

/-- What a start with an empty output path reports is answered as the reply of version control and the
builder say, and the files stay as they are. -/
theorem startPipeline_answers :
    ∃ r, startPipeline settings world (.string workspace) (.orNull .string commit) (.text "")
        pipelineId = (.ok r, world.asked (changesCall workspace commit)) ∧
      reportAnswer r = changesAnswer world.host ⟨workspace, commit⟩
        (Git.Launcher.nextReply world.launcher.replies).1 := by
  rw [changesAnswer]
  dsimp only
  cases hfault : replyFault? (changesWords commit) (Git.Launcher.nextReply world.launcher.replies).1 with
  | some fault => exact startPipeline_of_replyFault? settings world workspace commit hfault
  | none =>
    obtain ⟨stdout, stderr, hreply⟩ := exists_exited_of_replyFault? hfault
    rw [hreply]
    dsimp only [printed]
    cases hbuild : buildGraph world.host
        ((changesIn commit workspace (Text.Utf8.decodeLenient stdout)).map (·.path)) workspace with
    | error fault => exact startPipeline_of_buildFault settings world workspace commit hreply hbuild
    | ok g =>
      obtain ⟨r, hstart, hsuccess, hdata⟩ :=
        startPipeline_of_graph settings world workspace commit hreply hbuild
      refine ⟨r, hstart, ?_⟩
      rw [reportAnswer, hsuccess, if_pos rfl, hdata]
      rfl

end

theorem answerChanges_eq (settings : Settings) (world : World) (r : ChangesRequest) :
    answerChanges settings world r =
      (changesAnswer world.host r (Git.Launcher.nextReply world.launcher.replies).1,
        world.asked (changesCall r.workspace r.commit)) := by
  obtain ⟨result, hstart, hanswer⟩ := startPipeline_answers settings world r.workspace r.commit
  rw [answerChanges, hstart, ← hanswer, reportAnswer]
  dsimp only
  split <;> rfl

/-! ## Statuses -/

section

variable (h : Host) (r : ChangesRequest)

theorem status_changesAnswer_refused (reason : String) :
    (changesAnswer h r (.refused reason)).status = 400 := rfl

theorem status_changesAnswer_failed (kind message : String) :
    (changesAnswer h r (.failed kind message)).status =
      if kind ∈ requestErrors then 400 else 500 := by
  show (if requestErrors.contains kind then 400 else 500) = _
  simp only [List.contains_iff_mem]

theorem status_changesAnswer_badExit (stdout stderr : List UInt8) {code : Int} (hcode : code ≠ 0) :
    (changesAnswer h r (.exited stdout stderr code)).status = 400 := by
  have hfault : replyFault? (changesWords r.commit) (.exited stdout stderr code) = some _ :=
    if_neg hcode
  rw [changesAnswer, hfault]
  rfl

theorem status_faultAnswer_build (stage : String) (fault : BuildFault) :
    (faultAnswer stage (.build fault)).status = 400 := rfl

theorem changesAnswer_of_exited (stdout stderr : List UInt8) :
    changesAnswer h r (.exited stdout stderr 0) =
      let files := changesIn r.commit r.workspace (Text.Utf8.decodeLenient stdout)
      let g := (h.explore r.workspace (files.map (·.path))).toGraph
      if h.isDirectory (h.absolute r.workspace) then
        ⟨200, .record [("nodes", .array (g.nodes.map FileNode.toJson)),
          ("edges", .array (g.edges.map Edge.toJson)),
          ("changedFiles", .array (files.map ChangedFile.toJson))]⟩
      else faultAnswer "Dependency Graph" (.build ⟨h.absolute r.workspace⟩) := by
  have hfault : replyFault? (changesWords r.commit) (.exited stdout stderr 0) = none := rfl
  rw [changesAnswer, hfault]
  dsimp only [printed]
  rw [buildGraph_eq_explore]
  cases h.isDirectory (h.absolute r.workspace) <;> rfl

end

/-- A request for the changes in a workspace succeeds exactly if version control runs and ends well and
the workspace is a directory. What it lists as changed, each file with its path and its status, is then
read from what version control printed. Its nodes and edges are those that are answered, on the same
files, to a request for the graph of the paths that it lists. It is refused as a bad request if version
control cannot be started, ends badly or lists files of a workspace that is no directory, and fails if
starting it went wrong in another way; such an error only counts as a bad request if it is of one of the
two kinds of the service's own. A request for the graph of given seeds is refused exactly if the workspace
is no directory, and succeeds otherwise. -/
theorem changes_are_answered_as_graph_of_listed (settings : Settings) (world : World)
    (r : ChangesRequest) :
    let reply := (Git.Launcher.nextReply world.launcher.replies).1
    let isRoot : Prop := world.host.isDirectory (world.host.absolute r.workspace) = true
    let answer := (answerChanges settings world r).1
    (answer.status = 200 ↔ endsWell reply = true ∧ isRoot) ∧
    (answer.status = 400 ↔
      (∃ reason, reply = .refused reason) ∨
      (∃ stdout stderr code, reply = .exited stdout stderr code ∧ code ≠ 0) ∨
      (endsWell reply = true ∧ ¬ isRoot) ∨
      ∃ kind message, reply = .failed kind message ∧ kind ∈ requestErrors) ∧
    (answer.status = 500 ↔ ∃ kind message, reply = .failed kind message ∧ kind ∉ requestErrors) ∧
    (answer.status = 200 → ∃ (stdout stderr : List UInt8) (g : Graph), reply = .exited stdout stderr 0 ∧
      let files := changesIn r.commit r.workspace (Text.Utf8.decodeLenient stdout)
      let nodes := g.nodes.map fun n => Value.record [("id", .string n.id), ("label", .string n.label),
        ("path", .string n.path), ("isChanged", .bool n.isChanged)]
      let edges := g.edges.map fun e => Value.record [("source", .string e.source),
        ("target", .string e.target), ("kind", .orNull .text e.kind)]
      let listed := files.map fun f => Value.record [("path", .string f.path),
        ("status", .string f.status)]
      buildGraph world.host (files.map (·.path)) r.workspace = .ok g ∧
      answer.body = .record [("nodes", .array nodes), ("edges", .array edges),
        ("changedFiles", .array listed)] ∧
      ∀ launcher, answerGraph { world with launcher } ⟨r.workspace, files.map (·.path)⟩ =
        ⟨200, .record [("nodes", .array nodes), ("edges", .array edges)]⟩) ∧
    ∀ seeds, ((answerGraph world ⟨r.workspace, seeds⟩).status = 400 ↔ ¬ isRoot) ∧
      ((answerGraph world ⟨r.workspace, seeds⟩).status = 200 ↔ isRoot) := by
  intro reply isRoot answer
  have hanswer : answer = changesAnswer world.host r reply :=
    congrArg Prod.fst (answerChanges_eq settings world r)
  have hgraph (seeds : List Path) :
      ((answerGraph world ⟨r.workspace, seeds⟩).status = 400 ↔ ¬ isRoot) ∧
        ((answerGraph world ⟨r.workspace, seeds⟩).status = 200 ↔ isRoot) :=
    status_answerGraph world ⟨r.workspace, seeds⟩
  rw [hanswer]
  cases hreply : reply with
  | refused reason =>
    rw [status_changesAnswer_refused]
    exact ⟨by simp [endsWell], by simp, by simp, by simp, hgraph⟩
  | failed kind message =>
    rw [status_changesAnswer_failed]
    by_cases hkind : kind ∈ requestErrors
    · rw [if_pos hkind]
      exact ⟨by simp [endsWell], by simp [hkind], by simp [hkind], by simp, hgraph⟩
    · rw [if_neg hkind]
      exact ⟨by simp [endsWell], by simp [endsWell, hkind], by simp [hkind], by simp, hgraph⟩
  | exited stdout stderr code =>
    by_cases hcode : code = 0
    · subst hcode
      rw [changesAnswer_of_exited]
      by_cases hroot : isRoot
      · dsimp only
        rw [if_pos hroot]
        refine ⟨by simp [endsWell, hroot], by simp [hroot], by simp, ?_, hgraph⟩
        intro _
        refine ⟨stdout, stderr, _, rfl, ?_, rfl, ?_⟩
        · rw [buildGraph_eq_explore, if_pos hroot]
        · intro launcher
          exact (answerGraph_eq _ _).trans (if_pos hroot)
      · dsimp only
        rw [if_neg hroot, status_faultAnswer_build]
        exact ⟨by simp [hroot], by simp [endsWell, hroot], by simp, by simp, hgraph⟩
    · rw [status_changesAnswer_badExit _ _ _ _ hcode]
      exact ⟨by simp [endsWell, hcode], by simp [hcode], by simp, by simp, hgraph⟩

/-- The graph of the file that was changed in the workspace. -/
theorem explore_modified :
    (modifiedWorld.host.explore "/w".toList ["/w/a.rs".toList]).nodes =
      [⟨"a.rs".toList, "a.rs".toList, "/w/a.rs".toList, true⟩,
        ⟨"b.rs".toList, "b.rs".toList, "/w/b.rs".toList, false⟩] ∧
      (modifiedWorld.host.explore "/w".toList ["/w/a.rs".toList]).edges =
        [{ source := "a.rs".toList, target := "b.rs".toList },
        { source := "b.rs".toList, target := "a.rs".toList }] := by
  have ha : (mutualHost.importMap "/w".toList).targets "/w/a.rs".toList = ["/w/b.rs".toList] :=
    targets_mutualModules.1
  have hb : (mutualHost.importMap "/w".toList).targets "/w/b.rs".toList = ["/w/a.rs".toList] :=
    targets_mutualModules.2
  have hroot : mutualHost.absolute "/w".toList = "/w".toList := by cbv
  have hseeds : ["/w/a.rs".toList].map (Builder.ofWorkspace mutualHost "/w".toList).seedPath =
      ["/w/a.rs".toList] := by cbv
  obtain ⟨hida, hidb⟩ := ids_mutualModules
  have hexplore : modifiedWorld.host.explore "/w".toList ["/w/a.rs".toList] =
      (mutualHost.importMap "/w".toList).walkSeeds ["/w/a.rs".toList] := by
    show mutualHost.explore "/w".toList ["/w/a.rs".toList] = _
    rw [Host.explore, hseeds, hroot]
  obtain ⟨hnodes, hedges⟩ :=
    ImportMap.walkSeeds_pair ha hb ids_ne_mutualModules [] (List.forall_mem_nil _)
  rw [hexplore]
  constructor
  · rw [hnodes, ImportMap.node, ImportMap.node, hida, hidb]
    decide
  · rw [hedges, ImportMap.edgesFrom, ImportMap.edgesFrom, ha, hb, List.map_singleton,
      List.map_singleton, hida, hidb]
    rfl

/-- A request for the changes in a workspace in which one of two modules was changed. -/
theorem changes_are_answered_as_graph_of_listed_modified :
    let nodes : List Value :=
      [.record [("id", .text "a.rs"), ("label", .text "a.rs"), ("path", .text "/w/a.rs"),
          ("isChanged", .bool true)],
        .record [("id", .text "b.rs"), ("label", .text "b.rs"), ("path", .text "/w/b.rs"),
          ("isChanged", .bool false)]]
    let edges : List Value :=
      [.record [("source", .text "a.rs"), ("target", .text "b.rs"), ("kind", .text "import")],
        .record [("source", .text "b.rs"), ("target", .text "a.rs"), ("kind", .text "import")]]
    (answerChanges {} modifiedWorld { workspace := "/w".toList }).1 =
        ⟨200, .record [("nodes", .array nodes), ("edges", .array edges),
          ("changedFiles", .array [.record [("path", .text "/w/a.rs"), ("status", .text "M")]])]⟩ ∧
      answerGraph modifiedWorld ⟨"/w".toList, ["/w/a.rs".toList]⟩ =
        ⟨200, .record [("nodes", .array nodes), ("edges", .array edges)]⟩ := by
  intro nodes edges
  have hroot : modifiedWorld.host.isDirectory (modifiedWorld.host.absolute "/w".toList) = true := by cbv
  obtain ⟨hok, -, -, hbody, -⟩ :=
    changes_are_answered_as_graph_of_listed {} modifiedWorld { workspace := "/w".toList }
  have hstatus := hok.2 ⟨rfl, hroot⟩
  obtain ⟨stdout, stderr, g, hreply, hbuild, hbody, hsame⟩ := hbody hstatus
  cases hreply
  have hfiles : changesIn none "/w".toList (Text.Utf8.decodeLenient (Text.Utf8.encode
      (String.ofList (Changes.printStatus [modified])))) = [⟨"/w/a.rs".toList, ['M']⟩] := by
    rw [Changes.decodeLenient_printStatus]
    cbv
  dsimp only at hbuild hbody hsame
  rw [hfiles] at hbuild hbody hsame
  rw [buildGraph_eq_explore, if_pos hroot] at hbuild
  obtain ⟨hnodes, hedges⟩ := explore_modified
  have hgraph : (modifiedWorld.host.explore "/w".toList ["/w/a.rs".toList]).toGraph = g :=
    Except.ok.inj hbuild
  rw [← hgraph, hnodes, hedges] at hbody hsame
  exact ⟨congr (congrArg Response.mk hstatus) hbody, hsame modifiedWorld.launcher⟩

/-! ## Many requests -/

/-- No setting has a say in what is answered to a request, and no file is touched. -/
theorem handle_unaffected (settings settings' : Settings) (world : World) (r : Request) :
    handle settings world r = handle settings' world r ∧
      (handle settings world r).2.tree = world.tree := by
  cases r with
  | health => exact ⟨rfl, rfl⟩
  | graph r => exact ⟨rfl, rfl⟩
  | changes r =>
    rw [handle, handle, answerChanges_eq, answerChanges_eq]
    exact ⟨rfl, rfl⟩

section

variable {ρ : Type} (gateway : Gateway ρ) (settings settings' : Settings) (world : World)

theorem respond_unaffected (incoming : ρ) :
    respond gateway settings world incoming = respond gateway settings' world incoming ∧
      (respond gateway settings world incoming).2.tree = world.tree := by
  unfold respond
  split
  · exact ⟨rfl, rfl⟩
  · exact handle_unaffected settings settings' world _

/-- What holds of each request holds of all requests in a row, each of which finds the files as the first
one did. -/
theorem respondAll_unaffected (incoming : List ρ) :
    respondAll gateway settings world incoming = respondAll gateway settings' world incoming ∧
      (respondAll gateway settings world incoming).2.tree = world.tree := by
  induction incoming generalizing world with
  | nil => exact ⟨rfl, rfl⟩
  | cons first later ih =>
    obtain ⟨hsame, htree⟩ := respond_unaffected gateway settings settings' world first
    obtain ⟨ihsame, ihtree⟩ := ih (respond gateway settings world first).2
    simp only [respondAll]
    rw [← hsame, ← ihsame, ihtree, htree]
    exact ⟨rfl, rfl⟩

end

/-- Whatever comes in, in whatever order and through whatever gateway, on any files, with any replies of
version control and any settings, the files stay as they are. All responses, and all processes that are
started, are those of a service whose output path is empty and that is otherwise set up in the same
way. -/
theorem service_leaves_files_whatever_output_path {ρ : Type} (gateway : Gateway ρ) (settings : Settings)
    (world : World) (incoming : List ρ) :
    let served (settings : Settings) := respondAll gateway settings world incoming
    (served settings).2.tree = world.tree ∧
      (served settings).1 = (served { settings with outputPath := "" }).1 ∧
      (served settings).2 = (served { settings with outputPath := "" }).2 := by
  intro served
  obtain ⟨hsame, htree⟩ := respondAll_unaffected gateway settings
    { settings with outputPath := "" } world incoming
  exact ⟨htree, congrArg Prod.fst hsame, congrArg Prod.snd hsame⟩

end Service

end ImportAtlas
