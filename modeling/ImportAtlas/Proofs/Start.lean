/-
# ImportAtlas.Proofs.Start -- what a start does, and what comes of it

Before anything is run, the output path is looked at. A start is refused if that names a directory, and
breaks off if this cannot be told (`FileTree.Untold`): the path is too long, or leads through a directory
that may not be searched. Otherwise the stages are run and take one of their courses, so that everything
said of a start is read off `startPipeline_cases`.
-/
import ImportAtlas.Proofs.Canonical
import ImportAtlas.Proofs.Courses

namespace ImportAtlas

open Json (Value)
open Pipeline

/-! ## Paths that cannot be asked about -/

namespace FileFault

variable {fault other : FileFault}

theorem isPassedOn_iff : fault.isPassedOn = true ↔ fault = .nameTooLong ∨ fault = .denied := by
  cases fault <;> decide

/-- The faults that are passed on are told apart by their labels. -/
theorem eq_of_label_eq (hfault : fault.isPassedOn = true) (hother : other.isPassedOn = true)
    (hlabel : fault.label = other.label) : fault = other := by
  rcases isPassedOn_iff.1 hfault with rfl | rfl <;> rcases isPassedOn_iff.1 hother with rfl | rfl
  · rfl
  · exact absurd hlabel (by decide)
  · exact absurd hlabel (by decide)
  · rfl

theorem label_ne_of_isPassedOn (hfault : fault.isPassedOn = true) : fault.label ≠ "ValueError" := by
  rcases isPassedOn_iff.1 hfault with rfl | rfl
  · decide
  · decide

end FileFault

namespace FileTree

variable {t : FileTree} {p : Path}

/-- Because of some fault it cannot be told whether a path names a directory. -/
def Untold (t : FileTree) (p : Path) (fault : FileFault) : Prop :=
  t.arrive p = .blocked fault ∧ fault.isPassedOn = true

theorem checkDirectory_of_untold {fault : FileFault} (h : t.Untold p fault) :
    t.checkDirectory p = .error fault := by
  rw [checkDirectory, h.1]
  exact if_pos h.2

theorem checkDirectory_of_not_untold (h : ∀ fault, ¬ t.Untold p fault) :
    t.checkDirectory p = .ok (t.isDirectory p) := by
  unfold checkDirectory
  split
  · next fault harrive =>
    rw [if_neg fun hpassed => h fault ⟨harrive, hpassed⟩, isDirectory, harrive]
  · rfl

/-- A path that cannot be asked about names no directory. -/
theorem isDirectory_of_untold {fault : FileFault} (h : t.Untold p fault) : t.isDirectory p = false := by
  rw [isDirectory, h.1]

end FileTree

/-! ## Before the stages are run -/

/-- The path that a graph is written to, empty for none. Where no path is given the settings have one. -/
def Settings.outputFor (settings : Settings) (output : Option Path) : Path :=
  output.getD settings.outputPath.toList

section

variable (settings : Settings) (world : World) (workspace : Path) (commit output : Option Path)
  (id : String)

theorem checkOutput_of_untold {tree : FileTree} {path : Path} {fault : FileFault} (hne : path ≠ [])
    (huntold : tree.Untold (Path.tidy path) fault) :
    checkOutput tree (.string path) = .error (.file fault (Path.tidy path)) := by
  rw [checkOutput, if_neg (mt isVoid_string_iff.1 hne), Value.asPath]
  dsimp only
  rw [FileTree.checkDirectory_of_untold huntold]

/-- Any other output path will do unless it names a directory. -/
theorem checkOutput_of_not_untold {tree : FileTree} {path : Path} (hne : path ≠ [])
    (htold : ∀ fault, ¬ tree.Untold (Path.tidy path) fault) :
    checkOutput tree (.string path) = .ok !tree.isDirectory (Path.tidy path) := by
  rw [checkOutput, if_neg (mt isVoid_string_iff.1 hne), Value.asPath]
  dsimp only
  rw [FileTree.checkDirectory_of_not_untold htold]

theorem stages_graphPipeline :
    (graphPipeline settings (.orNull .string commit) (.orNull .string output) id).stages =
      startStages commit [("show_progress", .bool settings.showProgress)]
        (settings.outputFor output) := by
  cases output <;> rfl

/-- Of the stages only the last can be set up in a way that does not work. -/
theorem isValid_graphPipeline :
    (graphPipeline settings (.orNull .string commit) (.orNull .string output) id).isValid world =
      checkOutput world.tree (.string (settings.outputFor output)) := by
  rw [Pipeline.isValid, stages_graphPipeline]
  show checkStages world [.graphExport [("output_path", .string (settings.outputFor output))]] = _
  rw [checkStages]
  split
  · next h => exact h.symm
  · rfl

/-! ## Running the stages -/

/-- A start that is not held up reports what its stages report. -/
theorem startPipeline_eq_runStages
    (hcheck : checkOutput world.tree (.string (settings.outputFor output)) = .ok true) :
    ∃ p : Pipeline World, p.continueOnFailure = false ∧
      let done := p.runStages 1
        (startStages commit [("show_progress", .bool settings.showProgress)] (settings.outputFor output))
        (startDatum (.string workspace)) p.status world
      startPipeline settings world (.string workspace) (.orNull .string commit)
          (.orNull .string output) id =
        (.ok { success := done.halt.isNone, id, results := done.results, status := done.status,
               error := done.error? }, done.world) := by
  refine ⟨graphPipeline settings (.orNull .string commit) (.orNull .string output) id, rfl, ?_⟩
  have hexec := Pipeline.execute_eq
    (graphPipeline settings (.orNull .string commit) (.orNull .string output) id) (Int.le_refl 0)
    (startDatum (.string workspace)) world
  rw [stages_graphPipeline] at hexec
  rw [startPipeline, isValid_graphPipeline, hcheck]
  dsimp only
  rw [hexec]
  rfl

theorem startPipeline_of_checkOutput
    (hcheck : checkOutput world.tree (.string (settings.outputFor output)) = .ok true) :
    ∃ r after, startPipeline settings world (.string workspace) (.orNull .string commit)
          (.orNull .string output) id =
        (.ok r, (world.asked (changesCall workspace commit)).withTree after) ∧
      Course world (Git.Launcher.nextReply world.launcher.replies).1 workspace commit
        (settings.outputFor output) r.success r.data after := by
  obtain ⟨p, hstop, hstart⟩ :=
    startPipeline_eq_runStages settings world workspace commit output id hcheck
  have hreport := reports_startStages hstop commit
    [("show_progress", .bool settings.showProgress)] (settings.outputFor output) p.status world workspace
  exact ⟨_, _, hstart.trans (congrArg (Prod.mk _) hreport.started), hreport.goes⟩

theorem startPipeline_of_checkOutput_false
    (hcheck : checkOutput world.tree (.string (settings.outputFor output)) = .ok false) :
    startPipeline settings world (.string workspace) (.orNull .string commit)
        (.orNull .string output) id =
      (.error .invalid, world) := by
  rw [startPipeline, isValid_graphPipeline, hcheck]

theorem startPipeline_of_checkOutput_error {fault : Fault}
    (hcheck : checkOutput world.tree (.string (settings.outputFor output)) = .error fault) :
    startPipeline settings world (.string workspace) (.orNull .string commit)
        (.orNull .string output) id =
      (.error (.untold fault), world) := by
  rw [startPipeline, isValid_graphPipeline, hcheck]

/-- A start is refused because of a directory, breaks off because of a path that cannot be asked about, or
takes its course. -/
theorem startPipeline_cases :
    let out := settings.outputFor output
    let begun := startPipeline settings world (.string workspace) (.orNull .string commit)
      (.orNull .string output) id
    ((out ≠ [] ∧ world.tree.isDirectory (Path.tidy out) = true) ∧ begun = (.error .invalid, world)) ∨
    (∃ fault, (out ≠ [] ∧ world.tree.Untold (Path.tidy out) fault) ∧
      begun = (.error (.untold (.file fault (Path.tidy out))), world)) ∨
    ((¬ (out ≠ [] ∧ world.tree.isDirectory (Path.tidy out) = true) ∧
        ∀ fault, ¬ (out ≠ [] ∧ world.tree.Untold (Path.tidy out) fault)) ∧
      ∃ r after, begun = (.ok r, (world.asked (changesCall workspace commit)).withTree after) ∧
        Course world (Git.Launcher.nextReply world.launcher.replies).1 workspace commit out
          r.success r.data after) := by
  intro out begun
  by_cases hne : out = []
  · refine .inr (.inr ⟨⟨fun h => h.1 hne, fun _ h => h.1 hne⟩, ?_⟩)
    refine startPipeline_of_checkOutput settings world workspace commit output id ?_
    rw [checkOutput, if_pos (isVoid_string_iff.2 hne)]
  by_cases huntold : ∃ fault, world.tree.Untold (Path.tidy out) fault
  · obtain ⟨fault, huntold⟩ := huntold
    refine .inr (.inl ⟨fault, ⟨hne, huntold⟩, ?_⟩)
    exact startPipeline_of_checkOutput_error settings world workspace commit output id
      (checkOutput_of_untold hne huntold)
  · have hcheck := checkOutput_of_not_untold hne (not_exists.1 huntold)
    cases hdir : world.tree.isDirectory (Path.tidy out) with
    | true =>
      rw [hdir] at hcheck
      refine .inl ⟨⟨hne, rfl⟩, ?_⟩
      exact startPipeline_of_checkOutput_false settings world workspace commit output id hcheck
    | false =>
      rw [hdir] at hcheck
      refine .inr (.inr ⟨⟨fun h => Bool.false_ne_true h.2, fun fault h => huntold ⟨fault, h.2⟩⟩, ?_⟩)
      exact startPipeline_of_checkOutput settings world workspace commit output id hcheck

/-- The two ways in which a start is held up. -/
theorem startPipeline_error_iff {fault : StartFault} :
    let out := settings.outputFor output
    (startPipeline settings world (.string workspace) (.orNull .string commit)
        (.orNull .string output) id).1 = .error fault ↔
      fault = .invalid ∧ out ≠ [] ∧ world.tree.isDirectory (Path.tidy out) = true ∨
        ∃ cause, fault = .untold (.file cause (Path.tidy out)) ∧
          out ≠ [] ∧ world.tree.Untold (Path.tidy out) cause := by
  intro out
  rcases startPipeline_cases settings world workspace commit output id with
    ⟨hdir, hbegun⟩ | ⟨cause, huntold, hbegun⟩ | ⟨⟨hdir, htold⟩, r, after, hbegun, -⟩
  · rw [hbegun]
    constructor
    · intro h
      cases h
      exact .inl ⟨rfl, hdir⟩
    · rintro (⟨rfl, -⟩ | ⟨cause, -, -, huntold⟩)
      · rfl
      · exact absurd hdir.2 (Bool.eq_false_iff.1 (FileTree.isDirectory_of_untold huntold))
  · rw [hbegun]
    constructor
    · intro h
      cases h
      exact .inr ⟨cause, rfl, huntold⟩
    · rintro (⟨-, -, hdir⟩ | ⟨other, rfl, -, hother⟩)
      · exact absurd hdir (Bool.eq_false_iff.1 (FileTree.isDirectory_of_untold huntold.2))
      · obtain rfl : cause = other := Arrival.blocked.inj (huntold.2.1.symm.trans hother.1)
        rfl
  · rw [hbegun]
    constructor
    · intro h
      cases h
    · rintro (⟨-, h⟩ | ⟨cause, -, h⟩)
      · exact absurd h hdir
      · exact absurd h (htold cause)

/-- A start breaks off with the error of a fault that is passed on exactly if the output path ends
there. -/
theorem startPipeline_label_iff {cause : FileFault} (hcause : cause.isPassedOn = true) :
    let out := settings.outputFor output
    (∃ fault, (startPipeline settings world (.string workspace) (.orNull .string commit)
        (.orNull .string output) id).1 = .error fault ∧ fault.label = cause.label) ↔
      out ≠ [] ∧ world.tree.arrive (Path.tidy out) = .blocked cause := by
  intro out
  constructor
  · rintro ⟨fault, hfault, hlabel⟩
    rcases (startPipeline_error_iff settings world workspace commit output id).1 hfault with
      ⟨rfl, -⟩ | ⟨met, rfl, hne, huntold⟩
    · exact absurd hlabel.symm (FileFault.label_ne_of_isPassedOn hcause)
    · obtain rfl : met = cause := FileFault.eq_of_label_eq huntold.2 hcause hlabel
      exact ⟨hne, huntold.1⟩
  · rintro ⟨hne, harrive⟩
    exact ⟨_, (startPipeline_error_iff settings world workspace commit output id).2
      (.inr ⟨cause, rfl, hne, harrive, hcause⟩), rfl⟩

theorem startPipeline_of_error {fault : StartFault}
    (h : (startPipeline settings world (.string workspace) (.orNull .string commit)
      (.orNull .string output) id).1 = .error fault) :
    (startPipeline settings world (.string workspace) (.orNull .string commit)
      (.orNull .string output) id).2 = world := by
  rcases startPipeline_cases settings world workspace commit output id with
    ⟨-, hbegun⟩ | ⟨_, -, hbegun⟩ | ⟨-, r, after, hbegun, -⟩
  · rw [hbegun]
  · rw [hbegun]
  · rw [hbegun] at h
    cases h

theorem startPipeline_of_ok {r : PipelineResult}
    (h : (startPipeline settings world (.string workspace) (.orNull .string commit)
      (.orNull .string output) id).1 = .ok r) :
    ∃ after, (startPipeline settings world (.string workspace) (.orNull .string commit)
        (.orNull .string output) id).2 =
        (world.asked (changesCall workspace commit)).withTree after ∧
      Course world (Git.Launcher.nextReply world.launcher.replies).1 workspace commit
        (settings.outputFor output) r.success r.data after := by
  rcases startPipeline_cases settings world workspace commit output id with
    ⟨-, hbegun⟩ | ⟨_, -, hbegun⟩ | ⟨-, r', after, hbegun, hcourse⟩
  · rw [hbegun] at h
    cases h
  · rw [hbegun] at h
    cases h
  · rw [hbegun] at h ⊢
    cases h
    exact ⟨after, rfl, hcourse⟩

end

/-- What a start does. It is refused exactly if its output path names a directory, and breaks off exactly
if this cannot be asked, since the path is too long or leads through a directory that may not be
searched; then nothing is changed and no process is started. Otherwise exactly one process is started,
and the start succeeds exactly if that ends well, the workspace is a directory and the graph can be
written. It then hands on what it was given, what was listed and what was built from that, and the graph
stands in the file that the output path names. -/
theorem start_asks_once_and_delivers (settings : Settings) (world : World) (workspace : Path)
    (commit output : Option Path) (id : String) :
    let out := settings.outputFor output
    let reply := (Git.Launcher.nextReply world.launcher.replies).1
    let h := world.host
    let begun := startPipeline settings world (.string workspace) (.orNull .string commit)
      (.orNull .string output) id
    ((∃ fault, begun.1 = .error fault ∧ fault.label = "ValueError") ↔
      out ≠ [] ∧ world.tree.isDirectory (Path.tidy out) = true) ∧
    ((∃ fault, begun.1 = .error fault ∧ fault.label = "OSError") ↔
      out ≠ [] ∧ world.tree.arrive (Path.tidy out) = .blocked .nameTooLong) ∧
    ((∃ fault, begun.1 = .error fault ∧ fault.label = "PermissionError") ↔
      out ≠ [] ∧ world.tree.arrive (Path.tidy out) = .blocked .denied) ∧
    (∀ fault, begun.1 = .error fault →
      begun.2 = world ∧ fault.label ∈ ["ValueError", "OSError", "PermissionError"]) ∧
    ∀ r, begun.1 = .ok r →
      begun.2.launcher.calls = world.launcher.calls ++ [changesCall workspace commit] ∧
      (r.success = true ↔ endsWell reply = true ∧ h.isDirectory (h.absolute workspace) = true ∧
        IsWritable world.tree out) ∧
      (r.success = true → ∃ stdout stderr g, reply = .exited stdout stderr 0 ∧
        let files := changesIn commit workspace (Text.Utf8.decodeLenient stdout)
        buildGraph h (files.map (·.path)) workspace = .ok g ∧
        r.data = delivered workspace files g out ∧
        Exported world.tree g out begun.2.tree ∧
        (out ≠ [] → begun.2.tree.Holds (Path.tidy out) (graphBytes g))) := by
  intro out reply h begun
  have herror {fault : StartFault} : begun.1 = .error fault ↔ _ :=
    startPipeline_error_iff settings world workspace commit output id
  have hlabel (cause : FileFault) (hcause : cause.isPassedOn = true) :
      (∃ fault, begun.1 = .error fault ∧ fault.label = cause.label) ↔ _ :=
    startPipeline_label_iff settings world workspace commit output id hcause
  refine ⟨⟨?_, fun hdir => ⟨_, herror.2 (.inl ⟨rfl, hdir⟩), rfl⟩⟩,
    hlabel .nameTooLong rfl, hlabel .denied rfl, ?_, ?_⟩
  · rintro ⟨fault, hfault, hsame⟩
    rcases herror.1 hfault with ⟨rfl, hdir⟩ | ⟨cause, rfl, -, huntold⟩
    · exact hdir
    · exact absurd hsame (FileFault.label_ne_of_isPassedOn huntold.2)
  · intro fault hfault
    refine ⟨startPipeline_of_error settings world workspace commit output id hfault, ?_⟩
    rcases herror.1 hfault with ⟨rfl, -⟩ | ⟨cause, rfl, -, huntold⟩
    · exact List.mem_cons_self
    · rcases FileFault.isPassedOn_iff.1 huntold.2 with rfl | rfl
      · exact List.mem_cons_of_mem _ List.mem_cons_self
      · exact List.mem_cons_of_mem _ (List.mem_cons_of_mem _ List.mem_cons_self)
  · intro r hr
    obtain ⟨after, hafter, hcourse⟩ :=
      startPipeline_of_ok settings world workspace commit output id hr
    have hworld : begun.2 = _ := hafter
    rw [hworld]
    refine ⟨rfl, hcourse.success_iff, fun hsuccess => ?_⟩
    rw [hsuccess] at hcourse
    obtain ⟨stdout, stderr, g, hreply, hbuild, hdata, hexport⟩ := hcourse.delivers
    exact ⟨stdout, stderr, g, hreply, hbuild, hdata, hexport, hexport.holds⟩

/-! ## Names that are too long -/

theorem Path.tidy_of_isPlain {x : Path} (hx : x.IsPlain) : Path.tidy x = x := by
  have hroot : x.rootSlashes = 0 := by
    unfold Path.rootSlashes
    split
    · exact absurd List.mem_cons_self hx.no_slash
    · exact absurd List.mem_cons_self hx.no_slash
    · exact absurd List.mem_cons_self hx.no_slash
    · rfl
  have hparts : x.properParts = [x] := by
    rw [Path.properParts, Path.parts_of_no_slash hx.no_slash, List.filter_cons_of_pos, List.filter_nil]
    exact decide_eq_true ⟨hx.ne_nil, hx.ne_here⟩
  rw [Path.tidy, Path.rootText, hroot, hparts, List.replicate_zero, List.nil_append, Path.unparts]
  split
  · exact absurd rfl hx.ne_nil
  · rfl

/-- A name that is too long leads nowhere, whatever stands in the directory that it is looked up in. -/
theorem FileTree.arrive_of_long {t : FileTree} {x : Path} (hx : x.IsPlain) (hzero : '\x00' ∉ x)
    (hlong : FileTree.nameLimit < x.byteLength) (hsearch : t.grants (t.start x) .search = true) :
    t.arrive x = .blocked .nameTooLong := by
  rw [arrive, if_neg hx.ne_nil, if_neg hzero]
  split
  · rfl
  · rw [Path.parts_of_no_slash hx.no_slash, follow, if_neg hx.ne_nil, hsearch,
      if_neg Bool.noConfusion, if_neg hx.ne_here, if_neg hx.ne_up, if_pos hlong]

/-- A name of one more byte than a name may have. -/
def longName : Path := List.replicate 256 'x'

theorem isPlain_longName : longName.IsPlain := by
  refine .of_length ?_ fun hslash => absurd (List.eq_of_mem_replicate hslash) (by decide)
  rw [longName, List.length_replicate]
  decide

theorem zero_not_mem_longName : '\x00' ∉ longName := fun hzero =>
  absurd (List.eq_of_mem_replicate hzero) (by decide)

theorem byteLength_longName : FileTree.nameLimit < longName.byteLength := by
  have hbytes (n : Nat) : Path.byteLength (List.replicate n 'x') = n := by
    induction n with
    | zero => rfl
    | succ n ih =>
      rw [List.replicate_succ, Path.byteLength, ih, Nat.add_comm]
      rfl
  rw [longName, hbytes]
  decide

/-- An empty tree, and version control that lists nothing. -/
def bareWorld : World where
  tree := { home := [], entries := [] }
  launcher := ⟨[.exited [] [] 0], []⟩
  reader := Script.readTree

/-- An output path with such a name ends a start before version control is asked, with an error that is
passed on, although the path names no directory. -/
theorem long_output_ends_start_before_asking :
    let begun := startPipeline {} bareWorld (.text "/") .null (.string longName) "start"
    bareWorld.tree.isDirectory longName = false ∧
      (∃ fault, begun.1 = .error fault ∧ fault.label = "OSError") ∧ begun.2.launcher.calls = [] := by
  have harrive : bareWorld.tree.arrive longName = .blocked .nameTooLong :=
    FileTree.arrive_of_long isPlain_longName zero_not_mem_longName byteLength_longName rfl
  have htidy := Path.tidy_of_isPlain isPlain_longName
  have hcheck := checkOutput_of_untold isPlain_longName.ne_nil ⟨htidy.symm ▸ harrive, rfl⟩
  have hbegun : startPipeline {} bareWorld (.text "/") .null (.string longName) "start" = _ :=
    startPipeline_of_checkOutput_error {} bareWorld "/".toList none (some longName) "start" hcheck
  intro begun
  have hfst : begun.1 = _ := congrArg Prod.fst hbegun
  have hsnd : begun.2 = _ := congrArg Prod.snd hbegun
  rw [hfst, hsnd]
  refine ⟨?_, ⟨_, rfl, rfl⟩, rfl⟩
  rw [FileTree.isDirectory, harrive]

end ImportAtlas
