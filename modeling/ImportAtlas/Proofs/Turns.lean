/-
# ImportAtlas.Proofs.Turns -- how long a build goes on, and what it reads

A build is cut into its smallest steps: taking up the next seed, and one turn of the loop over the
stack. `Progress.Step` says what a step does and what happens in it. Nothing in it presumes that the
steps come to an end. That they do, from whatever stack and survey, is `Progress.wellFounded_step`; a
build is what is found then (`Progress.exists_trace`).

From the events of a whole build it can be read off what the loop costs. A turn notes an edge or takes
a used up frame from the stack, and every frame that was put there is taken off again, so there are as
many turns as edges and frames together. A path is expanded only when it is first taken up, and no text
is looked at but those of the expanded files.
-/
import ImportAtlas.Proofs.Meaning

namespace ImportAtlas

/-! ## Events -/

/-- Something that happens in a build. -/
inductive Event where
  /-- The loop makes a turn. -/
  | turn
  /-- An edge is noted. -/
  | edge (e : Edge)
  /-- The text of a file is read and its imports are worked out. The frame is put on the stack; there
  is none if the file broke down. -/
  | expand (p : Path) (frame : Option Frame)
  deriving DecidableEq, Repr

namespace Event

/-- The number of turns among some events. -/
def turns (es : List Event) : Nat := es.countP (· = turn)

/-- The edges that are noted. -/
def edges (es : List Event) : List Edge :=
  es.filterMap fun
    | edge e => some e
    | _ => none

/-- The files that are read and expanded. -/
def expanded (es : List Event) : List Path :=
  es.filterMap fun
    | expand p _ => some p
    | _ => none

/-- The frames that are put on the stack. -/
def pushed (es : List Event) : List Frame :=
  es.filterMap fun
    | expand _ frame => frame
    | _ => none

@[simp] theorem turns_append (es fs : List Event) : turns (es ++ fs) = turns es + turns fs :=
  List.countP_append

@[simp] theorem edges_append (es fs : List Event) : edges (es ++ fs) = edges es ++ edges fs :=
  List.filterMap_append

@[simp] theorem expanded_append (es fs : List Event) :
    expanded (es ++ fs) = expanded es ++ expanded fs :=
  List.filterMap_append

@[simp] theorem pushed_append (es fs : List Event) : pushed (es ++ fs) = pushed es ++ pushed fs :=
  List.filterMap_append

end Event

/-! ## Taking up a path -/

/-- Whether taking up a path comes to its text. -/
def opens (h : Host) (p : Path) (s : Survey) : Bool :=
  decide (p ∉ s.visited.paths) && isGraphFile h p

/-- What happens when a path is taken up. -/
def visitEvents (h : Host) (root : Path) (isChanged : Bool) (p : Path) (s : Survey) : List Event :=
  if opens h p s then [.expand p (visit h root isChanged p s).1] else []

section Visit

variable {h : Host} {root : Path} {isChanged : Bool} {p : Path} {s : Survey}

theorem Survey.edges_addNode (s : Survey) (n : FileNode) : (s.addNode n).edges = s.edges := by
  unfold addNode
  split <;> rfl

theorem edges_visit : (visit h root isChanged p s).2.edges = s.edges := by
  unfold visit enter expand
  split
  · rfl
  · split
    · split
      · rfl
      · dsimp only
        split
        · exact Survey.edges_addNode _ _
        · split <;> exact Survey.edges_addNode _ _
    · rfl

theorem paths_visit :
    (visit h root isChanged p s).2.visited.paths =
      if p ∈ s.visited.paths then s.visited.paths else p :: s.visited.paths := by
  unfold visit
  split
  · rfl
  · rw [visited_enter]
    rfl

/-- A path that is not opened gives no frame. -/
theorem visit_eq_none (hp : opens h p s = false) : (visit h root isChanged p s).1 = none := by
  unfold visit
  split
  · rfl
  · next hnew =>
    have hgraph : isGraphFile h p = false := by
      rw [opens, decide_eq_true hnew, Bool.true_and] at hp
      exact hp
    unfold enter
    split
    · next hfile =>
      split
      · rfl
      · next dialect hd => simp [isGraphFile, hfile, hd] at hgraph
    · rfl

theorem pushed_visitEvents :
    Event.pushed (visitEvents h root isChanged p s) = (visit h root isChanged p s).1.toList := by
  unfold visitEvents
  cases hp : opens h p s with
  | true => cases hv : (visit h root isChanged p s).1 <;> simp [Event.pushed]
  | false => rw [visit_eq_none hp]; rfl

@[simp] theorem turns_visitEvents : Event.turns (visitEvents h root isChanged p s) = 0 := by
  unfold visitEvents
  split <;> rfl

@[simp] theorem edges_visitEvents : Event.edges (visitEvents h root isChanged p s) = [] := by
  unfold visitEvents
  split <;> rfl

theorem expanded_visitEvents :
    Event.expanded (visitEvents h root isChanged p s) = if opens h p s then [p] else [] := by
  unfold visitEvents
  split <;> rfl

theorem expanded_visit :
    (Event.expanded (visitEvents h root isChanged p s)).Nodup ∧
      (∀ q ∈ Event.expanded (visitEvents h root isChanged p s), q ∉ s.visited.paths) ∧
      ∀ q, q ∈ s.visited.paths ∨ q ∈ Event.expanded (visitEvents h root isChanged p s) →
        q ∈ (visit h root isChanged p s).2.visited.paths := by
  rw [expanded_visitEvents, paths_visit]
  by_cases hp : p ∈ s.visited.paths
  · have hopens : opens h p s = false := by simp [opens, hp]
    rw [hopens, if_pos hp]
    simp
  · rw [if_neg hp]
    cases opens h p s with
    | true => simp [hp, or_comm]
    | false => simp +contextual

theorem visit_withRead {read : Path → Except ReadFault (List Char)}
    (hread : opens h p s = true → read p = h.read p) :
    visit (h.withRead read) root isChanged p s = visit h root isChanged p s := by
  unfold visit
  by_cases hp : p ∈ s.visited.paths
  · rw [dif_pos hp, dif_pos hp]
  rw [dif_neg hp, dif_neg hp]
  unfold enter
  rw [show (h.withRead read).isFile p = h.isFile p from rfl]
  cases hfile : h.isFile p with
  | false => rfl
  | true =>
    cases hd : Dialect.ofPath? p with
    | none => rfl
    | some dialect =>
      have hopens : opens h p s = true := by simp [opens, isGraphFile, hp, hfile, hd]
      rw [if_pos rfl, if_pos rfl]
      unfold expand
      simp only [resolveAll_withRead]
      rw [show (h.withRead read).read p = h.read p from hread hopens]
      rfl

end Visit

/-! ## Steps -/

/-- A build at some moment: the seeds still to come, the stack, and what was found. -/
structure Progress where
  todo : List Path
  stack : List Frame
  survey : Survey

namespace Progress

/-- One step of a build and what happens in it. With an empty stack the next seed is taken up. Otherwise
the loop makes a turn: it takes the topmost frame off if that is used up, and else follows the next of
its imports. -/
inductive Step (h : Host) (root : Path) (seeds : List Path) : Progress → List Event → Progress → Prop
  | seed {p : Path} {todo : List Path} {s : Survey} :
      Step h root seeds ⟨p :: todo, [], s⟩ (visitEvents h root true p s)
        ⟨todo, (visit h root true p s).1.toList, (visit h root true p s).2⟩
  | back {todo : List Path} {id : Path} {rest : List Frame} {s : Survey} :
      Step h root seeds ⟨todo, ⟨id, []⟩ :: rest, s⟩ [.turn] ⟨todo, rest, s⟩
  | follow {todo : List Path} {id t : Path} {ts : List Path} {rest : List Frame} {s s' : Survey}
      {e : Edge} (he : e = { source := id, target := fileId h root t }) (hs : s' = s.addEdge e) :
      Step h root seeds ⟨todo, ⟨id, t :: ts⟩ :: rest, s⟩
        ([.turn, .edge e] ++ visitEvents h root (decide (t ∈ seeds)) t s')
        ⟨todo, (visit h root (decide (t ∈ seeds)) t s').1.toList ++ ⟨id, ts⟩ :: rest,
          (visit h root (decide (t ∈ seeds)) t s').2⟩

variable {h : Host} {root : Path} {seeds : List Path}

/-! ## Every chain of steps ends -/

/-- How much is left to do: seeds to come, then files not yet taken up, then frames and their imports.
A seed may lead to any number of files, and a file to any number of imports, so the three are compared
in this order. -/
noncomputable def left (h : Host) (c : Progress) : Nat × Nat × Nat :=
  (c.todo.length, c.survey.visited.room h.finite_isFile, workLeft c.stack)

theorem left_step {c c' : Progress} {es : List Event} (hstep : Step h root seeds c es c') :
    Prod.Lex (· < ·) (Prod.Lex (· < ·) (· < ·)) (c'.left h) (c.left h) := by
  cases hstep with
  | seed => exact Prod.Lex.left _ _ (Nat.lt_succ_self _)
  | back =>
    refine Prod.Lex.right _ (Prod.Lex.right _ ?_)
    dsimp only [workLeft]
    omega
  | @follow todo id t ts rest s s' e he hs =>
    refine Prod.Lex.right _ ?_
    dsimp only
    have hroom : s'.visited.room h.finite_isFile = s.visited.room h.finite_isFile := by
      rw [hs, Survey.visited_addEdge]
    cases hframe : (visit h root (decide (t ∈ seeds)) t s').1 with
    | some f =>
      -- The stack has grown, but by a file that will not be taken up again.
      refine Prod.Lex.left _ _ ?_
      rw [← hroom]
      exact room_visit_lt hframe
    | none =>
      -- Either a path was used up, or the topmost frame has one import less to go.
      have hle := room_visit_le h root (decide (t ∈ seeds)) t s'
      rw [hroom] at hle
      rcases Nat.lt_or_eq_of_le hle with hlt | heq
      · exact Prod.Lex.left _ _ hlt
      · rw [heq]
        refine Prod.Lex.right _ ?_
        dsimp only [Option.toList, List.nil_append, workLeft, List.length_cons]
        omega

/-- No build goes on for ever, from whatever seeds, stack and survey. -/
theorem wellFounded_step (h : Host) (root : Path) (seeds : List Path) :
    WellFounded fun c' c : Progress => ∃ es, Step h root seeds c es c' := by
  have hlex : WellFounded (Prod.Lex (· < ·) (Prod.Lex (· < ·) (· < ·)) :
      Nat × Nat × Nat → Nat × Nat × Nat → Prop) :=
    (Prod.lex Nat.lt_wfRel (Prod.lex Nat.lt_wfRel Nat.lt_wfRel)).wf
  refine Subrelation.wf ?_ (InvImage.wf (left h) hlex)
  rintro c' c ⟨es, hstep⟩
  exact left_step hstep

/-! ## Traces -/

/-- A build from some moment on until nothing is left to do: everything that happens, and what was
found in the end. -/
inductive Trace (h : Host) (root : Path) (seeds : List Path) : Progress → List Event → Survey → Prop
  | done {s : Survey} : Trace h root seeds ⟨[], [], s⟩ [] s
  | more {c c' : Progress} {es later : List Event} {s : Survey} :
      Step h root seeds c es c' → Trace h root seeds c' later s →
      Trace h root seeds c (es ++ later) s

/-- What a build comes to from here: it goes through the stack, then walks from the seeds to come. -/
def finish (h : Host) (root : Path) (seeds : List Path) (c : Progress) : Survey :=
  c.todo.foldl (traverse h root seeds) (run h root seeds c.stack c.survey)

theorem run_follow (id t : Path) (ts : List Path) (rest : List Frame) (s : Survey) :
    run h root seeds (⟨id, t :: ts⟩ :: rest) s =
      run h root seeds
        ((visit h root (decide (t ∈ seeds)) t
          (s.addEdge { source := id, target := fileId h root t })).1.toList ++ ⟨id, ts⟩ :: rest)
        (visit h root (decide (t ∈ seeds)) t
          (s.addEdge { source := id, target := fileId h root t })).2 := by
  rw [run]
  split
  · next hv => rw [hv]; rfl
  · next hv => rw [hv]; rfl

theorem finish_step {c c' : Progress} {es : List Event} (hstep : Step h root seeds c es c') :
    c.finish h root seeds = c'.finish h root seeds := by
  unfold finish
  cases hstep with
  | @seed p todo s =>
    rw [List.foldl_cons, run]
    unfold traverse
    rcases visit h root true p s with ⟨_ | f, s'⟩
    · rw [Option.toList_none, run]
    · rfl
  | back => rw [run]
  | follow he hs =>
    subst hs he
    rw [run_follow]

/-- As long as something is left to do there is a step. -/
theorem exists_step (h : Host) (root : Path) (seeds : List Path) (c : Progress) :
    (c.todo = [] ∧ c.stack = []) ∨ ∃ es c', Step h root seeds c es c' := by
  obtain ⟨todo, stack, s⟩ := c
  match todo, stack with
  | [], [] => exact Or.inl ⟨rfl, rfl⟩
  | p :: todo, [] => exact Or.inr ⟨_, _, .seed⟩
  | todo, ⟨id, []⟩ :: rest => exact Or.inr ⟨_, _, .back⟩
  | todo, ⟨id, t :: ts⟩ :: rest => exact Or.inr ⟨_, _, .follow rfl rfl⟩

/-- From every moment on there is a build to its end. -/
theorem exists_trace (h : Host) (root : Path) (seeds : List Path) (c : Progress) :
    ∃ es, Trace h root seeds c es (c.finish h root seeds) := by
  induction c using (wellFounded_step h root seeds).induction with
  | _ c ih =>
    rcases exists_step h root seeds c with ⟨htodo, hstack⟩ | ⟨es, c', hstep⟩
    · obtain ⟨todo, stack, s⟩ := c
      subst htodo hstack
      refine ⟨[], ?_⟩
      unfold finish
      rw [List.foldl_nil, run]
      exact .done
    · obtain ⟨later, htrace⟩ := ih c' ⟨es, hstep⟩
      rw [finish_step hstep]
      exact ⟨es ++ later, .more hstep htrace⟩

theorem Trace.eq_finish {c : Progress} {es : List Event} {s : Survey}
    (htrace : Trace h root seeds c es s) : s = c.finish h root seeds := by
  induction htrace with
  | done =>
    unfold finish
    rw [List.foldl_nil, run]
  | more hstep _ ih => rw [finish_step hstep, ih]

/-! ## What a trace costs -/

theorem turns_step {c c' : Progress} {es : List Event} (hstep : Step h root seeds c es c') :
    Event.turns es + c'.stack.length =
      (Event.edges es).length + (Event.pushed es).length + c.stack.length := by
  cases hstep with
  | seed =>
    rw [turns_visitEvents, edges_visitEvents, pushed_visitEvents]
    simp
  | @back todo id rest s =>
    show 1 + rest.length = 0 + 0 + (rest.length + 1)
    omega
  | @follow todo id t ts rest s s' e =>
    have hturn : Event.turns [.turn, .edge e] = 1 := rfl
    have hedge : (Event.edges [.turn, .edge e]).length = 1 := rfl
    have hpush : (Event.pushed [.turn, .edge e]).length = 0 := rfl
    simp only [Event.turns_append, Event.edges_append, Event.pushed_append, turns_visitEvents,
      edges_visitEvents, pushed_visitEvents, List.length_append, List.length_cons, List.length_nil]
    omega

/-- Every turn notes an edge or takes off one of the frames that were there or were put there. -/
theorem Trace.turns {c : Progress} {es : List Event} {s : Survey}
    (htrace : Trace h root seeds c es s) :
    Event.turns es = (Event.edges es).length + (Event.pushed es).length + c.stack.length := by
  induction htrace with
  | done => rfl
  | more hstep _ ih =>
    have hfirst := turns_step hstep
    rw [Event.turns_append, Event.edges_append, Event.pushed_append, List.length_append,
      List.length_append, ih]
    omega

theorem edges_step {c c' : Progress} {es : List Event} (hstep : Step h root seeds c es c') :
    c'.survey.edges = c.survey.edges ++ Event.edges es := by
  cases hstep with
  | seed => rw [edges_visit, edges_visitEvents, List.append_nil]
  | back => exact (List.append_nil _).symm
  | @follow todo id t ts rest s s' e _ hs =>
    rw [edges_visit, hs, Event.edges_append, edges_visitEvents]
    rfl

/-- The noted edges are those that are found. -/
theorem Trace.edges {c : Progress} {es : List Event} {s : Survey}
    (htrace : Trace h root seeds c es s) : s.edges = c.survey.edges ++ Event.edges es := by
  induction htrace with
  | done => exact (List.append_nil _).symm
  | more hstep _ ih => rw [ih, edges_step hstep, Event.edges_append, List.append_assoc]

theorem expanded_step {c c' : Progress} {es : List Event} (hstep : Step h root seeds c es c') :
    (Event.expanded es).Nodup ∧ (∀ p ∈ Event.expanded es, p ∉ c.survey.visited.paths) ∧
      ∀ p, p ∈ c.survey.visited.paths ∨ p ∈ Event.expanded es → p ∈ c'.survey.visited.paths := by
  cases hstep with
  | seed => exact expanded_visit
  | back =>
    refine ⟨List.nodup_nil, fun p hp => (nomatch hp), fun p hp => ?_⟩
    exact hp.resolve_right fun h => nomatch h
  | follow _ hs =>
    rw [Event.expanded_append]
    subst hs
    exact expanded_visit

/-- No file is expanded twice, and none that was taken up before. -/
theorem Trace.expanded {c : Progress} {es : List Event} {s : Survey}
    (htrace : Trace h root seeds c es s) :
    (Event.expanded es).Nodup ∧ ∀ p ∈ Event.expanded es, p ∉ c.survey.visited.paths := by
  induction htrace with
  | done => exact ⟨List.nodup_nil, fun p hp => nomatch hp⟩
  | more hstep _ ih =>
    obtain ⟨hnodup, hnew, hvisited⟩ := expanded_step hstep
    obtain ⟨hlaterNodup, hlaterNew⟩ := ih
    rw [Event.expanded_append]
    refine ⟨List.nodup_append.2 ⟨hnodup, hlaterNodup, ?_⟩, fun p hp => ?_⟩
    · -- What this step expands is visited from then on, and later steps expand no visited path.
      rintro p hp q hq rfl
      exact hlaterNew p hq (hvisited p (Or.inr hp))
    · rcases List.mem_append.1 hp with hp | hp
      · exact hnew p hp
      · exact fun hold => hlaterNew p hp (hvisited p (Or.inl hold))

/-! ## What a trace reads -/

theorem visitEvents_withRead {read : Path → Except ReadFault (List Char)} {isChanged : Bool}
    {p : Path} {s : Survey}
    (hread : ∀ q ∈ Event.expanded (visitEvents h root isChanged p s), read q = h.read q) :
    visit (h.withRead read) root isChanged p s = visit h root isChanged p s ∧
      visitEvents (h.withRead read) root isChanged p s = visitEvents h root isChanged p s := by
  have hvisit : visit (h.withRead read) root isChanged p s = visit h root isChanged p s := by
    apply visit_withRead
    intro hopens
    rw [expanded_visitEvents, if_pos hopens] at hread
    exact hread p List.mem_cons_self
  refine ⟨hvisit, ?_⟩
  unfold visitEvents
  rw [hvisit]
  rfl

/-- Texts matter only where they are read. -/
theorem Step.withRead {read : Path → Except ReadFault (List Char)} {c c' : Progress}
    {es : List Event} (hstep : Step h root seeds c es c')
    (hread : ∀ p ∈ Event.expanded es, read p = h.read p) :
    Step (h.withRead read) root seeds c es c' := by
  cases hstep with
  | seed =>
    obtain ⟨hvisit, hevents⟩ := visitEvents_withRead hread
    rw [← hevents, ← hvisit]
    exact .seed
  | back => exact .back
  | follow he hs =>
    rw [Event.expanded_append] at hread
    obtain ⟨hvisit, hevents⟩ := visitEvents_withRead hread
    rw [← hevents, ← hvisit]
    exact .follow he hs

theorem Trace.withRead {read : Path → Except ReadFault (List Char)} {c : Progress}
    {es : List Event} {s : Survey} (htrace : Trace h root seeds c es s)
    (hread : ∀ p ∈ Event.expanded es, read p = h.read p) :
    Trace (h.withRead read) root seeds c es s := by
  induction htrace with
  | done => exact .done
  | more hstep _ ih =>
    rw [Event.expanded_append] at hread
    exact .more (hstep.withRead fun p hp => hread p (List.mem_append_left _ hp))
      (ih fun p hp => hread p (List.mem_append_right _ hp))

end Progress

/-! ## Builds -/

namespace Builder

/-- A build at its first moment. -/
def start (b : Builder) (seeds : List Path) : Progress where
  todo := seeds.map b.seedPath
  stack := []
  survey :=
    { roots := b.roots,
      log := [.info ("Analyzing dependencies for " ++ toString (seeds.map b.seedPath).length ++
        " changed files")] }

theorem finish_start (h : Host) (b : Builder) (seeds : List Path) :
    (b.start seeds).finish h b.root (seeds.map b.seedPath) = b.survey h seeds := by
  unfold Progress.finish start
  dsimp only
  rw [run]
  rfl

end Builder

/-- Whatever files import each other, no chain of steps goes on for ever. A build makes as many turns of
its loop as it notes edges and puts frames on its stack, and it reads and expands no path twice: what
any other file holds makes no difference to it. -/
theorem build_ends_and_reads_once (h : Host) (b : Builder) (seeds : List Path) :
    (WellFounded fun c' c : Progress =>
        ∃ es, Progress.Step h b.root (seeds.map b.seedPath) c es c') ∧
      ∃ es : List Event,
        Progress.Trace h b.root (seeds.map b.seedPath) (b.start seeds) es (b.survey h seeds) ∧
        (Event.expanded es).Nodup ∧
        (∀ read : Path → Except ReadFault (List Char),
          b.survey (h.withRead fun p => if p ∈ Event.expanded es then h.read p else read p) seeds =
            b.survey h seeds) ∧
        Event.edges es = (b.survey h seeds).edges ∧
        Event.turns es = (b.survey h seeds).edges.length + (Event.pushed es).length := by
  refine ⟨Progress.wellFounded_step h b.root _, ?_⟩
  obtain ⟨es, htrace⟩ := Progress.exists_trace h b.root (seeds.map b.seedPath) (b.start seeds)
  rw [Builder.finish_start] at htrace
  have hedges : (b.survey h seeds).edges = Event.edges es := htrace.edges
  refine ⟨es, htrace, htrace.expanded.1, fun read => ?_, hedges.symm, ?_⟩
  · have hread : ∀ p ∈ Event.expanded es,
        (if p ∈ Event.expanded es then h.read p else read p) = h.read p := fun p hp => if_pos hp
    rw [← Builder.finish_start]
    exact (htrace.withRead hread).eq_finish.symm
  · rw [hedges]
    exact htrace.turns

end ImportAtlas
