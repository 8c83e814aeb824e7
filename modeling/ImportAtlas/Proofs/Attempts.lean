/-
# ImportAtlas.Proofs.Attempts -- which stages a pipeline executes, how often and on what

A stage may do anything to the world it works on and may behave differently each time. What it was
executed on can therefore not be told from the results alone. `Stage.watched` is a stage that does the
same and besides notes each of its executions, and a pipeline of watched stages reports what the
pipeline itself reports. So its notes are the executions of the pipeline.

`Stage.Attempted` says what the executions of one stage look like, and `Executes` puts those of one stage
after the other: a stage that failed either stops the pipeline or hands on the data it was given. That a
pipeline goes this way is one induction over its stages (`runStages_watched`), and everything else
follows from it by induction over `Executes`.
-/
import ImportAtlas.Pipeline.Basic
import ImportAtlas.Pipeline.Replay

namespace ImportAtlas.Pipeline

variable {σ : Type}

/-! ## Watched stages -/

/-- One execution of a stage. -/
structure Call where
  /-- The position of the stage in its pipeline. -/
  stage : Nat
  input : Datum
  outcome : Except Fault StageResult

/-- What an execution counts as. A fault counts as a failure without data that gives its kind and its
wording. -/
def Call.result (name : String) (c : Call) : StageResult :=
  match c.outcome with
  | .ok result => { result with timed := true }
  | .error fault =>
    { success := false
      data := .null
      metadata := [("stage", .text name), ("error_type", .text fault.label)]
      error := some fault.message
      timed := true }

/-- A stage that notes its executions beside the world it works on. -/
def Stage.watched (stage : Stage σ) (position : Nat) : Stage (σ × List Call) where
  name := stage.name
  isValid world := stage.isValid world.1
  options := stage.options
  execute input world :=
    let (outcome, inner) := stage.execute input world.1
    (outcome, inner, world.2 ++ [⟨position, input, outcome⟩])

/-- Stages that note their executions, from a position on. -/
def watchAll (start : Nat) (stages : List (Stage σ)) : List (Stage (σ × List Call)) :=
  (stages.zipIdx start).map fun s => s.1.watched s.2

theorem watchAll_cons (start : Nat) (stage : Stage σ) (later : List (Stage σ)) :
    watchAll start (stage :: later) = stage.watched start :: watchAll (start + 1) later := rfl

theorem map_name_watchAll (start : Nat) (stages : List (Stage σ)) :
    (watchAll start stages).map (·.name) = stages.map (·.name) := by
  induction stages generalizing start with
  | nil => rfl
  | cons stage later ih => rw [watchAll_cons, List.map_cons, List.map_cons, ih]; rfl

/-- A pipeline whose stages note their executions. -/
def watched (p : Pipeline σ) : Pipeline (σ × List Call) where
  id := p.id
  continueOnFailure := p.continueOnFailure
  maxRetries := p.maxRetries
  stages := watchAll 0 p.stages
  status := p.status

/-! ## One stage -/

/-- The executions of a stage that was given some data and a number of further attempts. -/
structure Stage.Attempted (stage : Stage σ) (position : Nat) (input : Datum) (retries : Nat)
    (calls : List Call) (result : StageResult) : Prop where
  position : ∀ c ∈ calls, c.stage = position
  input : ∀ c ∈ calls, c.input = input
  /-- Only the last of them can have succeeded, and its result is the one that counts. -/
  last : ∃ earlier last, calls = earlier ++ [last] ∧ last.result stage.name = result ∧
    ∀ c ∈ earlier, (c.result stage.name).success = false
  length_le : calls.length ≤ retries + 1
  /-- The stage is not given up before all attempts are used. -/
  exhausted : result.success = false → calls.length = retries + 1

namespace Stage

variable {stage : Stage σ} {position : Nat} {input : Datum}

theorem run_watched (stage : Stage σ) (position : Nat) (input : Datum) (world : σ)
    (log : List Call) :
    (stage.watched position).run input (world, log) =
      ((stage.run input world).1, (stage.run input world).2,
        log ++ [⟨position, input, (stage.execute input world).1⟩]) := by
  rcases hout : stage.execute input world with ⟨fault | result, world'⟩
  · simp [run, watched, hout]
  · simp [run, watched, hout]

theorem fst_run (stage : Stage σ) (position : Nat) (input : Datum) (world : σ) :
    (stage.run input world).1 =
      Call.result stage.name ⟨position, input, (stage.execute input world).1⟩ := by
  unfold run Call.result
  rcases stage.execute input world with ⟨_ | _, _⟩ <;> rfl

/-- One execution is enough if it succeeds or if there are no further attempts. -/
theorem Attempted.once {c : Call} {retries : Nat} (hstage : c.stage = position)
    (hinput : c.input = input)
    (hend : (c.result stage.name).success = true ∨ retries = 0) :
    stage.Attempted position input retries [c] (c.result stage.name) where
  position := by simpa using hstage
  input := by simpa using hinput
  last := ⟨[], c, rfl, rfl, by simp⟩
  length_le := by simp
  exhausted := by
    intro hfail
    rcases hend with hok | rfl
    · rw [hok] at hfail
      cases hfail
    · rfl

/-- An execution that failed comes before those of the attempts that are left. -/
theorem Attempted.again {c : Call} {retries : Nat} {calls : List Call} {result : StageResult}
    (hstage : c.stage = position) (hinput : c.input = input)
    (hfail : (c.result stage.name).success = false)
    (hlater : stage.Attempted position input retries calls result) :
    stage.Attempted position input (retries + 1) (c :: calls) result := by
  obtain ⟨hpositions, hinputs, ⟨earlier, last, rfl, hresult, hfailed⟩, hle, hexhausted⟩ := hlater
  constructor
  · intro d hd
    rcases List.mem_cons.1 hd with rfl | hd
    · exact hstage
    · exact hpositions d hd
  · intro d hd
    rcases List.mem_cons.1 hd with rfl | hd
    · exact hinput
    · exact hinputs d hd
  · refine ⟨c :: earlier, last, rfl, hresult, ?_⟩
    intro d hd
    rcases List.mem_cons.1 hd with rfl | hd
    · exact hfail
    · exact hfailed d hd
  · rw [List.length_cons]
    omega
  · intro hnot
    have hlen := hexhausted hnot
    rw [List.length_cons]
    omega

/-- A single attempt gives the result of a run, whatever it comes to. -/
theorem attempt_one (stage : Stage σ) (input : Datum) (latest : Option StageResult) (world : σ) :
    stage.attempt input 1 latest world =
      (some (stage.run input world).1, (stage.run input world).2) := by
  rw [attempt]
  rcases stage.run input world with ⟨result, world'⟩
  dsimp only
  split <;> rfl

/-- A watched stage is attempted as the stage itself is, and notes its attempts. -/
theorem attempt_watched (stage : Stage σ) (position : Nat) (input : Datum) (retries : Nat)
    (latest : Option StageResult) (world : σ) (log : List Call) :
    ∃ result world' calls, stage.attempt input (retries + 1) latest world = (some result, world') ∧
      (stage.watched position).attempt input (retries + 1) latest (world, log) =
        (some result, world', log ++ calls) ∧
      stage.Attempted position input retries calls result := by
  -- A failed attempt leaves another world behind, so the induction goes over all worlds and notes.
  induction retries generalizing latest world log with
  | zero =>
    refine ⟨_, _, [⟨position, input, (stage.execute input world).1⟩],
      attempt_one stage input latest world, ?_, ?_⟩
    · rw [attempt_one, run_watched]
    · rw [fst_run stage position]
      exact .once rfl rfl (Or.inr rfl)
  | succ more ih =>
    have hresult := fst_run stage position input world
    rw [attempt, attempt, run_watched]
    rcases hrun : stage.run input world with ⟨result, world'⟩
    rw [hrun] at hresult
    dsimp only at hresult ⊢
    cases hok : result.success with
    | true =>
      refine ⟨result, world', [⟨position, input, (stage.execute input world).1⟩], rfl, rfl, ?_⟩
      rw [hresult]
      exact .once rfl rfl (Or.inl (hresult ▸ hok))
    | false =>
      obtain ⟨last, world'', calls, hattempt, hnoted, hlater⟩ := ih (some result) world'
        (log ++ [⟨position, input, (stage.execute input world).1⟩])
      refine ⟨last, world'', ⟨position, input, (stage.execute input world).1⟩ :: calls, hattempt, ?_,
        .again rfl rfl (hresult ▸ hok) hlater⟩
      rw [if_neg Bool.false_ne_true, hnoted, List.append_assoc]
      rfl

end Stage

/-! ## One stage after the other -/

/-- The executions and results of stages from a position on. -/
inductive Executes (continueOnFailure : Bool) (retries : Nat) :
    Nat → List (Stage σ) → Datum → List Call → List StageResult → Prop
  | done {i : Nat} {data : Datum} : Executes continueOnFailure retries i [] data [] []
  /-- A stage that succeeded hands on its own data, any other one the data it was given. -/
  | next {i : Nat} {stage : Stage σ} {later : List (Stage σ)} {data : Datum}
      {calls calls' : List Call} {result : StageResult} {results : List StageResult} :
      stage.Attempted i data retries calls result →
      result.success = true ∨ continueOnFailure = true →
      Executes continueOnFailure retries (i + 1) later
        (if result.success then result.data else data) calls' results →
      Executes continueOnFailure retries i (stage :: later) data (calls ++ calls')
        (result :: results)
  | stop {i : Nat} {stage : Stage σ} {later : List (Stage σ)} {data : Datum} {calls : List Call}
      {result : StageResult} :
      stage.Attempted i data retries calls result →
      result.success = false → continueOnFailure = false →
      Executes continueOnFailure retries i (stage :: later) data calls [result]

/-- A pipeline of watched stages reports what the pipeline reports, and notes its executions. With an
attempt allowed, no stage is left without a result. -/
theorem runStages_watched (p : Pipeline σ) (retries start : Nat) (stages : List (Stage σ))
    (data : Datum) (status : StatusBoard) (world : σ) (log : List Call) :
    let done := p.runStages (retries + 1) stages data status world
    ∃ calls, p.watched.runStages (retries + 1) (watchAll start stages) data status (world, log) =
        { results := done.results, status := done.status, halt := done.halt,
          world := (done.world, log ++ calls) } ∧
      done.halt ≠ some .noAttempt ∧
      Executes p.continueOnFailure retries start stages data calls done.results := by
  induction stages generalizing start data status world log with
  | nil => exact ⟨[], by rw [List.append_nil]; rfl, nofun, .done⟩
  | cons stage later ih =>
    obtain ⟨result, world', calls, hattempt, hnoted, hattempted⟩ :=
      stage.attempt_watched start data retries none world log
    rw [watchAll_cons, runStages, runStages, hattempt, hnoted]
    dsimp only
    cases hok : result.success with
    | true =>
      obtain ⟨calls', hrun, hhalt, hlater⟩ := ih (start + 1) result.data
        ((status.set stage.name .running).set stage.name .completed) world' (log ++ calls)
      refine ⟨calls ++ calls', ?_, hhalt, ?_⟩
      · rw [if_pos rfl, if_pos rfl, ← List.append_assoc]
        exact congrArg (fun rest : Progress (σ × List Call) =>
          { rest with results := result :: rest.results }) hrun
      · rw [if_pos rfl]
        refine .next hattempted (Or.inl hok) ?_
        rw [if_pos hok]
        exact hlater
    | false =>
      rw [if_neg Bool.false_ne_true, if_neg Bool.false_ne_true]
      cases hgo : p.continueOnFailure with
      | true =>
        obtain ⟨calls', hrun, hhalt, hlater⟩ := ih (start + 1) data
          ((status.set stage.name .running).set stage.name .failed) world' (log ++ calls)
        rw [if_pos (show p.watched.continueOnFailure = true from hgo), if_pos rfl]
        refine ⟨calls ++ calls', ?_, hhalt, ?_⟩
        · rw [← List.append_assoc]
          exact congrArg (fun rest : Progress (σ × List Call) =>
            { rest with results := result :: rest.results }) hrun
        · refine .next hattempted (Or.inr rfl) ?_
          rw [if_neg (by rw [hok]; exact Bool.false_ne_true), ← hgo]
          exact hlater
      | false =>
        rw [if_neg (show ¬ p.watched.continueOnFailure = true by
          rw [show p.watched.continueOnFailure = false from hgo]; exact Bool.false_ne_true),
          if_neg Bool.false_ne_true, map_name_watchAll]
        -- Nothing is executed after the failure, so no notes come to those of this stage.
        exact ⟨calls, rfl, nofun, .stop hattempted hok rfl⟩

/-! ## What follows from the way a pipeline goes -/

/-- The data that comes after some results: that of the latest success, if there is one. -/
def latestData (initial : Datum) (results : List StageResult) : Datum :=
  match (results.filter (·.success)).getLast? with
  | some result => result.data
  | none => initial

theorem latestData_cons (initial : Datum) (result : StageResult) (results : List StageResult) :
    latestData initial (result :: results) =
      latestData (if result.success then result.data else initial) results := by
  unfold latestData
  cases hok : result.success with
  | true =>
    rw [List.filter_cons_of_pos hok, List.getLast?_cons, if_pos rfl]
    cases (results.filter (·.success)).getLast? <;> rfl
  | false =>
    rw [List.filter_cons_of_neg (by rw [hok]; exact Bool.false_ne_true),
      if_neg Bool.false_ne_true]

namespace Executes

variable {continueOnFailure : Bool} {retries i : Nat} {stages : List (Stage σ)} {data : Datum}
  {calls : List Call} {results : List StageResult}

theorem length_le (hrun : Executes continueOnFailure retries i stages data calls results) :
    results.length ≤ stages.length := by
  induction hrun with
  | done => exact Nat.le_refl _
  | next _ _ _ ih =>
    rw [List.length_cons, List.length_cons]
    omega
  | stop _ _ _ =>
    rw [List.length_cons, List.length_cons]
    exact Nat.succ_le_succ (Nat.zero_le _)

/-- Only stages with a result are executed. -/
theorem position_bounds (hrun : Executes continueOnFailure retries i stages data calls results) :
    ∀ c ∈ calls, i ≤ c.stage ∧ c.stage < i + results.length := by
  induction hrun with
  | done => exact fun c hc => nomatch hc
  | next hfirst _ _ ih =>
    intro c hc
    rw [List.length_cons]
    rcases List.mem_append.1 hc with hc | hc
    · have hstage := hfirst.position c hc
      omega
    · have hstage := ih c hc
      omega
  | stop hfirst _ _ =>
    intro c hc
    have hstage := hfirst.position c hc
    rw [List.length_singleton]
    omega

/-- No stage is executed after a later one. -/
theorem ordered (hrun : Executes continueOnFailure retries i stages data calls results) :
    calls.Pairwise fun c d => c.stage ≤ d.stage := by
  have hsame : ∀ {stage : Stage σ} {i : Nat} {data : Datum} {calls : List Call}
      {result : StageResult}, stage.Attempted i data retries calls result →
      calls.Pairwise fun c d => c.stage ≤ d.stage := by
    intro stage i data calls result hattempted
    refine List.pairwise_of_forall_mem_list fun c hc d hd => ?_
    exact Nat.le_of_eq ((hattempted.position c hc).trans (hattempted.position d hd).symm)
  induction hrun with
  | done => exact List.Pairwise.nil
  | next hfirst _ hlater ih =>
    refine List.pairwise_append.2 ⟨hsame hfirst, ih, fun c hc d hd => ?_⟩
    have hc := hfirst.position c hc
    have hd := hlater.position_bounds d hd
    omega
  | stop hfirst _ _ => exact hsame hfirst

/-- Every result comes from attempts of its stage on the data of the latest success before it. -/
theorem attempted (hrun : Executes continueOnFailure retries i stages data calls results)
    {j : Nat} {stage : Stage σ} {result : StageResult} (hstage : stages[j]? = some stage)
    (hresult : results[j]? = some result) :
    stage.Attempted (i + j) (latestData data (results.take j)) retries
      (calls.filter (·.stage = i + j)) result := by
  induction hrun generalizing j with
  | done => cases hresult
  | @next i first later data calls calls' one rest hfirst _ hlater ih =>
    rw [List.filter_append]
    cases j with
    | zero =>
      obtain rfl := Option.some.inj hstage
      obtain rfl := Option.some.inj hresult
      -- All executions of the first stage come first, and no other stage has its position.
      have hown : calls.filter (·.stage = i + 0) = calls :=
        List.filter_eq_self.2 fun c hc => decide_eq_true (hfirst.position c hc)
      have hnone : calls'.filter (·.stage = i + 0) = [] := by
        refine List.filter_eq_nil_iff.2 fun c hc hmatch => ?_
        have hbound := (hlater.position_bounds c hc).1
        have hstage := of_decide_eq_true hmatch
        omega
      rw [hown, hnone, List.append_nil]
      exact hfirst
    | succ j =>
      -- The executions of the first stage are none of the later one.
      have hnone : calls.filter (·.stage = i + (j + 1)) = [] := by
        refine List.filter_eq_nil_iff.2 fun c hc hmatch => ?_
        have hposition := hfirst.position c hc
        have hstage := of_decide_eq_true hmatch
        omega
      have hrest := ih hstage hresult
      rw [hnone, List.nil_append, List.take_succ_cons, latestData_cons]
      rwa [show i + 1 + j = i + (j + 1) by omega] at hrest
  | @stop i first later data calls one hfirst _ _ =>
    cases j with
    | zero =>
      obtain rfl := Option.some.inj hstage
      obtain rfl := Option.some.inj hresult
      have hown : calls.filter (·.stage = i + 0) = calls :=
        List.filter_eq_self.2 fun c hc => decide_eq_true (hfirst.position c hc)
      rw [hown]
      exact hfirst
    | succ j => cases hresult

/-- If failures stop a pipeline, all results but the last are successes, and unless the last one is a
failure all stages have one. -/
theorem stops (hrun : Executes false retries i stages data calls results) :
    (∀ result ∈ results.dropLast, result.success = true) ∧
      ((∃ result ∈ results, result.success = false) ∨ results.length = stages.length) := by
  induction hrun with
  | done => exact ⟨fun result hr => (nomatch hr), Or.inr rfl⟩
  | @next i stage later data calls calls' result results _ hon _ ih =>
    have hok : result.success = true := hon.resolve_right Bool.false_ne_true
    obtain ⟨hbefore, hend⟩ := ih
    constructor
    · cases results with
      | nil => exact fun r hr => nomatch hr
      | cons r rs =>
        intro r' hr'
        rw [List.dropLast_cons_of_ne_nil (List.cons_ne_nil _ _)] at hr'
        rcases List.mem_cons.1 hr' with rfl | hr'
        · exact hok
        · exact hbefore r' hr'
    · rcases hend with ⟨r, hr, hfail⟩ | hlen
      · exact Or.inl ⟨r, List.mem_cons_of_mem _ hr, hfail⟩
      · right
        rw [List.length_cons, List.length_cons, hlen]
  | stop _ hfail _ => exact ⟨fun r hr => (nomatch hr), Or.inl ⟨_, List.mem_cons_self, hfail⟩⟩

/-- If failures do not stop a pipeline, every stage has a result. -/
theorem length_eq (hrun : Executes true retries i stages data calls results) :
    results.length = stages.length := by
  induction hrun with
  | done => rfl
  | next _ _ _ ih => rw [List.length_cons, List.length_cons, ih]
  | stop _ _ hstop => cases hstop

end Executes

/-- With an attempt allowed, a pipeline ends early exactly if a failure stopped it. -/
theorem halt_runStages (p : Pipeline σ) (retries : Nat) (stages : List (Stage σ)) (data : Datum)
    (status : StatusBoard) (world : σ) :
    (p.runStages (retries + 1) stages data status world).halt = none ↔
      p.continueOnFailure = true ∨
        ∀ result ∈ (p.runStages (retries + 1) stages data status world).results,
          result.success = true := by
  induction stages generalizing data status world with
  | nil => simp [runStages]
  | cons stage later ih =>
    obtain ⟨result, world', -, hattempt, -⟩ := stage.attempt_watched 0 data retries none world []
    rw [runStages, hattempt]
    dsimp only
    cases hok : result.success with
    | true =>
      rw [if_pos rfl]
      dsimp only
      rw [ih, List.forall_mem_cons, hok]
      simp
    | false =>
      rw [if_neg Bool.false_ne_true]
      cases hgo : p.continueOnFailure with
      | true =>
        rw [if_pos rfl]
        dsimp only
        rw [ih, hgo]
        simp
      | false => simp [hok]

/-! ## Executions -/

/-- A report that accounts for the executions of a pipeline's stages. -/
structure Accounted (p : Pipeline σ) (data : Datum) (calls : List Call) (r : PipelineResult) :
    Prop where
  /-- Stages are executed in their order, and only those that a result stands for. -/
  ordered : calls.Pairwise fun c d => c.stage ≤ d.stage
  executed : ∀ c ∈ calls, c.stage < r.results.length
  length_le : r.results.length ≤ p.stages.length
  /-- Each result comes from attempts on the data of the latest stage before that succeeded. -/
  attempted : ∀ (i : Nat) (stage : Stage σ) (result : StageResult),
    p.stages[i]? = some stage → r.results[i]? = some result →
    stage.Attempted i (latestData data (r.results.take i)) p.maxRetries.toNat
      (calls.filter (·.stage = i)) result
  /-- If failures stop the pipeline, the results end with the first failure or with the last stage. -/
  stops : p.continueOnFailure = false →
    (∀ result ∈ r.results.dropLast, result.success = true) ∧
      ((∃ result ∈ r.results, result.success = false) ∨ r.results.length = p.stages.length) ∧
      (r.success = true ↔ ∀ result ∈ r.results, result.success = true)
  goesOn : p.continueOnFailure = true → r.results.length = p.stages.length

/-- The wording of the failure that ended a pipeline early, if one did. -/
def Progress.error? (done : Progress σ) : Option String :=
  match done.halt with
  | some (.failure error) => some error
  | _ => none

theorem report_of_attempted {done : Progress σ} (hdone : done.halt ≠ some .noAttempt) (id : String) :
    done.report id =
      .ok { success := done.halt.isNone, id, results := done.results, status := done.status,
            error := done.error? } := by
  obtain ⟨results, status, halt, world⟩ := done
  cases halt with
  | none => rfl
  | some halt =>
    cases halt with
    | failure error => rfl
    | noAttempt => exact absurd rfl hdone

theorem attempts_eq (p : Pipeline σ) (hretries : 0 ≤ p.maxRetries) :
    p.attempts = p.maxRetries.toNat + 1 := by
  rw [attempts]
  omega

/-- With attempts allowed, an execution reports what comes of running its stages. -/
theorem execute_eq (p : Pipeline σ) (hretries : 0 ≤ p.maxRetries) (data : Datum) (world : σ) :
    let done := p.runStages (p.maxRetries.toNat + 1) p.stages data p.status world
    p.execute data world =
      (.ok { success := done.halt.isNone, id := p.id, results := done.results, status := done.status,
             error := done.error? },
        { p with status := done.status }, done.world) := by
  intro done
  obtain ⟨-, -, hhalt, -⟩ :=
    p.runStages_watched p.maxRetries.toNat 0 p.stages data p.status world []
  rw [execute, attempts_eq p hretries, report_of_attempted hhalt]

/-- With attempts allowed, a watched pipeline returns what the pipeline returns, and its notes go the way
of a pipeline. -/
theorem execute_watched (p : Pipeline σ) (hretries : 0 ≤ p.maxRetries) (data : Datum) (world : σ) :
    ∃ calls, (p.watched.execute data (world, [])).1 = (p.execute data world).1 ∧
      (p.watched.execute data (world, [])).2.2 = ((p.execute data world).2.2, calls) ∧
      Executes p.continueOnFailure p.maxRetries.toNat 0 p.stages data calls
        (p.runStages (p.maxRetries.toNat + 1) p.stages data p.status world).results := by
  obtain ⟨calls, hrun, -, hexecutes⟩ :=
    p.runStages_watched p.maxRetries.toNat 0 p.stages data p.status world []
  have hwatched := p.watched.execute_eq hretries data (world, [])
  rw [show p.watched.runStages (p.watched.maxRetries.toNat + 1) p.watched.stages data p.watched.status
    (world, []) = _ from hrun] at hwatched
  rw [hwatched, p.execute_eq hretries]
  exact ⟨calls, rfl, rfl, hexecutes⟩

/-- Whatever its stages do, a pipeline that allows an attempt returns a result. Its stages are attempted
until they succeed or no attempt is left, on the data of the latest success, and the last attempt counts;
a failure stops the pipeline or not as it is set up. -/
theorem execute_attempts_until_success (p : Pipeline σ) (data : Datum) (world : σ)
    (hretries : 0 ≤ p.maxRetries) :
    ∃ r calls, (p.execute data world).1 = .ok r ∧
      (p.watched.execute data (world, [])).1 = .ok r ∧
      (p.watched.execute data (world, [])).2.2 = ((p.execute data world).2.2, calls) ∧
      p.Accounted data calls r := by
  obtain ⟨calls, hsame, hworld, hexecutes⟩ := p.execute_watched hretries data world
  rw [hsame, hworld, p.execute_eq hretries]
  refine ⟨_, calls, rfl, rfl, rfl, ?_⟩
  constructor
  · exact hexecutes.ordered
  · intro c hc
    have hbound := (hexecutes.position_bounds c hc).2
    rwa [Nat.zero_add] at hbound
  · exact hexecutes.length_le
  · intro i stage result hstage hresult
    have hattempted := hexecutes.attempted hstage hresult
    rwa [Nat.zero_add] at hattempted
  · intro hstop
    rw [hstop] at hexecutes
    obtain ⟨hbefore, hend⟩ := hexecutes.stops
    refine ⟨hbefore, hend, ?_⟩
    rw [Option.isNone_iff_eq_none, halt_runStages, hstop]
    simp
  · intro hgo
    rw [hgo] at hexecutes
    exact hexecutes.length_eq

/-- Two stages that play back one tape, with one further attempt each. -/
def twoReplays : Pipeline Tape where
  id := "two"
  maxRetries := 1
  stages := [replay "first" true, replay "second" true]

/-- The first stage succeeds when it is tried again, the second one never. -/
def faultyTape : Tape where
  outcomes := [.fault (.foreign "RuntimeError" "first boom"), .append (.number 1),
    .result { success := false, data := .value (.number 2) },
    .fault (.foreign "RuntimeError" "second boom")]

theorem execute_attempts_until_success_twoReplays :
    0 ≤ twoReplays.maxRetries ∧
      ∃ r calls, (twoReplays.execute (.value (.array [])) faultyTape).1 = .ok r ∧
        (twoReplays.watched.execute (.value (.array [])) (faultyTape, [])).1 = .ok r ∧
        (twoReplays.watched.execute (.value (.array [])) (faultyTape, [])).2.2 =
          ((twoReplays.execute (.value (.array [])) faultyTape).2.2, calls) ∧
        twoReplays.Accounted (.value (.array [])) calls r :=
  ⟨by decide, execute_attempts_until_success twoReplays _ faultyTape (by decide)⟩

end ImportAtlas.Pipeline
