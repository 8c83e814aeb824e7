/-
# ImportAtlas.Pipeline.Basic -- stages in order

Each stage gets the data of the last stage that succeeded. A stage that fails is tried again as often as
the configuration says. If it still fails, the pipeline either goes on without its data or stops and
skips the stages that are left.

The status of a stage is kept under its name, so that of two stages with one name the later wins.
-/
import ImportAtlas.Pipeline.Stage

namespace ImportAtlas

open Json (Value)
open Pipeline (Datum Fault Stage StageResult)

/-- How far a stage has come. -/
inductive Status where
  | pending
  | running
  | completed
  | failed
  | skipped
  deriving DecidableEq, Repr, Inhabited

/-- The name of a status. -/
def Status.label : Status → String
  | pending => "pending"
  | running => "running"
  | completed => "completed"
  | failed => "failed"
  | skipped => "skipped"

/-- The status of every stage by name, in the order of first mention. -/
abbrev StatusBoard := List (String × Status)

namespace StatusBoard

/-- Sets the status of a name. -/
def set (board : StatusBoard) (name : String) (status : Status) : StatusBoard :=
  if board.any (·.1 = name) then
    board.map fun s => if s.1 = name then (name, status) else s
  else board ++ [(name, status)]

/-- Sets the status of several names. -/
def setAll (board : StatusBoard) (names : List String) (status : Status) : StatusBoard :=
  names.foldl (fun board name => board.set name status) board

/-- The status of a name. -/
def get? (board : StatusBoard) (name : String) : Option Status :=
  (board.find? fun s => s.1 = name).map (·.2)

/-- A board as a record. -/
def toJson (board : StatusBoard) : Value := .record (board.map fun s => (s.1, .text s.2.label))

end StatusBoard

/-- Stages over a world, with their configuration and status. -/
structure Pipeline (σ : Type) where
  id : String
  continueOnFailure : Bool := false
  /-- How often a failed stage is tried again. -/
  maxRetries : Int := 0
  stages : List (Stage σ) := []
  status : StatusBoard := []

/-- What a pipeline reports. -/
structure PipelineResult where
  success : Bool
  id : String
  results : List StageResult
  status : StatusBoard
  error : Option String := none
  deriving Repr, Inhabited

namespace PipelineResult

/-- The data of the last stage that was run. -/
def data (r : PipelineResult) : Datum :=
  match r.results.getLast? with
  | some last => last.data
  | none => .null

/-- A pipeline result as a record of its fields. -/
def fields (r : PipelineResult) : List (String × Value) :=
  [("success", .bool r.success), ("pipeline_id", .text r.id), ("error", .orNull .text r.error),
   ("data", r.data.toJson), ("stage_results", .array (r.results.map StageResult.toJson)),
   ("stage_status", r.status.toJson)]

end PipelineResult

/-- The fault of a pipeline whose configuration allows not even one attempt. -/
structure NoAttempt where
  deriving DecidableEq, Repr, Inhabited

namespace NoAttempt

/-- The kind of error that it is reported as. -/
def label : String := "UnboundLocalError"

/-- Its wording. -/
def message : String :=
  "cannot access local variable 'result' where it is not associated with a value"

end NoAttempt

namespace Pipeline

variable {σ : Type}

/-- Adds a stage at the end, as one that is still to run. -/
def addStage (p : Pipeline σ) (stage : Stage σ) : Pipeline σ :=
  { p with stages := p.stages ++ [stage], status := p.status.set stage.name .pending }

/-- Adds stages at the end. -/
def addStages (p : Pipeline σ) (stages : List (Stage σ)) : Pipeline σ := stages.foldl addStage p

/-- Whether all of some stages are set up in a way that can work. They are asked in order, up to the
first that is not, or that cannot tell. -/
def checkStages (world : σ) : List (Stage σ) → Except Fault Bool
  | [] => .ok true
  | stage :: later =>
    match stage.isValid world with
    | .ok true => checkStages world later
    | other => other

/-- Whether there are stages, and all of them are set up in a way that can work. -/
def isValid (p : Pipeline σ) (world : σ) : Except Fault Bool :=
  if p.stages.isEmpty then .ok false else checkStages world p.stages

/-- The message of a pipeline that stops. -/
def failureText (stage : String) (error : Option String) : String :=
  "Pipeline failed at stage: " ++ stage ++ ": " ++ error.getD "None"

/-- What ends a pipeline before its last stage is done. -/
inductive Halt where
  /-- A stage failed, and failures stop the pipeline. -/
  | failure (error : String)
  /-- There is no result of a stage, since it was not attempted. -/
  | noAttempt
  deriving DecidableEq, Repr, Inhabited

/-- How far a pipeline came: what was reported, and what ended it early. -/
structure Progress (σ : Type) where
  results : List StageResult
  status : StatusBoard
  halt : Option Halt
  world : σ

/-- What a pipeline that came so far returns. -/
def Progress.report (done : Progress σ) (id : String) : Except NoAttempt PipelineResult :=
  match done.halt with
  | none => .ok { success := true, id, results := done.results, status := done.status }
  | some (.failure error) =>
    .ok { success := false, id, results := done.results, status := done.status, error := some error }
  | some .noAttempt => .error {}

/-- Runs stages in order on the latest data, each with a number of attempts. -/
def runStages (p : Pipeline σ) (attempts : Nat) :
    List (Stage σ) → Datum → StatusBoard → σ → Progress σ
  | [], _, status, world => ⟨[], status, none, world⟩
  | stage :: later, data, status, world =>
    let status := status.set stage.name .running
    match stage.attempt data attempts none world with
    | (none, world) => ⟨[], status, some .noAttempt, world⟩
    | (some result, world) =>
      if result.success then
        let rest := runStages p attempts later result.data (status.set stage.name .completed) world
        { rest with results := result :: rest.results }
      else
        let status := status.set stage.name .failed
        if p.continueOnFailure then
          let rest := runStages p attempts later data status world
          { rest with results := result :: rest.results }
        else
          ⟨[result], status.setAll (later.map (·.name)) .skipped,
            some (.failure (failureText stage.name result.error)), world⟩

/-- How often a stage may be run: once, and again as often as the configuration says. -/
def attempts (p : Pipeline σ) : Nat := (p.maxRetries + 1).toNat

/-- Runs the pipeline on some data. -/
def execute (p : Pipeline σ) (data : Datum) (world : σ) :
    Except NoAttempt PipelineResult × Pipeline σ × σ :=
  let done := p.runStages p.attempts p.stages data p.status world
  (done.report p.id, { p with status := done.status }, done.world)

end Pipeline

end ImportAtlas
