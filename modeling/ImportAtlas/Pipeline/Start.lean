/-
# ImportAtlas.Pipeline.Start -- from a workspace to the graph of its changes

The three stages in order. Nothing is run if a stage is set up in a way that cannot work.
-/
import ImportAtlas.Pipeline.Stages
import ImportAtlas.Settings

namespace ImportAtlas

open Json (Value)
open Pipeline (Datum Fault)

/-- The pipeline for the changes of a workspace. Without an output path the one of the settings is
used. -/
def graphPipeline (settings : Settings) (commitRef outputPath : Value) (id : String) :
    Pipeline World :=
  let output := match outputPath with
    | .null => .text settings.outputPath
    | given => given
  ({ id } : Pipeline World).addStages
    [.changedFiles [("commit_ref", commitRef)],
     .dependencyGraph [("show_progress", .bool settings.showProgress)],
     .graphExport [("output_path", output)]]

/-- Why a pipeline is not started. -/
inductive StartFault where
  | invalid
  /-- Whether the stages can work cannot be told. -/
  | untold (fault : Fault)
  | noAttempt
  deriving Repr, Inhabited

namespace StartFault

/-- The kind of error that a fault is reported as. -/
def label : StartFault → String
  | invalid => "ValueError"
  | untold fault => fault.label
  | noAttempt => NoAttempt.label

/-- The wording of a fault. -/
def message : StartFault → String
  | invalid => "Invalid graph pipeline configuration"
  | untold fault => fault.message
  | noAttempt => NoAttempt.message

end StartFault

/-- The input of the first stage. -/
def startDatum (workspace : Value) : Datum := .record [("workspace_root", .value workspace)]

/-- Builds the graph of the changes in a workspace, and writes it out if there is an output path. -/
def startPipeline (settings : Settings) (world : World) (workspace commitRef outputPath : Value)
    (id : String) : Except StartFault PipelineResult × World :=
  let pipeline := graphPipeline settings commitRef outputPath id
  match pipeline.isValid world with
  | .error fault => (.error (.untold fault), world)
  | .ok false => (.error .invalid, world)
  | .ok true =>
    match pipeline.execute (startDatum workspace) world with
    | (.ok result, _, world) => (.ok result, world)
    | (.error _, _, world) => (.error .noAttempt, world)

end ImportAtlas
