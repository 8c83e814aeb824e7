/-
# ImportAtlas.Pipeline.Stage -- one step and its outcome

A stage reads and changes a world of any kind. It may fail with a fault, and running it turns the fault
into a result without data that names the kind of error.
-/
import ImportAtlas.Build
import ImportAtlas.Git
import ImportAtlas.Pipeline.Datum

namespace ImportAtlas.Pipeline

open Json (Value)

/-- Why a stage gives up. -/
inductive Fault where
  | build (fault : BuildFault)
  | git (fault : Git.Fault)
  | file (fault : FileFault) (path : Path)
  /-- A field that the stage needs is not in its input. -/
  | missingField (name : String)
  /-- A value of its input or its options is of the wrong kind. -/
  | misuse (m : Misuse)
  /-- An error of any other kind. -/
  | foreign (kind message : String)
  deriving Repr, Inhabited

namespace Fault

/-- The kind of error that a fault is reported as. -/
def label : Fault → String
  | build _ => BuildFault.label
  | git fault => fault.label
  | file fault _ => fault.label
  | missingField _ => "KeyError"
  | misuse m => m.label
  | foreign kind _ => kind

/-- The wording of a fault. -/
def message : Fault → String
  | build fault => fault.message
  | git fault => fault.message
  | file fault p => fault.message p
  | missingField name => Text.quoted name
  | misuse m => m.message
  | foreign _ text => text

end Fault

/-- What a stage reports. -/
structure StageResult where
  success : Bool
  data : Datum := .null
  metadata : List (String × Value) := []
  error : Option String := none
  /-- Whether a running time was taken. -/
  timed : Bool := false
  deriving Repr, Inhabited

/-- A stage result as a record of its fields. -/
def StageResult.toJson (r : StageResult) : Value :=
  .record [("success", .bool r.success), ("data", r.data.toJson), ("metadata", .record r.metadata),
    ("error", .orNull .text r.error), ("timed", .bool r.timed)]

/-- The options that a stage is set up with, by name. -/
abbrev Options := List (String × Value)

namespace Options

/-- An option by its name. -/
def get? (options : Options) (name : String) : Option Value :=
  (options.find? fun o => o.1 = name).map (·.2)

/-- An option by its name, null if it is not there. -/
def get (options : Options) (name : String) : Value := (options.get? name).getD .null

end Options

/-- One step of a pipeline over a world `σ`. -/
structure Stage (σ : Type) where
  name : String
  /-- Whether the stage is set up in a way that can work. -/
  isValid : σ → Except Fault Bool := fun _ => .ok true
  options : Options := []
  /-- Does the work of the stage on some data. A datum is handed on as the one object that it is, never as
  a copy. So a datum here says which object a stage is given or gives, and what a stage writes into an
  object in place is a change of the world, like all else that others can see of its work. -/
  execute : Datum → σ → Except Fault StageResult × σ

namespace Stage

/-- Runs a stage; a fault becomes a failed result. -/
def run {σ : Type} (stage : Stage σ) (input : Datum) (world : σ) : StageResult × σ :=
  match stage.execute input world with
  | (.ok result, world) => ({ result with timed := true }, world)
  | (.error fault, world) =>
    ({ success := false,
       metadata := [("stage", .text stage.name), ("error_type", .text fault.label)],
       error := some fault.message,
       timed := true }, world)

/-- Runs a stage until it succeeds or no attempt is left, and gives the result of the latest attempt. If
none was made there is no result. -/
def attempt {σ : Type} (stage : Stage σ) (input : Datum) :
    Nat → Option StageResult → σ → Option StageResult × σ
  | 0, latest, world => (latest, world)
  | left + 1, _, world =>
    match stage.run input world with
    | (result, world) =>
      if result.success then (some result, world) else stage.attempt input left (some result) world

/-- A stage as a stage over a larger world. -/
def within {σ τ : Type} (stage : Stage σ) (get : τ → σ) (put : σ → τ → τ) : Stage τ where
  name := stage.name
  isValid world := stage.isValid (get world)
  options := stage.options
  execute input world :=
    let (outcome, part) := stage.execute input (get world)
    (outcome, put part world)

end Stage

end ImportAtlas.Pipeline
