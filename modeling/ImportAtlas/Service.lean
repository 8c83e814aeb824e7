/-
# ImportAtlas.Service -- graphs on request

Three things can be requested: whether the service is up, the graph of given seeds, and the graph of the
changes in a workspace. Each has a handler, which is given a request whose fields are of the right kinds.
How a request is read from what comes in is not the service's own matter: a gateway hands on a request or
answers itself.

No request writes a file.
-/
import ImportAtlas.Pipeline.Start

namespace ImportAtlas.Service

open Json (Value)

/-- A request for the graph of some seeds. -/
structure GraphRequest where
  workspace : Path
  seeds : List Path
  deriving DecidableEq, Repr, Inhabited

/-- A request for the graph of the changes in a workspace, or of those of one commit. -/
structure ChangesRequest where
  workspace : Path
  commit : Option Path := none
  deriving DecidableEq, Repr, Inhabited

/-- A request for one of the handlers. -/
inductive Request where
  | health
  | graph (r : GraphRequest)
  | changes (r : ChangesRequest)
  deriving DecidableEq, Repr, Inhabited

/-- A response. -/
structure Response where
  status : Nat
  body : Value
  deriving Repr, Inhabited

/-- A response with a reason. -/
def refuse (status : Nat) (reason : String) : Response := ⟨status, .record [("detail", .text reason)]⟩

/-! ## Handlers -/

/-- Whether the service is up. -/
def answerHealth : Response := ⟨200, .record [("status", .text "ok")]⟩

/-- The graph of given seeds. -/
def answerGraph (world : World) (r : GraphRequest) : Response :=
  match buildGraph world.host r.seeds r.workspace with
  | .error fault => refuse 400 fault.message
  | .ok graph => ⟨200, graph.toJson⟩

/-- Kinds of errors that lie with the request. -/
def requestErrors : List String := ["GraphBuildError", "GitError"]

/-- The status for a pipeline that failed. -/
def failureStatus (result : PipelineResult) : Nat :=
  match result.results.getLast? with
  | none => 500
  | some last =>
    match last.metadata.find? fun m => m.1 = "error_type" with
    | some (_, .string kind) => if requestErrors.contains (String.ofList kind) then 400 else 500
    | _ => 500

/-- The graph and the changed files of a finished pipeline. -/
def changesBody (data : Pipeline.Datum) : Value :=
  match data.get? "graph", data.get? "changed_files" with
  | some (.graph graph), some (.changes files) =>
    .record [("nodes", .array (graph.nodes.map FileNode.toJson)),
      ("edges", .array (graph.edges.map Edge.toJson)),
      ("changedFiles", .array (files.map ChangedFile.toJson))]
  | _, _ => .null

/-- What is answered when no handler deals with an error. -/
def uncaught : Response := ⟨500, .text "Internal Server Error"⟩

/-- The id of the pipelines that the service runs. -/
def pipelineId : String := "service"

/-- The graph of the changes in a workspace. The output path is given as empty, so that the one of the
settings is not used. -/
def answerChanges (settings : Settings) (world : World) (r : ChangesRequest) : Response × World :=
  match startPipeline settings world (.string r.workspace) (.orNull .string r.commit) (.text "")
      pipelineId with
  | (.error fault, world) =>
    (if fault.label = "ValueError" then refuse 400 fault.message else uncaught, world)
  | (.ok result, world) =>
    if result.success then (⟨200, changesBody result.data⟩, world)
    else (refuse (failureStatus result) (result.error.getD ""), world)

/-- Answers a request by its handler. -/
def handle (settings : Settings) (world : World) : Request → Response × World
  | .health => (answerHealth, world)
  | .graph r => (answerGraph world r, world)
  | .changes r => answerChanges settings world r

/-! ## Requests as they come in -/

/-- Reads what comes in as a request, or answers it without a handler. -/
abbrev Gateway (ρ : Type) := ρ → Except Response Request

variable {ρ : Type}

/-- Answers what comes in through a gateway. -/
def respond (gateway : Gateway ρ) (settings : Settings) (world : World) (incoming : ρ) :
    Response × World :=
  match gateway incoming with
  | .error response => (response, world)
  | .ok request => handle settings world request

/-- Answers all that comes in, in order. -/
def respondAll (gateway : Gateway ρ) (settings : Settings) : World → List ρ → List Response × World
  | world, [] => ([], world)
  | world, incoming :: later =>
    let (response, world) := respond gateway settings world incoming
    let (responses, world) := respondAll gateway settings world later
    (response :: responses, world)

end ImportAtlas.Service
