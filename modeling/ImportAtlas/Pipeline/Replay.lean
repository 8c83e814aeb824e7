/-
# ImportAtlas.Pipeline.Replay -- stages that play back given outcomes

Each execution takes the next outcome of a list, and the last one stays. What the stage was executed
with is kept, so that the flow of data through a pipeline can be watched.
-/
import ImportAtlas.Pipeline.Stage

namespace ImportAtlas.Pipeline

open Json (Value)

/-- A given outcome of an execution. -/
inductive Outcome where
  /-- Success with the input list and one more value. -/
  | append (v : Value)
  | result (r : StageResult)
  | fault (f : Fault)
  deriving Repr, Inhabited

/-- The outcomes still to come, and the inputs so far. -/
structure Tape where
  outcomes : List Outcome
  seen : List Datum := []
  deriving Repr, Inhabited

namespace Tape

/-- The next outcome, and the outcomes after it. -/
def next : List Outcome → Outcome × List Outcome
  | [] => (.result { success := true }, [])
  | [last] => (last, [last])
  | first :: rest => (first, rest)

end Tape

/-- What an outcome gives for an input. -/
def Outcome.play (stage : String) (input : Datum) : Outcome → Except Fault StageResult
  | append v =>
    match input with
    | .value (.array items) =>
      .ok { success := true, data := .value (.array (items ++ [v])),
            metadata := [("stage", .text stage)] }
    | _ => .error (.misuse (.notList input.toJson))
  | result r => .ok r
  | fault f => .error f

/-- A stage that plays back a tape. -/
def replay (name : String) (valid : Bool) : Stage Tape where
  name := name
  isValid _ := .ok valid
  execute input tape :=
    let (outcome, outcomes) := Tape.next tape.outcomes
    (outcome.play name input, { outcomes, seen := tape.seen ++ [input] })

end ImportAtlas.Pipeline
