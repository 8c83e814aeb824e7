/-
# ImportAtlas.Pipeline.Datum -- what stages hand on

Stages pass on a record to which each adds its result, or any other value. The fields of a record may
hold a graph or changed files, which become plain values only when they are written out.
-/
import ImportAtlas.Changes
import ImportAtlas.Graph

namespace ImportAtlas.Pipeline

open Json (Value)

/-- A field of a record. -/
inductive Item where
  | value (v : Value)
  | graph (g : Graph)
  | changes (files : List ChangedFile)
  deriving Repr, Inhabited

/-- A field written out. -/
def Item.toJson : Item → Value
  | value v => v
  | graph g => g.toJson
  | changes files => .array (files.map ChangedFile.toJson)

/-- What a stage gets and hands on. -/
inductive Datum where
  | value (v : Value)
  | record (fields : List (String × Item))
  deriving Repr, Inhabited

namespace Datum

/-- The value that stands for nothing. -/
def null : Datum := .value .null

/-- A plain value as a datum. -/
def ofJson : Value → Datum
  | .object fields => .record (fields.map fun f => (String.ofList f.1, .value f.2))
  | v => .value v

/-- A datum written out. -/
def toJson : Datum → Value
  | value v => v
  | record fields => .record (fields.map fun f => (f.1, f.2.toJson))

/-- A field by its name. -/
def get? (d : Datum) (name : String) : Option Item :=
  match d with
  | value _ => none
  | record fields => (fields.find? fun f => f.1 = name).map (·.2)

/-- Puts a field into a record, in place of one with its name. -/
def set (d : Datum) (name : String) (item : Item) : Datum :=
  match d with
  | value v => .value v
  | record fields =>
    if fields.any (·.1 = name) then
      .record (fields.map fun f => if f.1 = name then (name, item) else f)
    else .record (fields ++ [(name, item)])

end Datum

end ImportAtlas.Pipeline
