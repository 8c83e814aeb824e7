/-
# ImportAtlas.Json.Value -- JSON values

Objects keep their fields in order. A number that is no integer is kept as it is written, since nothing
here calculates with one.
-/

namespace ImportAtlas.Json

/-- A JSON value; texts are lists of characters. -/
inductive Value where
  | null
  | bool (b : Bool)
  | number (n : Int)
  | decimal (literal : List Char)
  | string (text : List Char)
  | array (items : List Value)
  | object (fields : List (List Char × Value))
  deriving Repr, Inhabited

namespace Value

/-- A text value. -/
def text (s : String) : Value := .string s.toList

/-- The characters of a text value. -/
def text? : Value → Option (List Char)
  | .string cs => some cs
  | _ => none

/-- A natural number. -/
def count (n : Nat) : Value := .number n

/-- An object with the given fields. -/
def record (fields : List (String × Value)) : Value :=
  .object (fields.map fun f => (f.1.toList, f.2))

/-- A value that may be missing, which is then null. -/
def orNull {α : Type} (f : α → Value) : Option α → Value
  | some a => f a
  | none => .null

/-- The field of an object by its name; of several the last. -/
def field? (v : Value) (name : String) : Option Value :=
  match v with
  | .object fields => (fields.reverse.find? fun f => f.1 = name.toList).map (·.2)
  | _ => none

end Value

end ImportAtlas.Json
