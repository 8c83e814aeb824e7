/-
# ImportAtlas.Misuse -- values of the wrong kind

Options and the data of stages come as JSON values, and nobody has checked them. A value is refused only
where it is put to use, and the wording names the kind of value that was found there.
-/
import ImportAtlas.Json.Value
import ImportAtlas.Path

namespace ImportAtlas

open Json (Value)

/-- Why a value cannot be put to its use. -/
inductive Misuse where
  /-- It is no path. -/
  | notPath (v : Value)
  /-- It cannot be joined to a path. -/
  | notPart (v : Value)
  /-- It has no items to go through. -/
  | notItems (v : Value)
  /-- It has no fields with names. -/
  | notRecord (v : Value)
  /-- It is no list that something can be appended to. -/
  | notList (v : Value)
  /-- It is no graph. -/
  | notGraph (v : Value)
  /-- It is no indent. -/
  | notIndent (v : Value)
  /-- It is no word of a command, in which it has the given index. -/
  | notWord (index : Nat) (v : Value)
  deriving Repr, Inhabited

namespace Misuse

/-- The name of a value's kind. -/
def kindName : Value → String
  | .null => "NoneType"
  | .bool _ => "bool"
  | .number _ => "int"
  | .decimal _ => "float"
  | .string _ => "str"
  | .array _ => "list"
  | .object _ => "dict"

/-- The kind of error that a misuse is reported as. -/
def label : Misuse → String
  | notGraph _ => "AttributeError"
  | _ => "TypeError"

/-- The wording of a misuse. -/
def message : Misuse → String
  | notPath v => "expected str, bytes or os.PathLike object, not " ++ kindName v
  | notPart v =>
    "join() argument must be str, bytes, or os.PathLike object, not '" ++ kindName v ++ "'"
  | notItems v => "'" ++ kindName v ++ "' object is not iterable"
  | notRecord (.string _) => "string indices must be integers, not 'str'"
  | notRecord (.array _) => "list indices must be integers or slices, not str"
  | notRecord v => "'" ++ kindName v ++ "' object is not subscriptable"
  | notList (.string _) => "can only concatenate str (not \"list\") to str"
  | notList v => "unsupported operand type(s) for +: '" ++ kindName v ++ "' and 'list'"
  | notGraph v => "'" ++ kindName v ++ "' object has no attribute 'to_json'"
  | notIndent v => "can't multiply sequence by non-int of type '" ++ kindName v ++ "'"
  | notWord index v =>
    "sequence item " ++ toString index ++ ": expected str instance, " ++ kindName v ++ " found"

end Misuse

namespace Json.Value

/-- Whether a value counts as not given: null, false, zero, or without content. -/
def isVoid : Value → Bool
  | .null => true
  | .bool b => !b
  | .number n => n = 0
  | .decimal _ => false
  | .string text => text.isEmpty
  | .array items => items.isEmpty
  | .object fields => fields.isEmpty

/-- A value as a path. -/
def asPath : Value → Except Misuse Path
  | .string text => .ok text
  | v => .error (.notPath v)

/-- A value as something that can be joined to a path. -/
def asPart : Value → Except Misuse Path
  | .string text => .ok text
  | v => .error (.notPart v)

/-- The paths that a value holds: the items of a list, the names of the fields of a record, or the
characters of a text. -/
def asPaths : Value → Except Misuse (List Path)
  | .array items => items.mapM asPart
  | .object fields => .ok (fields.map (·.1))
  | .string text => .ok (text.map fun c => [c])
  | v => .error (.notItems v)

end Json.Value

end ImportAtlas
