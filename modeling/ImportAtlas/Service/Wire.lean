/-
# ImportAtlas.Service.Wire -- a gateway for messages

A message has a method, a target and a body. The target tells which handler it is for, and the body is
checked field by field before the handler gets to see it. This is one gateway among others: what is known
about the handlers does not depend on it. Pages that describe the service itself are not among its routes.
-/
import ImportAtlas.Json.Extent
import ImportAtlas.Service
import ImportAtlas.Service.Route

namespace ImportAtlas.Service.Wire

open Json (Value)

/-- What a message carries. -/
inductive Body where
  | empty
  | value (v : Value)
  | text (cs : List Char)
  deriving Repr, Inhabited

/-- A message as it comes in. -/
structure Message where
  method : String
  target : String
  body : Body := .empty
  deriving Repr, Inhabited

/-! ## Bodies -/

/-- A fault of a body: its kind, and where it is. -/
structure Invalid where
  kind : String
  place : List Value
  deriving Repr, Inhabited

/-- A fault as a record. -/
def Invalid.toJson (i : Invalid) : Value := .record [("type", .text i.kind), ("loc", .array i.place)]

/-- A fault of a field. -/
def Invalid.ofField (kind field : String) (inside : List Value) : Invalid :=
  ⟨kind, .text "body" :: .text field :: inside⟩

/-- The response to a body that cannot be used. -/
def rejected (faults : List Invalid) : Response := ⟨422, .array (faults.map Invalid.toJson)⟩

/-- How deep the brackets of a body may nest. -/
def nestingLimit : Nat := 940

/-- How many digits a whole number of a body may have. -/
def digitLimit : Nat := 4300

/-- Whether a text asks too much of its reader, as far as it is read at all. -/
def isExcessive (text : List Char) : Bool :=
  let extent := Json.Extent.ofText (text.take (Json.readLength text))
  nestingLimit < extent.deepest || digitLimit < extent.longest

/-- A text without the mark of its encoding in front. -/
def withoutMark : List Char → List Char
  | '\ufeff' :: rest => rest
  | text => text

/-- The value of a text. -/
def textValue (text : List Char) : Except Response Value :=
  if isExcessive text then .error (refuse 400 "There was an error parsing the body")
  else
    match Json.parse text with
    | .ok v => .ok v
    | .error offset => .error (rejected [⟨"json_invalid", [.text "body", .count offset]⟩])

/-- The value of a body. -/
def bodyValue : Body → Except Response Value
  | .empty => .error (rejected [⟨"missing", [.text "body"]⟩])
  | .value v => .ok v
  | .text [] => .error (rejected [⟨"missing", [.text "body"]⟩])
  | .text text => textValue (withoutMark text)

/-- A field that has to be a text. -/
def textField (body : Value) (name : String) : Except (List Invalid) Path :=
  match body.field? name with
  | none => .error [.ofField "missing" name []]
  | some (.string text) => .ok text
  | some _ => .error [.ofField "string_type" name []]

/-- A field that may be missing or null, and else has to be a text. -/
def optionalTextField (body : Value) (name : String) : Except (List Invalid) (Option Path) :=
  match body.field? name with
  | none => .ok none
  | some .null => .ok none
  | some (.string text) => .ok (some text)
  | some _ => .error [.ofField "string_type" name []]

/-- The faults of list items that have to be texts, counted from an index. -/
def itemFaults (name : String) : Nat → List Value → List Invalid
  | _, [] => []
  | i, .string _ :: items => itemFaults name (i + 1) items
  | i, _ :: items => .ofField "string_type" name [.count i] :: itemFaults name (i + 1) items

/-- A field that has to be a list of texts. -/
def textListField (body : Value) (name : String) : Except (List Invalid) (List Path) :=
  match body.field? name with
  | none => .error [.ofField "missing" name []]
  | some (.array items) =>
    match itemFaults name 0 items with
    | [] => .ok (items.filterMap Value.text?)
    | faults => .error faults
  | some _ => .error [.ofField "list_type" name []]

/-- Both of two fields, or the faults of both. -/
def both {α β : Type} : Except (List Invalid) α → Except (List Invalid) β →
    Except (List Invalid) (α × β)
  | .ok a, .ok b => .ok (a, b)
  | .ok _, .error fs => .error fs
  | .error fs, .ok _ => .error fs
  | .error fs, .error gs => .error (fs ++ gs)

/-- Reads the fields of a body. -/
def readBody {α : Type} (body : Body) (fields : Value → Except (List Invalid) α) :
    Except Response α :=
  match bodyValue body with
  | .error response => .error response
  | .ok (.object entries) => (fields (.object entries)).mapError rejected
  | .ok _ => .error (rejected [⟨"model_attributes_type", [.text "body"]⟩])

/-! ## Messages -/

/-- The fields of a request for the graph of some seeds. -/
def graphFields (v : Value) : Except (List Invalid) Request :=
  (both (textField v "workspace_root") (textListField v "seed_paths")).map fun f => .graph ⟨f.1, f.2⟩

/-- The fields of a request for the graph of changes. -/
def changesFields (v : Value) : Except (List Invalid) Request :=
  (both (textField v "workspace_root") (optionalTextField v "commit_ref")).map fun f =>
    .changes ⟨f.1, f.2⟩

/-- Reads a message by its route. -/
def gateway : Gateway Message := fun m =>
  match Route.ofTarget? m.target with
  | none => .error (refuse 404 "Not Found")
  | some route =>
    if m.method = route.method then
      match route with
      | .health => .ok .health
      | .graph => readBody m.body graphFields
      | .changes => readBody m.body changesFields
    else .error (refuse 405 "Method Not Allowed")

end ImportAtlas.Service.Wire
