/-
# ImportAtlas.Graph -- files and the imports between them

A node is a file, known by its path from the workspace. An edge leads from a file to one that it
imports. Both lists are in the order of discovery, and an edge is there once for each import.
-/
import ImportAtlas.Json.Print
import ImportAtlas.Path

namespace ImportAtlas

open Json (Value)

/-- A file of the graph. -/
structure FileNode where
  /-- The path from the workspace. -/
  id : Path
  /-- The last part of the path. -/
  label : Path
  path : Path
  /-- Whether the file was asked for, and not only imported. -/
  isChanged : Bool := false
  deriving DecidableEq, Repr, Inhabited

/-- An import: `source` imports `target`, both given by id. -/
structure Edge where
  source : Path
  target : Path
  kind : Option String := some "import"
  deriving DecidableEq, Repr, Inhabited

/-- The files reached and the imports among them. -/
structure Graph where
  nodes : List FileNode := []
  edges : List Edge := []
  deriving DecidableEq, Repr, Inhabited

/-- A node as a record of its fields. -/
def FileNode.toJson (n : FileNode) : Value :=
  .record [("id", .string n.id), ("label", .string n.label), ("path", .string n.path),
    ("isChanged", .bool n.isChanged)]

/-- An edge as a record of its fields. -/
def Edge.toJson (e : Edge) : Value :=
  .record [("source", .string e.source), ("target", .string e.target),
    ("kind", .orNull .text e.kind)]

namespace Graph

/-- A graph as a record of its two lists. -/
def toJson (g : Graph) : Value :=
  .record [("nodes", .array (g.nodes.map FileNode.toJson)),
    ("edges", .array (g.edges.map Edge.toJson))]

/-- A graph as JSON text in a layout. -/
def render (g : Graph) (layout : Json.Layout) : List Char := Json.render layout g.toJson

/-- A graph as JSON text, on one line or indented by a number of blanks. -/
def toText (g : Graph) (indent : Option Int) : List Char := g.render (.ofIndent indent)

/-- The ids of the nodes, in order. -/
def nodeIds (g : Graph) : List Path := g.nodes.map (·.id)

end Graph

end ImportAtlas
