/-
# ImportAtlas.Script.Imports -- the files a syntax tree asks for

Two constructs name a file: an import statement with a text as its source, and a dynamic import whose
only argument is a text. The text is taken as it is written between its quotes, and it counts if it
starts with a dot or a slash; anything else names a package.

The walk keeps a list of nodes still to visit. A node's children go in front of it, so specifiers come
out in document order and an outer dynamic import comes before those in its arguments.
-/
import ImportAtlas.Script.Node

namespace ImportAtlas.Script

/-- Whether a specifier names a file by its place, relative or absolute. -/
def isFileSpecifier (specifier : List Char) : Bool :=
  match specifier with
  | c :: _ => c = '.' || c = '/'
  | [] => false

namespace Node

/-- The characters between the quotes, if the node is a quoted text. -/
def quoted? (n : Node) : Option (List Char) :=
  if n.kind = .string then some (n.text.drop 1).dropLast else none

/-- The children of an argument list that are arguments. -/
def argumentNodes (n : Node) : List Node :=
  n.children.filter fun c => c.named && c.kind ≠ .comment

/-- The text a dynamic import is applied to, if it is applied to that alone. -/
def dynamicSpecifier? (n : Node) : Option (List Char) :=
  match n.child? .function, n.child? .arguments with
  | some f, some args =>
    if f.kind = .importKeyword then
      match args.argumentNodes with
      | [a] => a.quoted?
      | _ => none
    else none
  | _, _ => none

/-- The specifier that a node itself brings in, whatever stands below it. -/
def specifier? (n : Node) : Option (List Char) :=
  match n.kind with
  | .importStatement => (n.child? .source).bind quoted?
  | .call => n.dynamicSpecifier?
  | _ => none

/-- The specifier of a node as a list, empty if it names no file. -/
def ownImports (n : Node) : List (List Char) := n.specifier?.toList.filter isFileSpecifier

end Node

theorem sizeOf_append_nodes (xs ys : List Node) :
    sizeOf (xs ++ ys) + 1 = sizeOf xs + sizeOf ys := by
  induction xs with
  | nil => simp; omega
  | cons x xs ih => simp only [List.cons_append, List.cons.sizeOf_spec]; omega

/-- Goes through pending nodes, adding what they bring in to what was found before. The finds are kept
newest first. -/
def collectImports (found : List (List Char)) : List Node → List (List Char)
  | [] => found.reverse
  | n :: pending => collectImports (n.ownImports.reverse ++ found) (n.children ++ pending)
termination_by pending => sizeOf pending
decreasing_by
  have := sizeOf_append_nodes n.children pending
  have := n.sizeOf_children
  simp only [List.cons.sizeOf_spec]
  omega

/-- The imports of a tree, in document order. -/
def Node.fileImports (root : Node) : List (List Char) := collectImports [] [root]

end ImportAtlas.Script
