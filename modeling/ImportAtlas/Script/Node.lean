/-
# ImportAtlas.Script.Node -- syntax trees of a script

A parser hands out a finite ordered tree. Of a node only its kind, the role it plays for its parent,
whether the grammar names it, its text and its children are ever read.
-/

namespace ImportAtlas.Script

/-- What a node stands for. Every construct without a bearing on imports is an `other`. -/
inductive Kind where
  | importStatement
  | call
  | importKeyword
  | arguments
  | string
  | comment
  | other
  deriving DecidableEq, Repr, Inhabited

/-- The role of a node below its parent. -/
inductive Role where
  | source
  | function
  | arguments
  deriving DecidableEq, Repr, Inhabited, Hashable

/-- A node of the tree: its kind, its role, whether it is named, its text if it is a leaf, its children
in order.

The text stands for a range of the bytes of the program: it is what the bytes between the two ends of the
node encode. A token begins and ends between two characters, so these bytes encode a text of their own,
which is a part of the program. -/
inductive Node where
  | mk (kind : Kind) (role : Option Role) (named : Bool) (text : List Char) (children : List Node)
  deriving Repr, Inhabited

namespace Node

/-- The kind of a node. -/
def kind : Node → Kind
  | mk k _ _ _ _ => k

/-- The role a node plays for its parent. -/
def role : Node → Option Role
  | mk _ r _ _ _ => r

/-- Whether the grammar names the node, as opposed to punctuation. -/
def named : Node → Bool
  | mk _ _ n _ _ => n

/-- The text of a leaf; a node with children leaves it to them. -/
def text : Node → List Char
  | mk _ _ _ t _ => t

/-- The children of a node, in document order. -/
def children : Node → List Node
  | mk _ _ _ _ cs => cs

/-- The first child with a given role. -/
def child? (n : Node) (r : Role) : Option Node :=
  n.children.find? fun c => c.role = some r

theorem sizeOf_children (n : Node) : sizeOf n.children < sizeOf n := by
  cases n
  simp only [children, mk.sizeOf_spec]
  omega

end Node

end ImportAtlas.Script
