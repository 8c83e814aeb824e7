/-
# ImportAtlas.Dialect -- which files can take part in a graph

A file is supported by its extension alone. The extension starts at the last dot of the name, if
anything but dots stands before it; upper and lower case differ.
-/
import ImportAtlas.Path
import ImportAtlas.Text.Quoted

namespace ImportAtlas

/-- The ways in which a file can name its imports. -/
inductive Dialect where
  | script
  | rust
  | graphql
  deriving DecidableEq, Repr, Inhabited

namespace Dialect

/-- Extensions of scripts, in the order in which they are tried on a specifier without one. -/
def scriptExtensions : List Path :=
  [".ts".toList, ".tsx".toList, ".js".toList, ".jsx".toList, ".mjs".toList, ".cjs".toList]

/-- The extension of Rust files. -/
def rustExtension : Path := ".rs".toList

/-- The extension of GraphQL files. -/
def graphqlExtension : Path := ".graphql".toList

/-- All extensions of supported files. -/
def extensions : List Path := scriptExtensions ++ [rustExtension, graphqlExtension]

/-- The dialect of an extension. -/
def ofExtension? (ext : Path) : Option Dialect :=
  if ext ∈ scriptExtensions then some script
  else if ext = rustExtension then some rust
  else if ext = graphqlExtension then some graphql
  else none

/-- The dialect of a file. -/
def ofPath? (p : Path) : Option Dialect := ofExtension? p.extension

/-- The name of a dialect in messages and answers. -/
def label : Dialect → String
  | script => "js_like"
  | rust => "rust"
  | graphql => "graphql"

/-- The dialect with a name. -/
def ofLabel? (name : String) : Option Dialect :=
  [script, rust, graphql].find? fun d => d.label = name

/-- What is said about a name that no dialect has. -/
def unknownText (name : String) : String := Text.quoted name ++ " is not a valid Dialect"

/-- The language that a dialect belongs to. -/
def language : Dialect → String
  | script => "javascript"
  | rust => "rust"
  | graphql => "graphql"

end Dialect

end ImportAtlas
