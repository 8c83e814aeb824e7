/-
# ImportAtlas.Crate.Imports -- modules that a Rust file refers to

A reference opens a line: after blanks and an optional visibility stands either `mod`, a name and a
semicolon, or `use` with a path below `crate`, `super` or `self`. Blanks may hold line breaks. Comments
and literals are not told apart from code.

Of a `use` only the first segment of the path names a file. Declarations come first, then uses below
`crate`, then `super`, then `self`, each in document order.
-/
import ImportAtlas.Path
import ImportAtlas.Text.Quoted
import ImportAtlas.Text.Scan
import ImportAtlas.Text.Word

namespace ImportAtlas.Crate

open Text

/-- How a module is referred to. -/
inductive Anchor where
  | mod
  | crate
  | super
  | self
  deriving DecidableEq, Repr, Inhabited

namespace Anchor

/-- The word for a way of reference. -/
def label : Anchor → String
  | mod => "mod"
  | crate => "crate"
  | super => "super"
  | self => "self"

/-- The way of reference with a word. -/
def ofLabel? (name : String) : Option Anchor :=
  [mod, crate, super, self].find? fun a => a.label = name

/-- What is said about a word that stands for no way of reference. -/
def unknownText (name : String) : String := Text.quoted name ++ " is not a valid RustImportKind"

end Anchor

/-- A reference to a module. -/
structure Import where
  name : Path
  anchor : Anchor
  /-- The whole path behind the anchor, for a `use`. -/
  fullPath : Option Path := none
  deriving DecidableEq, Repr, Inhabited

/-! ## Patterns -/

/-- What follows a parenthesis and everything up to the one that closes it. -/
def skipParenthesis? : List Char → Option (List Char)
  | '(' :: cs =>
    match cs.dropWhile (· ≠ ')') with
    | _ :: rest => some rest
    | [] => none
  | _ => none

/-- What follows an optional visibility and its blanks. -/
def skipVisibility? (cs : List Char) : Option (List Char) :=
  match after? "pub".toList cs with
  | none => some cs
  | some rest =>
    match skipParenthesis? (skipBlanks rest) with
    | some rest => skipBlanks1? rest
    | none => skipBlanks1? rest

/-- What follows the blanks, the visibility and a keyword with its blanks. -/
def skipHead? (keyword : String) (cs : List Char) : Option (List Char) := do
  skipBlanks1? (← after? keyword.toList (← skipVisibility? (skipBlanks cs)))

/-- A declared module. -/
def modPattern : Pattern Path := fun cs => do
  let (name, rest) ← run1? isWordChar (← skipHead? "mod" cs)
  let rest ← after? [';'] (skipBlanks rest)
  return (name, cs.length - rest.length)

/-- The path of a use below an anchor. -/
def usePattern (anchor : Anchor) : Pattern Path := fun cs => do
  let rest ← after? (anchor.label ++ "::").toList (← skipHead? "use" cs)
  let (path, rest) ← run1? (fun c => isWordChar c || c = ':') rest
  return (path, cs.length - rest.length)

/-! ## References -/

/-- The part of a module path before the first pair of colons. -/
def firstSegment : Path → Path
  | [] => []
  | ':' :: ':' :: _ => []
  | c :: cs => c :: firstSegment cs

/-- The reference that a use makes; none if its first segment is empty. -/
def useImport? (anchor : Anchor) (path : Path) : Option Import :=
  match firstSegment path with
  | [] => none
  | name => some { name, anchor, fullPath := some path }

/-- The declared modules of a text. -/
def modImports (text : List Char) : List Import :=
  (matchesAtLineStart modPattern text).map fun name => { name, anchor := .mod }

/-- The uses of a text below an anchor. -/
def useImports (anchor : Anchor) (text : List Char) : List Import :=
  (matchesAtLineStart (usePattern anchor) text).filterMap (useImport? anchor)

/-- The modules that a text refers to. -/
def imports (text : List Char) : List Import :=
  modImports text ++ useImports .crate text ++ useImports .super text ++ useImports .self text

end ImportAtlas.Crate
