/-
# ImportAtlas.Script.Reading -- from a file's text to its imports

A reader turns text into a tree. It may find that the text is no program, and it may break down; either
way the file has no imports, and a warning says so.
-/
import ImportAtlas.Log
import ImportAtlas.Path
import ImportAtlas.Script.Imports
import ImportAtlas.Script.Parse

namespace ImportAtlas.Script

/-- What reading a text gives. -/
inductive Reading where
  | tree (root : Node)
  /-- The text is no program. -/
  | malformed
  /-- The reader failed with an error of the given kind. -/
  | failed (kind : String)
  deriving Repr, Inhabited

/-- A reader for both flavors. -/
abbrev TreeReader := Flavor → List Char → Reading

/-- The flavor without markup, ready for reading. -/
def plainLanguage : Language := .ofGrammar (.ofFlavor .plain)

/-- The flavor with markup, ready for reading. -/
def markupLanguage : Language := .ofGrammar (.ofFlavor .markup)

/-- The language of a flavor. -/
def Flavor.language : Flavor → Language
  | plain => plainLanguage
  | markup => markupLanguage

/-- The reader by the grammar. -/
def readTree : TreeReader := fun flavor text =>
  match parse? flavor.language text with
  | some root => .tree root
  | none => .malformed

/-- The flavor of a file: only the extension `.ts` leaves markup out. -/
def Flavor.ofPath (p : Path) : Flavor :=
  if Path.extension p = ".ts".toList then .plain else .markup

namespace Reading

/-- The files that a text imports. -/
def imports : Reading → List (List Char)
  | tree root => root.fileImports
  | malformed => []
  | failed _ => []

/-- What there is to report about a reading. -/
def log (file : Path) : Reading → Log
  | tree _ => []
  | malformed => [.warning s!"Syntax error in {String.ofList file}, skipping its imports"]
  | failed kind => [.warning s!"Failed to parse {String.ofList file}: {kind}"]

end Reading

/-- Reads the text of a file. -/
def readFile (reader : TreeReader) (file : Path) (text : List Char) : Reading :=
  reader (.ofPath file) text

end ImportAtlas.Script
