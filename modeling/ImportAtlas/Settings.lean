/-
# ImportAtlas.Settings -- settings from the environment

Variables come from the process and from a local file of assignments, which never overrides a variable
of the process. How such a file is read is a parameter.
-/
import ImportAtlas.FileTree
import ImportAtlas.Text.Blank

namespace ImportAtlas

/-- Variables and their values. -/
abbrev Variables := List (String × String)

/-- The value of a variable. -/
def Variables.get? (vars : Variables) (name : String) : Option String :=
  (vars.find? fun v => v.1 = name).map (·.2)

/-- What can be set from outside. -/
structure Settings where
  logLevel : String := "INFO"
  showProgress : Bool := false
  /-- Where graphs are written to; empty for nowhere. -/
  outputPath : String := ""
  deriving DecidableEq, Repr, Inhabited

namespace Settings

/-- The texts that switch something on. -/
def onWords : List String := ["1", "true", "yes", "on"]

/-- Whether a value switches something on; case and blanks around it do not matter. -/
def isOn (value : String) : Bool :=
  onWords.contains (String.ofList ((Text.trim value.toList).map Char.toLower))

/-- A switch by its value, or by default if it has none. -/
def flag (value : Option String) (default : Bool) : Bool :=
  match value with
  | some v => isOn v
  | none => default

/-- The settings that variables give. -/
def ofVariables (vars : Variables) : Settings where
  logLevel := (vars.get? "CODE_GRAPH_LOG_LEVEL").getD "INFO"
  showProgress := flag (vars.get? "CODE_GRAPH_SHOW_PROGRESS") false
  outputPath := (vars.get? "CODE_GRAPH_OUTPUT_PATH").getD ""

/-! ## The local file -/

/-- The name of the file of assignments. -/
def localFile : Path := ".env.local".toList

/-- Reads the assignments of a file, which may refer to the variables of the process. -/
abbrev AssignmentReader := Variables → List UInt8 → Variables

/-- The settings of a process that starts with some variables in a file tree. It does not start if there
is no telling whether it has a local file, or if it may not read that. -/
def load (reader : AssignmentReader) (tree : FileTree) (vars : Variables) : Except FileFault Settings :=
  if tree.isFile localFile then
    (tree.read localFile).map fun bytes => ofVariables (vars ++ reader vars bytes)
  else (tree.checkDirectory localFile).map fun _ => ofVariables vars

end Settings

end ImportAtlas
