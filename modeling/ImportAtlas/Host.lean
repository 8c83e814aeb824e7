/-
# ImportAtlas.Host -- what the outside answers

Everything that a build asks of its surroundings: which paths name files and directories, what a file
holds, and how scripts are read. Only finitely many paths name a file, which is what ends every build.

The question asked while an import is resolved (`probe`) is separate from the one asked about a file
that is about to be taken up (`isFile`): the first one may break down.
-/
import ImportAtlas.FileTree.Finite
import ImportAtlas.Probe
import ImportAtlas.Script.Reading
import ImportAtlas.Text.Lines
import ImportAtlas.Text.Utf8

namespace ImportAtlas

/-- Why the text of a file cannot be had. -/
inductive ReadFault where
  | file (fault : FileFault)
  /-- The bytes are no text. -/
  | notText
  deriving DecidableEq, Repr, Inhabited

/-- The kind of error that a fault is reported as. -/
def ReadFault.label : ReadFault → String
  | file fault => fault.label
  | notText => "UnicodeDecodeError"

/-- The surroundings of a build. -/
structure Host where
  /-- The directory that relative paths start from. -/
  home : Path
  isFile : Path → Bool
  isDirectory : Path → Bool
  isPresent : Path → Bool
  read : Path → Except ReadFault (List Char)
  probe : Probe
  readTree : Script.TreeReader
  finite_isFile : FinitelyMany isFile

namespace Host

/-- An absolute path in normal form. -/
def absolute (h : Host) (p : Path) : Path := Path.absolute h.home p

/-- The directory of a file. -/
def directoryOf (h : Host) (file : Path) : Path := Path.parent (h.absolute file)

/-- The text of a file in a tree; line breaks are all read as line feeds. -/
def readText (t : FileTree) (p : Path) : Except ReadFault (List Char) :=
  match t.read p with
  | .error fault => .error (.file fault)
  | .ok bytes =>
    match Text.Utf8.decode? bytes with
    | none => .error .notText
    | some text => .ok (Text.unifyBreaks text)

/-- A file tree as the surroundings of a build, with some reader of scripts. -/
def ofTree (reader : Script.TreeReader) (t : FileTree) : Host where
  home := t.homePath
  isFile := t.isFile
  isDirectory := t.isDirectory
  isPresent := t.isPresent
  read := readText t
  probe p := some (t.isFile p)
  readTree := reader
  finite_isFile := t.finite_isFile

/-- The same surroundings with another answer while imports are resolved. -/
def withProbe (h : Host) (probe : Probe) : Host := { h with probe }

end Host

end ImportAtlas
