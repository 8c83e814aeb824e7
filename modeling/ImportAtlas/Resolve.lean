/-
# ImportAtlas.Resolve -- from the imports of a file to the files they mean

Each import of a file is looked up among a short list of candidate paths; the first that is a file is
what it means. An import without one is reported and left out. If a question about a candidate breaks
down, the file has no resolved imports at all, whatever was found before.
-/
import ImportAtlas.Crate.Imports
import ImportAtlas.Crate.Root
import ImportAtlas.Dialect
import ImportAtlas.Document.Imports

namespace ImportAtlas

/-- An import as it stands in a file. -/
inductive Reference where
  | script (specifier : Path)
  | crate (i : Crate.Import)
  | document (name : Path)
  deriving DecidableEq, Repr, Inhabited

namespace Reference

/-- How a reference is called in reports. -/
def describe : Reference → String
  | script specifier => String.ofList specifier
  | crate i => i.anchor.label ++ "::" ++ String.ofList i.name
  | document name => String.ofList name

/-- The references of a text, and what is to be reported about reading it. -/
def extract (h : Host) (dialect : Dialect) (file : Path) (text : List Char) :
    List Reference × Log :=
  match dialect with
  | .script =>
    let reading := Script.readFile h.readTree file text
    (reading.imports.map script, reading.log file)
  | .rust => ((Crate.imports text).map crate, [])
  | .graphql => ((Document.imports text).map document, [])

end Reference

/-! ## Candidates -/

/-- The name of the file that stands for its directory. -/
def indexName : Path := "index".toList

/-- The paths that a specifier may mean, by the path it gives: that path, that path with an extension,
or the index file of the directory there. -/
def scriptCandidates (p : Path) : List Path :=
  p :: Path.withEndings p Dialect.scriptExtensions ++
    Path.withEndings (Path.join p indexName) Dialect.scriptExtensions

/-- The paths that a fragment or an import comment may mean. -/
def documentCandidates (p : Path) : List Path :=
  Path.withEndings p [[], Dialect.graphqlExtension]

/-- The stem of a file that stands for its directory as a module. -/
def modStem : Path := "mod".toList

/-- The directory of the modules inside a file. -/
def submoduleDirectory (h : Host) (file : Path) : Path :=
  if Path.stem file = modStem then h.directoryOf file
  else Path.join (h.directoryOf file) (Path.stem file)

/-- The path that a text means when it is read from the directory of a file. -/
def pathFrom (h : Host) (file text : Path) : Path :=
  h.absolute (Path.join (h.directoryOf file) text)

/-- The candidates for a reference, given where the modules of the crate begin. -/
def Reference.candidates (h : Host) (root : Option Path) (file : Path) : Reference → List Path
  | script specifier => scriptCandidates (pathFrom h file specifier)
  | document name => documentCandidates (pathFrom h file name)
  | crate i =>
    match i.anchor with
    | .mod => Path.moduleFiles (h.directoryOf file) i.name
    | .crate =>
      match root with
      | some dir => Path.moduleFiles dir i.name
      | none => []
    | .super => Path.moduleFiles (Path.parent (h.directoryOf file)) i.name
    | .self => Path.moduleFiles (submoduleDirectory h file) i.name

/-- Looks for the file that a specifier means, by the path it gives: for the path itself, then for the
path with an extension, and then for an index file in the directory there. -/
def searchScript (probe : Probe) (p : Path) : Search :=
  probe.search [p] <|> probe.search (Path.withEndings p Dialect.scriptExtensions) <|>
    probe.search (Path.withEndings (Path.join p indexName) Dialect.scriptExtensions)

/-- Looks for the file that a reference means, given where the modules of the crate begin. -/
def Reference.search (h : Host) (root : Option Path) (file : Path) : Reference → Search
  | script specifier => searchScript h.probe (pathFrom h file specifier)
  | ref => h.probe.search (ref.candidates h root file)

/-- Whether a reference needs to know where the modules of the crate begin. -/
def Reference.needsRoot : Reference → Bool
  | crate i => i.anchor = .crate
  | _ => false

/-! ## Resolution -/

/-- The search for what one reference means, with the crate roots known afterwards. -/
structure Resolved extends Search where
  roots : Crate.Roots
  log : Log
  deriving Repr, Inhabited

/-- Resolves one reference of a file. -/
def Reference.resolve (h : Host) (workspace : Path) (roots : Crate.Roots) (file : Path)
    (ref : Reference) : Resolved :=
  let (root, roots, log) :=
    if ref.needsRoot then Crate.findRoot h workspace roots file else (none, roots, [])
  { ref.search h root file with roots, log }

/-- The files that a file's imports mean, none if a question broke down. -/
structure Resolution where
  targets : Option (List Path)
  roots : Crate.Roots
  log : Log
  deriving Repr, Inhabited

/-- What is reported about one resolved reference. -/
def Reference.report (file : Path) (ref : Reference) : Option Path → Record
  | some target => .debug ("  " ++ ref.describe ++ " -> " ++ String.ofList target)
  | none => .info ("Failed to resolve import " ++ ref.describe ++ " in " ++ String.ofList file)

/-- Resolves references one after the other. -/
def resolveEach (h : Host) (workspace file : Path) : Crate.Roots → List Reference → Resolution
  | roots, [] => ⟨some [], roots, []⟩
  | roots, ref :: refs =>
    let one := ref.resolve h workspace roots file
    match one.outcome with
    | none => ⟨none, one.roots, one.log⟩
    | some found =>
      let later := resolveEach h workspace file one.roots refs
      ⟨later.targets.map (found.toList ++ ·), later.roots,
        one.log ++ ref.report file found :: later.log⟩

/-- The files that a text imports, in the order of its imports. -/
def resolveAll (h : Host) (workspace : Path) (roots : Crate.Roots) (dialect : Dialect) (file : Path)
    (text : List Char) : Resolution :=
  let (refs, readLog) := Reference.extract h dialect file text
  let counted := Record.debug (dialect.language ++ " analyzer found " ++ toString refs.length ++
    " imports in " ++ String.ofList file)
  let result := resolveEach h workspace file roots refs
  { result with log := readLog ++ counted :: result.log }

end ImportAtlas
