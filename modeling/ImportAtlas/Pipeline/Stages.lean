/-
# ImportAtlas.Pipeline.Stages -- changed files, graph, export

The first stage asks version control which files changed, the second builds the graph that they lead
to, and the third writes it to a file, if it is told to which.
-/
import ImportAtlas.Pipeline.Basic

namespace ImportAtlas

open Json (Value)

/-- What the stages work on: files, version control, and a reader of scripts, which stays the same. -/
structure World where
  tree : FileTree
  launcher : Git.Launcher
  reader : Script.TreeReader
  deriving Inhabited

/-- The surroundings of a build in a world. -/
def World.host (world : World) : Host := .ofTree world.reader world.tree

namespace Path

/-- The parts of a path that name something. -/
def properParts (p : Path) : List Path := p.parts.filter fun part => part ≠ [] ∧ part ≠ here

/-- The slashes that a path keeps in front. -/
def rootText (p : Path) : Path := List.replicate p.rootSlashes '/'

/-- A path without doubled slashes, without a slash at its end and without parts that stand for the
directory itself. Steps up are kept. -/
def tidy (p : Path) : Path :=
  match p.rootText ++ unparts p.properParts with
  | [] => here
  | text => text

end Path

namespace Pipeline

/-! ## Input -/

/-- A field that a stage cannot do without. -/
def need (input : Datum) (name : String) : Except Fault Item :=
  match input with
  | .value v => .error (.misuse (.notRecord v))
  | .record _ =>
    match input.get? name with
    | some item => .ok item
    | none => .error (.missingField name)

/-! ## Changed files -/

/-- The changed files of a commit, or of the working tree if no commit is given. -/
def askChanges (l : Git.Launcher) (workspace commit : Value) :
    Except Git.Fault (List ChangedFile) × Git.Launcher :=
  if commit.isVoid then Git.changedFiles l workspace else Git.filesOfCommit l workspace commit

/-- Asks which files changed. -/
def Stage.changedFiles (options : Options) : Stage World where
  name := "Changed Files"
  options := options
  execute input world :=
    let commit := options.get "commit_ref"
    match need input "workspace_root" with
    | .error fault => (.error fault, world)
    | .ok item =>
      match askChanges world.launcher item.toJson commit with
      | (.error fault, launcher) => (.error (.git fault), { world with launcher })
      | (.ok files, launcher) =>
        (.ok
          { success := true
            data := (input.set "changed_files" (.changes files)).set "seed_paths"
              (.value (.array (files.map fun f => .string f.path)))
            metadata := [("stage", .text "Changed Files"), ("num_changed", .count files.length),
              ("commit_ref", commit)] },
          { world with launcher })

/-! ## Graph -/

/-- Builds the graph of what the seeds lead to. That the workspace is no directory is noticed before
the seeds are looked at. -/
def graphOf (h : Host) (seeds workspace : Value) : Except Fault Graph :=
  match workspace.asPath with
  | .error m => .error (.misuse m)
  | .ok root =>
    match seeds.asPaths with
    | .ok paths => (buildGraph h paths root).mapError .build
    | .error m =>
      -- Without seeds a build fails only because of its workspace.
      match buildGraph h [] root with
      | .error fault => .error (.build fault)
      | .ok _ => .error (.misuse m)

/-- Builds the graph of what the seeds in the input lead to. -/
def Stage.dependencyGraph (options : Options) : Stage World where
  name := "Dependency Graph"
  options := options
  execute input world :=
    match need input "workspace_root" with
    | .error fault => (.error fault, world)
    | .ok item =>
      let seeds := ((input.get? "seed_paths").map Item.toJson).getD (.array [])
      match graphOf world.host seeds item.toJson with
      | .error fault => (.error fault, world)
      | .ok graph =>
        (.ok
          { success := true
            data := input.set "graph" (.graph graph)
            metadata := [("stage", .text "Dependency Graph"), ("num_nodes", .count graph.nodes.length),
              ("num_edges", .count graph.edges.length)] },
          world)

/-! ## Export -/

/-- The indent of a graph that is written to a file, if no other is given. -/
def exportIndent : Value := .number 2

/-- The graph of a field as text. -/
def Item.graphText (indent : Value) : Item → Except Misuse (List Char)
  | .graph g => (Json.Layout.ofValue indent).map g.render
  | item => .error (.notGraph item.toJson)

/-- Makes the directories that a file is to stand in. -/
def makeParents (tree : FileTree) (output : Path) : FileTree × Option (FileFault × Path) :=
  tree.makeDirectories (Path.rootText output) (Path.properParts output).dropLast.reverse

/-- Writes the graph of a field to a file, in directories that are made if need be. -/
def exportGraph (tree : FileTree) (output : Path) (indent : Value) (item : Item) :
    FileTree × Option Fault :=
  match makeParents tree output with
  | (tree, some (fault, p)) => (tree, some (.file fault p))
  | (tree, none) =>
    match item.graphText indent with
    | .error m => (tree, some (.misuse m))
    | .ok text =>
      match tree.write (Path.tidy output) (Text.Utf8.encode (String.ofList text)) with
      | .ok tree => (tree, none)
      | .error fault => (tree, some (.file fault (Path.tidy output)))

/-- Whether a file can be written to an output path, as far as can be told beforehand: it names no
directory. -/
def checkOutput (tree : FileTree) (output : Value) : Except Fault Bool :=
  if output.isVoid then .ok true
  else
    match output.asPath with
    | .error m => .error (.misuse m)
    | .ok p =>
      match tree.checkDirectory (Path.tidy p) with
      | .ok isDirectory => .ok !isDirectory
      | .error fault => .error (.file fault (Path.tidy p))

/-- Writes the graph to a file, or does nothing if no output path is given. -/
def Stage.graphExport (options : Options) : Stage World where
  name := "Graph Export"
  options := options
  isValid world := checkOutput world.tree (options.get "output_path")
  execute input world :=
    let output := options.get "output_path"
    match need input "graph" with
    | .error fault => (.error fault, world)
    | .ok item =>
      if output.isVoid then
        (.ok
          { success := true
            data := input
            metadata := [("stage", .text "Graph Export"), ("written", .bool false)] },
          world)
      else
        match output.asPath with
        | .error m => (.error (.misuse m), world)
        | .ok p =>
          match exportGraph world.tree p ((options.get? "indent").getD exportIndent) item with
          | (tree, some fault) => (.error fault, { world with tree })
          | (tree, none) =>
            (.ok
              { success := true
                data := input.set "output_path" (.value (.string (Path.tidy p)))
                metadata := [("stage", .text "Graph Export"), ("written", .bool true)] },
              { world with tree })

end Pipeline

end ImportAtlas
