/-
# ImportAtlas.Crate.Root -- where the modules of a crate begin

The manifest nearest above a file marks its crate. Modules begin in the source directory beside the
manifest, or next to the manifest if there is none. Without a manifest the source directory of the
workspace is used, if there is one.

The answer for a directory is remembered, also if there is none.
-/
import ImportAtlas.Host

namespace ImportAtlas

theorem Path.parent_isPrefix (p : Path) : p.parent <+: p := by
  have h : (p.reverse.dropWhile (· ≠ '/')).reverse <+: p := by
    simpa using (List.dropWhile_suffix (l := p.reverse) (· ≠ '/')).reverse
  rw [Path.parent]
  split
  · exact h
  · refine List.IsPrefix.trans ?_ h
    simpa using (List.dropWhile_suffix
      (l := ((p.reverse.dropWhile (· ≠ '/')).reverse).reverse) (· = '/')).reverse

theorem Path.length_parent_lt {p : Path} (h : p.parent ≠ p) : p.parent.length < p.length := by
  refine Nat.lt_of_le_of_ne p.parent_isPrefix.length_le fun e => h ?_
  exact p.parent_isPrefix.eq_of_length e

/-- A directory and those above it, the root apart. -/
def Path.ancestors (dir : Path) : List Path :=
  if dir.parent = dir then [] else dir :: ancestors dir.parent
termination_by dir.length
decreasing_by exact Path.length_parent_lt ‹_›

namespace Crate

/-- The name of a manifest. -/
def manifest : Path := "Cargo.toml".toList

/-- The name of a source directory. -/
def sourceDirectory : Path := "src".toList

/-- The answers remembered so far, by directory. -/
abbrev Roots := List (Path × Option Path)

/-- The remembered answer for a directory. -/
def Roots.get? (roots : Roots) (dir : Path) : Option (Option Path) :=
  (roots.find? fun r => r.1 = dir).map (·.2)

/-- Where the modules of a crate begin, given the directory of its manifest. -/
def rootBeside (h : Host) (dir : Path) : Path :=
  let source := Path.join dir sourceDirectory
  if h.isDirectory source then source else dir

/-- Where modules begin without a manifest. -/
def fallback? (h : Host) (workspace : Path) : Option Path :=
  let source := Path.join workspace sourceDirectory
  if h.isDirectory source then some source else none

/-- The nearest directory with a manifest. -/
def manifestDirectory? (h : Host) (dir : Path) : Option Path :=
  (Path.ancestors dir).find? fun d => h.isPresent (Path.join d manifest)

/-- Where the modules of a file's crate begin, and what is to be reported about it. -/
def searchRoot (h : Host) (workspace file : Path) : Option Path × Log :=
  match manifestDirectory? h (h.directoryOf file) with
  | some dir => (some (rootBeside h dir), [])
  | none =>
    match fallback? h workspace with
    | none => (none, [])
    | some source =>
      (some source, [.debug ("No " ++ String.ofList manifest ++ " above " ++ String.ofList file ++
        ", using " ++ String.ofList source)])

/-- The same, with the answers remembered so far. -/
def findRoot (h : Host) (workspace : Path) (roots : Roots) (file : Path) :
    Option Path × Roots × Log :=
  let dir := h.directoryOf file
  match roots.get? dir with
  | some root => (root, roots, [])
  | none =>
    let (root, log) := searchRoot h workspace file
    (root, roots ++ [(dir, root)], log)

end Crate

end ImportAtlas
