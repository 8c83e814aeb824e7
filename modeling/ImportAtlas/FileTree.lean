/-
# ImportAtlas.FileTree -- files, directories and links

A tree is a list of entries, each at the place that its names give from the root. A path is followed
part by part. A link on the way is replaced by its target, at most forty times, which is what ends a
walk through links that lead in a circle.

No path of 4096 bytes or more and no name of more than 255 names anything, so that only finitely many
paths name a file (`finite_isFile`).

Whoever uses the tree may lack rights. Without the right to search a directory no path leads through it,
whatever stands there, and files can be found that cannot be read or written.
-/
import ImportAtlas.Path
import ImportAtlas.Text.Quoted

namespace ImportAtlas

/-- What stands at a place of the tree. -/
inductive Entry where
  | file (bytes : List UInt8)
  | directory
  | link (target : Path)
  deriving DecidableEq, Repr, Inhabited

/-- A place of the tree: the names that lead there from the root. -/
abbrev Place := List Path

/-- What can be done to an entry by whoever has the right to. -/
inductive Right where
  /-- To look up names in a directory. -/
  | search
  | read
  /-- To change what a file holds, or which names a directory has. -/
  | write
  deriving DecidableEq, Repr, Inhabited

/-- Why something cannot be done to a file or a directory. -/
inductive FileFault where
  | missing
  /-- A right is withheld. -/
  | denied
  | alreadyThere
  | notDirectory
  | isDirectory
  | nameTooLong
  | tooManyLinks
  /-- The character zero, which ends every name, stands in the path. -/
  | zeroByte
  deriving DecidableEq, Repr, Inhabited

namespace FileFault

/-- The number and the wording of a fault, if it is one that the system reports. -/
def wording? : FileFault → Option (Nat × String)
  | missing => some (2, "No such file or directory")
  | denied => some (13, "Permission denied")
  | alreadyThere => some (17, "File exists")
  | notDirectory => some (20, "Not a directory")
  | isDirectory => some (21, "Is a directory")
  | nameTooLong => some (36, "File name too long")
  | tooManyLinks => some (40, "Too many levels of symbolic links")
  | zeroByte => none

/-- The message of a fault about a path. A path with the character zero never gets to the system. -/
def message (fault : FileFault) (p : Path) : String :=
  match fault.wording? with
  | some (number, text) =>
    "[Errno " ++ toString number ++ "] " ++ text ++ ": " ++ Text.quoted (String.ofList p)
  | none => "embedded null byte"

/-- The kind of error that a fault is reported as. -/
def label : FileFault → String
  | missing => "FileNotFoundError"
  | denied => "PermissionError"
  | alreadyThere => "FileExistsError"
  | notDirectory => "NotADirectoryError"
  | isDirectory => "IsADirectoryError"
  | nameTooLong => "OSError"
  | tooManyLinks => "OSError"
  | zeroByte => "ValueError"

/-- Whether a fault keeps the question from being answered whether a path names a directory. All others
that can be met on the way mean that it does not. -/
def isPassedOn : FileFault → Bool
  | denied => true
  | nameTooLong => true
  | _ => false

end FileFault

/-- The entries of a tree, and the directory that relative paths start from. The root is a directory
without an entry of its own. A right may be withheld at a place whether or not something stands there
yet. -/
structure FileTree where
  home : Place
  entries : List (Place × Entry)
  withheld : List (Place × Right) := []
  deriving Repr, Inhabited

/-- Where a path leads. -/
inductive Arrival where
  /-- To an entry. -/
  | entry (place : Place) (e : Entry)
  /-- To a name that an existing directory does not have. -/
  | vacancy (dir : Place) (name : Path)
  /-- Nowhere. -/
  | blocked (fault : FileFault)
  deriving Repr, Inhabited

/-- The number of bytes that a path takes. -/
def Path.byteLength : Path → Nat
  | [] => 0
  | c :: cs => c.utf8Size + byteLength cs

namespace FileTree

/-- The longest name of an entry, in bytes. -/
def nameLimit : Nat := 255

/-- The length from which on a path is refused, in bytes. -/
def pathLimit : Nat := 4096

/-- The number of links that one path may lead through. -/
def linkLimit : Nat := 40

/-- The entry at a place. -/
def entryAt? (t : FileTree) (place : Place) : Option Entry :=
  if place = [] then some .directory
  else (t.entries.find? fun e => e.1 = place).map (·.2)

/-- Whether a right is not withheld at a place. -/
def grants (t : FileTree) (place : Place) (right : Right) : Bool := (place, right) ∉ t.withheld

/-- Follows the remaining parts of a path from a directory. A name is looked up before anything is done
with it, so that even a step to the directory itself takes the right to search. -/
def follow (t : FileTree) (links : Nat) (dir : Place) : List Path → Arrival
  | [] => .entry dir .directory
  | part :: rest =>
    if part = [] then follow t links dir rest
    else if t.grants dir .search = false then .blocked .denied
    else if part = Path.here then follow t links dir rest
    else if part = Path.up then follow t links dir.dropLast rest
    else if nameLimit < part.byteLength then .blocked .nameTooLong
    else
      match t.entryAt? (dir ++ [part]) with
      | none => if rest = [] then .vacancy dir part else .blocked .missing
      | some .directory => follow t links (dir ++ [part]) rest
      | some (.file bytes) =>
        if rest = [] then .entry (dir ++ [part]) (.file bytes) else .blocked .notDirectory
      | some (.link target) =>
        match links with
        | 0 => .blocked .tooManyLinks
        | left + 1 =>
          follow t left (if target.isAbsolute then [] else dir) (target.parts ++ rest)
termination_by todo => (links, todo.length)

/-- The directory that a path is read from. -/
def start (t : FileTree) (p : Path) : Place := if p.isAbsolute then [] else t.home

/-- Where a path leads. -/
def arrive (t : FileTree) (p : Path) : Arrival :=
  if p = [] then .blocked .missing
  else if '\x00' ∈ p then .blocked .zeroByte
  else if pathLimit ≤ p.byteLength then .blocked .nameTooLong
  else t.follow linkLimit (t.start p) p.parts

/-! ## Questions -/

/-- Whether a path names a file. -/
def isFile (t : FileTree) (p : Path) : Bool :=
  match t.arrive p with
  | .entry _ (.file _) => true
  | _ => false

/-- Whether a path names a directory. -/
def isDirectory (t : FileTree) (p : Path) : Bool :=
  match t.arrive p with
  | .entry _ .directory => true
  | _ => false

/-- Whether a path names a directory, if this can be told. -/
def checkDirectory (t : FileTree) (p : Path) : Except FileFault Bool :=
  match t.arrive p with
  | .blocked fault => if fault.isPassedOn then .error fault else .ok false
  | _ => .ok (t.isDirectory p)

/-- Whether a path names anything. -/
def isPresent (t : FileTree) (p : Path) : Bool :=
  match t.arrive p with
  | .entry _ _ => true
  | _ => false

/-- The bytes of a file. -/
def read (t : FileTree) (p : Path) : Except FileFault (List UInt8) :=
  match t.arrive p with
  | .entry place e =>
    if t.grants place .read = false then .error .denied
    else
      match e with
      | .file bytes => .ok bytes
      | _ => .error .isDirectory
  | .vacancy _ _ => .error .missing
  | .blocked fault => .error fault

/-- The path of the directory that relative paths start from. -/
def homePath (t : FileTree) : Path := '/' :: Path.unparts t.home

/-! ## Changes -/

/-- Puts an entry at a place. -/
def set (t : FileTree) (place : Place) (e : Entry) : FileTree :=
  { t with entries := t.entries.filter (fun x => x.1 ≠ place) ++ [(place, e)] }

/-- Writes a file, as a new one if there is none. A new file takes the right to change its directory. -/
def write (t : FileTree) (p : Path) (bytes : List UInt8) : Except FileFault FileTree :=
  match t.arrive p with
  | .entry place (.file _) =>
    if t.grants place .write then .ok (t.set place (.file bytes)) else .error .denied
  | .entry _ _ => .error .isDirectory
  | .vacancy dir name =>
    if t.grants dir .write then .ok (t.set (dir ++ [name]) (.file bytes)) else .error .denied
  | .blocked fault => .error fault

/-- The place that a path names, a link as its last part left as it is. -/
def locate (t : FileTree) (p : Path) : Except FileFault Place :=
  if '\x00' ∈ p then .error .zeroByte
  else if pathLimit ≤ p.byteLength then .error .nameTooLong
  else
    match (p.parts.filter fun part => part ≠ [] ∧ part ≠ Path.here).reverse with
    | [] => .ok (t.start p)
    | last :: before =>
      match t.follow linkLimit (t.start p) before.reverse with
      | .entry dir .directory =>
        if t.grants dir .search = false then .error .denied
        else if last = Path.up then .ok dir.dropLast
        else if nameLimit < Path.byteLength last then .error .nameTooLong
        else .ok (dir ++ [last])
      | .entry _ _ => .error .notDirectory
      | .vacancy _ _ => .error .missing
      | .blocked fault => .error fault

/-- Makes one directory. That something is there already is noticed before the rights are. -/
def makeDirectory (t : FileTree) (p : Path) : Except FileFault FileTree :=
  match t.locate p with
  | .error fault => .error fault
  | .ok place =>
    match t.entryAt? place with
    | some _ => .error .alreadyThere
    | none =>
      if t.grants place.dropLast .write then .ok (t.set place .directory) else .error .denied

/-- What remains of the fault of a directory that could not be made: none if there is one, and another
one if that cannot be told. -/
def remainingFault? (t : FileTree) (p : Path) (fault : FileFault) : Option (FileFault × Path) :=
  match t.checkDirectory p with
  | .ok true => none
  | .ok false => some (fault, p)
  | .error other => some (other, p)

/-- Makes a directory and those above it, given by the slashes in front and the parts in reverse. One
that is there already is fine. What was made before a fault stays. -/
def makeDirectories (t : FileTree) (slashes : Path) : List Path → FileTree × Option (FileFault × Path)
  | [] =>
    let p := if slashes = [] then Path.here else slashes
    match t.makeDirectory p with
    | .ok made => (made, none)
    | .error fault => (t, t.remainingFault? p fault)
  | part :: above =>
    let p := slashes ++ Path.unparts (part :: above).reverse
    match t.makeDirectory p with
    | .ok made => (made, none)
    | .error .missing =>
      match makeDirectories t slashes above with
      | (t, some fault) => (t, some fault)
      | (t, none) =>
        match t.makeDirectory p with
        | .ok made => (made, none)
        | .error fault => (t, t.remainingFault? p fault)
    | .error fault => (t, t.remainingFault? p fault)

/-- Puts a link at a path. -/
def link (t : FileTree) (p target : Path) : Except FileFault FileTree :=
  match t.locate p with
  | .error fault => .error fault
  | .ok place => .ok (t.set place (.link target))

/-- Takes away what a path names, and everything below it. -/
def remove (t : FileTree) (p : Path) : FileTree :=
  match t.locate p with
  | .error _ => t
  | .ok place => { t with entries := t.entries.filter fun x => !place.isPrefixOf x.1 }

end FileTree

end ImportAtlas
