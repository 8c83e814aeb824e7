/-
# ImportAtlas.Path -- paths as texts

A path is the list of its characters; slashes divide its parts. Everything here is about the text
alone and never looks at a file. Two leading slashes are kept apart from one, and three or more count
as one.
-/

namespace ImportAtlas

/-- A path, or a part of one. -/
abbrev Path := List Char

instance : LawfulBEq Path := inferInstanceAs (LawfulBEq (List Char))

namespace Path

/-- The part that stands for the directory itself. -/
def here : Path := ['.']

/-- The part that stands for the directory above. -/
def up : Path := ['.', '.']

/-! ## Parts -/

/-- The parts between the slashes, empty ones included. -/
def parts : Path → List Path
  | [] => [[]]
  | c :: cs =>
    if c = '/' then [] :: parts cs
    else
      match parts cs with
      | [] => [[c]]
      | p :: ps => (c :: p) :: ps

/-- Parts with a slash between two. -/
def unparts : List Path → Path
  | [] => []
  | [p] => p
  | p :: q :: ps => p ++ '/' :: unparts (q :: ps)

/-- Whether a path starts at the root. -/
def isAbsolute (p : Path) : Bool := p.head? = some '/'

/-- The number of slashes that a path keeps in front. -/
def rootSlashes : Path → Nat
  | '/' :: '/' :: '/' :: _ => 1
  | '/' :: '/' :: _ => 2
  | '/' :: _ => 1
  | _ => 0

/-- The last part. -/
def name (p : Path) : Path := (p.reverse.takeWhile (· ≠ '/')).reverse

/-- All but the last part: without slashes at its end, unless it is made of slashes only. -/
def parent (p : Path) : Path :=
  let head := (p.reverse.dropWhile (· ≠ '/')).reverse
  if head.all (· = '/') then head else (head.reverse.dropWhile (· = '/')).reverse

/-- A path before its extension, and the extension with its dot. The last dot opens the extension if it
stands in the last part and anything but dots stands before it there. -/
def splitExtension (p : Path) : Path × Path :=
  let tail := (p.reverse.takeWhile (· ≠ '.')).reverse
  match p.reverse.dropWhile (· ≠ '.') with
  | [] => (p, [])
  | _ :: front =>
    if !tail.contains '/' && (front.takeWhile (· ≠ '/')).any (· ≠ '.') then
      (front.reverse, '.' :: tail)
    else (p, [])

/-- The extension of a path, with its dot; empty if there is none. -/
def extension (p : Path) : Path := (splitExtension p).2

/-- The last part without its extension. -/
def stem (p : Path) : Path := (splitExtension p.name).1

/-! ## Joining and normal forms -/

/-- A path read from a directory: an absolute one stands for itself. -/
def join (dir p : Path) : Path :=
  if p.isAbsolute then p
  else if dir = [] ∨ dir.getLast? = some '/' then dir ++ p
  else dir ++ '/' :: p

/-- Takes one more part into a reduced list of parts, the last of which comes first. Above the root of
an absolute path there is nothing. -/
def pushPart (absolute : Bool) (stack : List Path) (part : Path) : List Path :=
  if part = [] ∨ part = here then stack
  else if part ≠ up then part :: stack
  else
    match stack with
    | [] => if absolute then [] else [up]
    | top :: rest => if top = up then up :: stack else rest

/-- Parts without empty ones, without the directory itself, and with each step up taken back as far as
possible. -/
def reduce (absolute : Bool) (ps : List Path) : List Path :=
  (ps.foldl (pushPart absolute) []).reverse

/-- The normal form of a path: no part of it can be left out. -/
def normalize (p : Path) : Path :=
  let slashes := p.rootSlashes
  let text := List.replicate slashes '/' ++ unparts (reduce (slashes ≠ 0) p.parts)
  if text = [] then here else text

/-- The normal form of a path that is read from the directory `home`. -/
def absolute (home p : Path) : Path := normalize (if p.isAbsolute then p else join home p)

/-! ## Relative paths -/

/-- The parts of a path that are not empty. -/
def steps (p : Path) : List Path := p.parts.filter (· ≠ [])

/-- What is left of two lists behind their common beginning. -/
def dropCommon : List Path → List Path → List Path × List Path
  | a :: as, b :: bs => if a = b then dropCommon as bs else (a :: as, b :: bs)
  | as, bs => (as, bs)

/-- The way from a directory to a path, both absolute: up to where they part, then down. -/
def route (dir p : Path) : Path :=
  let (away, toward) := dropCommon dir.steps p.steps
  match List.replicate away.length up ++ toward with
  | [] => here
  | ps => unparts ps

end Path

end ImportAtlas
