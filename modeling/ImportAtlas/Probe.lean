/-
# ImportAtlas.Probe -- the first candidate that is a file

Candidates are asked about one after the other until one is a file. The question itself may break down,
which ends the search. A search that finds nothing may be followed by another one.
-/
import ImportAtlas.Path

namespace ImportAtlas

/-- How the question whether a path names a file is answered; none if it cannot be. -/
abbrev Probe := Path → Option Bool

/-- A search among candidates: the paths asked about, in order, and the outcome, which is none if a
question broke down. -/
structure Search where
  asked : List Path
  outcome : Option (Option Path)
  deriving DecidableEq, Repr, Inhabited

namespace Search

/-- Whether a search ends without a path to go by; the empty path counts as none. -/
def isVain (s : Search) : Bool := s.outcome = some none ∨ s.outcome = some (some [])

/-- A search that is followed by another one if it is in vain. -/
def orElse (s : Search) (later : Unit → Search) : Search :=
  if s.isVain then ⟨s.asked ++ (later ()).asked, (later ()).outcome⟩ else s

instance : OrElse Search := ⟨orElse⟩

end Search

namespace Probe

/-- Looks for the first candidate that is a file. -/
def search (probe : Probe) : List Path → Search
  | [] => ⟨[], some none⟩
  | p :: ps =>
    match probe p with
    | none => ⟨[p], none⟩
    | some true => ⟨[p], some (some p)⟩
    | some false =>
      let later := probe.search ps
      ⟨p :: later.asked, later.outcome⟩

end Probe

/-! ## Candidates -/

namespace Path

/-- A path with each of some endings. -/
def withEndings (p : Path) (endings : List Path) : List Path := endings.map (p ++ ·)

/-- The files that a module may be in: of its name, or in a directory of its name. -/
def moduleFiles (dir child : Path) : List Path :=
  [join dir (child ++ ".rs".toList), join (join dir child) "mod.rs".toList]

end Path

end ImportAtlas
