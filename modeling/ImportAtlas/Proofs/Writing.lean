/-
# ImportAtlas.Proofs.Writing -- what was written stands there

A file is written at the spot where its path ends: at a file, or at a name that a directory does not have
yet, if the rights suffice. Afterwards the path leads to the new file (`follow_set`), although the tree
that it is followed through has changed. The walk looks at the spot only in the end, since neither a
directory nor a link that it leads through stands there.
-/
import ImportAtlas.FileTree

namespace ImportAtlas

/-- Where a file goes that is written at the end of a path. -/
def Arrival.spot? : Arrival → Option Place
  | .entry place (.file _) => some place
  | .vacancy dir name => some (dir ++ [name])
  | _ => none

namespace FileTree

variable {t : FileTree} {links : Nat} {dir place : Place} {ps : List Path} {p : Path}

theorem entryAt?_set (hplace : place ≠ []) (e : Entry) (other : Place) :
    (t.set place e).entryAt? other = if other = place then some e else t.entryAt? other := by
  unfold entryAt? set
  by_cases heq : other = place
  · subst heq
    have hnone : (t.entries.filter fun x => x.1 ≠ other).find? (fun x => x.1 = other) = none := by
      refine List.find?_eq_none.2 fun x hx => ?_
      simpa using (List.mem_filter.1 hx).2
    rw [if_neg hplace, if_pos rfl, List.find?_append, hnone]
    simp
  · have hsame : (t.entries.filter fun x => x.1 ≠ place).find? (fun x => x.1 = other) =
        t.entries.find? fun x => x.1 = other := by
      have hpred (x : Place × Entry) : (decide (x.1 ≠ place) && decide (x.1 = other)) =
          decide (x.1 = other) := by
        by_cases hx : x.1 = other
        · simp [hx, heq]
        · simp [hx]
      rw [List.find?_filter]
      exact congrArg t.entries.find? (funext fun x => by simpa using hpred x)
    rw [if_neg heq, List.find?_append, hsame]
    simp [Ne.symm heq]

theorem grants_set (e : Entry) (other : Place) (right : Right) :
    (t.set place e).grants other right = t.grants other right := rfl

/-- Nothing stands at the spot, or a file. -/
theorem entryAt?_of_spot? (hspot : (t.follow links dir ps).spot? = some place) :
    place ≠ [] ∧ t.entryAt? place ≠ some .directory ∧
      ∀ target, t.entryAt? place ≠ some (.link target) := by
  fun_induction follow t links dir ps with
  | case1 => cases hspot
  | case2 _ _ _ ih => exact ih hspot
  | case3 => cases hspot
  | case4 _ _ _ _ _ ih => exact ih hspot
  | case5 _ _ _ _ _ _ ih => exact ih hspot
  | case6 => cases hspot
  | case7 _ dir part _ _ _ _ _ hentry =>
    obtain rfl : dir ++ [part] = place := Option.some.inj hspot
    rw [hentry]
    exact ⟨List.concat_ne_nil _ _, nofun, nofun⟩
  | case8 => cases hspot
  | case9 _ _ _ _ _ _ _ _ _ _ ih => exact ih hspot
  | case10 _ dir part _ _ _ _ _ bytes hentry =>
    obtain rfl : dir ++ [part] = place := Option.some.inj hspot
    rw [hentry]
    exact ⟨List.concat_ne_nil _ _, nofun, nofun⟩
  | case11 => cases hspot
  | case12 => cases hspot
  | case13 _ _ _ _ _ _ _ _ _ _ _ ih => exact ih hspot

theorem follow_set (bytes : List UInt8) (hspot : (t.follow links dir ps).spot? = some place) :
    (t.set place (.file bytes)).follow links dir ps = .entry place (.file bytes) := by
  obtain ⟨hplace, hdirectory, hlink⟩ := entryAt?_of_spot? hspot
  fun_induction follow t links dir ps with
  | case1 => cases hspot
  | case2 _ _ _ ih =>
    rw [follow, if_pos rfl]
    exact ih hspot
  | case3 => cases hspot
  | case4 _ _ _ hsearch hne ih =>
    rw [follow, if_neg hne, grants_set, if_neg hsearch, if_pos rfl]
    exact ih hspot
  | case5 _ _ _ hsearch hne hhere ih =>
    rw [follow, if_neg hne, grants_set, if_neg hsearch, if_neg hhere, if_pos rfl]
    exact ih hspot
  | case6 => cases hspot
  | case7 _ dir part hne hsearch hhere hup hname hentry =>
    obtain rfl : dir ++ [part] = place := Option.some.inj hspot
    rw [follow, if_neg hne, grants_set, if_neg hsearch, if_neg hhere, if_neg hup, if_neg hname,
      entryAt?_set hplace, if_pos rfl]
    rfl
  | case8 => cases hspot
  | case9 _ dir part rest hne hsearch hhere hup hname hentry ih =>
    have hother : dir ++ [part] ≠ place := fun heq => hdirectory (heq ▸ hentry)
    rw [follow, if_neg hne, grants_set, if_neg hsearch, if_neg hhere, if_neg hup, if_neg hname,
      entryAt?_set hplace, if_neg hother, hentry]
    exact ih hspot
  | case10 _ dir part hne hsearch hhere hup hname old hentry =>
    obtain rfl : dir ++ [part] = place := Option.some.inj hspot
    rw [follow, if_neg hne, grants_set, if_neg hsearch, if_neg hhere, if_neg hup, if_neg hname,
      entryAt?_set hplace, if_pos rfl]
    rfl
  | case11 => cases hspot
  | case12 => cases hspot
  | case13 dir part rest hne hsearch hhere hup hname target hentry left ih =>
    have hother : dir ++ [part] ≠ place := fun heq => hlink target (heq ▸ hentry)
    rw [follow, if_neg hne, grants_set, if_neg hsearch, if_neg hhere, if_neg hup, if_neg hname,
      entryAt?_set hplace, if_neg hother, hentry]
    exact ih hspot

theorem arrive_set (bytes : List UInt8) (hspot : (t.arrive p).spot? = some place) :
    (t.set place (.file bytes)).arrive p = .entry place (.file bytes) := by
  unfold arrive at hspot ⊢
  split at hspot
  · cases hspot
  · next hne =>
    rw [if_neg hne]
    split at hspot
    · cases hspot
    · next hzero =>
      rw [if_neg hzero]
      split at hspot
      · cases hspot
      · next hshort =>
        rw [if_neg hshort]
        exact follow_set bytes hspot

/-- Where a file goes that may be written at the end of a path: over a file, or into a directory. -/
def spotFor? (t : FileTree) (p : Path) : Option Place :=
  match t.arrive p with
  | .entry place (.file _) => if t.grants place .write then some place else none
  | .vacancy dir name => if t.grants dir .write then some (dir ++ [name]) else none
  | _ => none

theorem spot?_of_spotFor? (hspot : t.spotFor? p = some place) : (t.arrive p).spot? = some place := by
  unfold spotFor? at hspot
  split at hspot
  · next spot _ harrive =>
    rw [harrive]
    split at hspot
    · exact hspot
    · cases hspot
  · next dir name harrive =>
    rw [harrive]
    split at hspot
    · exact hspot
    · cases hspot
  · cases hspot

/-- A file can be written exactly if there is a spot for it. -/
theorem write_eq_ok_iff {t' : FileTree} {bytes : List UInt8} :
    t.write p bytes = .ok t' ↔
      ∃ place, t.spotFor? p = some place ∧ t' = t.set place (.file bytes) := by
  have hspot (spot : Place) : (.ok (t.set spot (.file bytes)) : Except FileFault FileTree) = .ok t' ↔
      ∃ place, some spot = some place ∧ t' = t.set place (.file bytes) := by
    constructor
    · intro h
      exact ⟨spot, rfl, (Except.ok.inj h).symm⟩
    · rintro ⟨_, ⟨⟩, rfl⟩
      rfl
  unfold write spotFor?
  cases t.arrive p with
  | entry place e =>
    cases e with
    | file old =>
      dsimp only
      split
      · exact hspot place
      · simp
    | directory => simp
    | link target => simp
  | vacancy dir name =>
    dsimp only
    split
    · exact hspot (dir ++ [name])
    · simp
  | blocked fault => simp

/-- The file that a path leads to holds some bytes. Whether it may be read is another matter. -/
def Holds (t : FileTree) (p : Path) (bytes : List UInt8) : Prop :=
  ∃ place, t.arrive p = .entry place (.file bytes)

/-- A file that could be written holds what was written. -/
theorem holds_of_write {t' : FileTree} {bytes : List UInt8} (hwrite : t.write p bytes = .ok t') :
    t'.Holds p bytes := by
  obtain ⟨place, hspot, rfl⟩ := write_eq_ok_iff.1 hwrite
  exact ⟨place, arrive_set bytes (spot?_of_spotFor? hspot)⟩

end FileTree

end ImportAtlas
