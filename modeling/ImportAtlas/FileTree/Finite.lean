/-
# ImportAtlas.FileTree.Finite -- only finitely many paths name a file

A path that names a file is shorter than `pathLimit`, and there are only finitely many texts below a
given length. So a list of different paths to files has a bounded length, whatever links there are.
-/
import ImportAtlas.FileTree

namespace ImportAtlas

/-- There is a longest list of different paths that pass a test. -/
def FinitelyMany (test : Path → Bool) : Prop :=
  ∃ bound : Nat, ∀ ps : List Path, ps.Nodup → (∀ p ∈ ps, test p = true) → ps.length ≤ bound

/-! ## Counting -/

theorem length_le_of_nodup {α : Type} [DecidableEq α] {xs ys : List α} (hx : xs.Nodup)
    (h : ∀ x ∈ xs, x ∈ ys) : xs.length ≤ ys.length := by
  induction xs generalizing ys with
  | nil => exact Nat.zero_le _
  | cons x xs ih =>
    obtain ⟨hnot, hx⟩ := List.nodup_cons.1 hx
    have hmem : x ∈ ys := h x List.mem_cons_self
    have hsub : ∀ z ∈ xs, z ∈ ys.erase x := fun z hz =>
      (List.mem_erase_of_ne fun (e : z = x) => hnot (e ▸ hz)).2 (h z (List.mem_cons_of_mem _ hz))
    have hlen := ih hx hsub
    have hpos : 0 < ys.length := List.length_pos_of_mem hmem
    rw [List.length_erase_of_mem hmem] at hlen
    simp only [List.length_cons]
    omega

theorem mem_all_chars (c : Char) : c ∈ (List.range 0x110000).map Char.ofNat := by
  refine List.mem_map.2 ⟨c.toNat, List.mem_range.2 ?_, Char.ofNat_toNat c⟩
  rcases c.valid with h | ⟨_, h⟩
  · exact Nat.lt_trans h (by decide)
  · exact h

theorem exists_list_of_length_lt (n : Nat) :
    ∃ all : List (List Char), ∀ cs : List Char, cs.length < n → cs ∈ all := by
  induction n with
  | zero => exact ⟨[], fun _ h => absurd h (Nat.not_lt_zero _)⟩
  | succ n ih =>
    obtain ⟨shorter, hshorter⟩ := ih
    refine ⟨[] :: ((List.range 0x110000).map Char.ofNat).flatMap fun c => shorter.map (c :: ·), ?_⟩
    intro cs h
    cases cs with
    | nil => exact List.mem_cons_self
    | cons c cs =>
      refine List.mem_cons_of_mem _ (List.mem_flatMap.2 ⟨c, mem_all_chars c, ?_⟩)
      exact List.mem_map.2 ⟨cs, hshorter cs (by simpa using h), rfl⟩

theorem finite_of_length_lt {test : Path → Bool} (n : Nat)
    (h : ∀ p, test p = true → p.length < n) : FinitelyMany test := by
  obtain ⟨all, hall⟩ := exists_list_of_length_lt n
  exact ⟨all.length, fun ps hps hfile =>
    length_le_of_nodup hps fun p hp => hall p (h p (hfile p hp))⟩

/-! ## Files -/

theorem Path.length_le_byteLength (p : Path) : p.length ≤ p.byteLength := by
  induction p with
  | nil => exact Nat.le_refl _
  | cons c cs ih =>
    have hc : 0 < c.utf8Size := Char.utf8Size_pos c
    rw [Path.byteLength, List.length_cons]
    omega

theorem FileTree.length_lt_of_isFile {t : FileTree} {p : Path} (h : t.isFile p = true) :
    p.length < pathLimit := by
  unfold isFile at h
  split at h
  · next _ _ hp =>
    unfold arrive at hp
    split at hp
    · cases hp
    · split at hp
      · cases hp
      · split at hp
        · cases hp
        · next hlen => exact Nat.lt_of_le_of_lt p.length_le_byteLength (Nat.lt_of_not_le hlen)
  · cases h

theorem FileTree.finite_isFile (t : FileTree) : FinitelyMany t.isFile :=
  finite_of_length_lt pathLimit fun _ => length_lt_of_isFile

end ImportAtlas
