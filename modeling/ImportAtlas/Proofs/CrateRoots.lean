/-
# ImportAtlas.Proofs.CrateRoots -- the crate root of a file, whatever was asked before

A search for the manifest of a file climbs from directory to directory until it finds one or comes to a
root, which is a directory that is its own parent (`Climb`). In terms of the parts of a path the
directories it comes by are all that stand on the way to the file, the root apart, and it meets the
deepest of them first (`mem_ancestors_iff`, `ancestors_pairwise`).

The answer for a directory is remembered, also if it is that there is none. Whoever is asked, for a root
or for the file that a reference means, remembers nothing but what a search gives (`answer_remembered`),
so that no answer depends on what was asked before.
-/
import Mathlib.Logic.Relation
import ImportAtlas.Proofs.CanonicalReach

namespace ImportAtlas

/-! ## Directories on the way -/

namespace Path

/-- A directory on the way from the root to another one: that one itself, or one above it. The root
itself does not count. -/
structure OnTheWay (dir d : Path) : Prop where
  isCanonical : d.IsCanonical
  rootSlashes : d.rootSlashes = dir.rootSlashes
  steps : d.steps <+: dir.steps
  ne_root : d.steps ≠ []

section Rooted

variable {k : Nat} {ps : List Path} {x : Path}

theorem ancestors_rooted_nil (hk : k = 1 ∨ k = 2) : ancestors (rooted k []) = [] := by
  rw [ancestors, if_pos (parent_rooted_nil hk)]

theorem ancestors_rooted_concat (hk : k = 1 ∨ k = 2) (hps : ∀ p ∈ ps ++ [x], IsPlain p) :
    ancestors (rooted k (ps ++ [x])) = rooted k (ps ++ [x]) :: ancestors (rooted k ps) := by
  have hfront : ∀ p ∈ ps, IsPlain p := fun p hp => hps p (List.mem_append_left _ hp)
  have hparent : parent (rooted k (ps ++ [x])) = rooted k ps :=
    parent_rooted_concat hk hfront (hps x (by simp))
  have hne : rooted k ps ≠ rooted k (ps ++ [x]) := by
    intro h
    have hsteps := congrArg Path.steps h
    rw [steps_rooted k hfront, steps_rooted k hps] at hsteps
    simp at hsteps
  rw [ancestors, hparent, if_neg hne]

end Rooted

/-- A search upwards comes by the directories on the way. -/
theorem mem_ancestors_iff {dir d : Path} (hdir : dir.IsCanonical) :
    d ∈ ancestors dir ↔ dir.OnTheWay d := by
  obtain ⟨hk, hps⟩ := hdir
  rename_i k ps
  -- The last part is the first that a search upwards leaves, so the parts are taken off from the end.
  induction ps using List.reverseRecOn with
  | nil =>
    rw [ancestors_rooted_nil hk]
    constructor
    · intro hd
      cases hd
    · intro hd
      have hnil := hd.steps
      rw [steps_rooted k hps, List.prefix_nil] at hnil
      exact absurd hnil hd.ne_root
  | append_singleton ps x ih =>
    have hfront : ∀ p ∈ ps, IsPlain p := fun p hp => hps p (List.mem_append_left _ hp)
    have hslashes : (rooted k (ps ++ [x])).rootSlashes = (rooted k ps).rootSlashes := by
      rw [rootSlashes_rooted hk hps, rootSlashes_rooted hk hfront]
    rw [ancestors_rooted_concat hk hps, List.mem_cons, ih hfront]
    constructor
    · rintro (rfl | hd)
      · refine ⟨.mk hk hps, rfl, List.prefix_refl _, ?_⟩
        rw [steps_rooted k hps]
        simp
      · refine ⟨hd.isCanonical, hd.rootSlashes.trans hslashes.symm, ?_, hd.ne_root⟩
        have hsteps := hd.steps
        rw [steps_rooted k hfront] at hsteps
        rw [steps_rooted k hps]
        exact hsteps.trans (List.prefix_append ps [x])
    · intro hd
      have hsteps := hd.steps
      rw [steps_rooted k hps, List.prefix_concat_iff] at hsteps
      rcases hsteps with hsteps | hsteps
      · left
        -- A canonical path is known by its root and its parts.
        have hroot := hd.rootSlashes
        obtain ⟨hj, hqs⟩ := hd.isCanonical
        rw [steps_rooted _ hqs] at hsteps
        rw [rootSlashes_rooted hj hqs, rootSlashes_rooted hk hps] at hroot
        rw [hsteps, hroot]
      · right
        refine ⟨hd.isCanonical, hd.rootSlashes.trans hslashes, ?_, hd.ne_root⟩
        rwa [steps_rooted k hfront]

/-- It comes by the deeper ones first. -/
theorem ancestors_pairwise {dir : Path} (hdir : dir.IsCanonical) :
    (ancestors dir).Pairwise fun d e => e.steps.length < d.steps.length := by
  obtain ⟨hk, hps⟩ := hdir
  rename_i k ps
  induction ps using List.reverseRecOn with
  | nil =>
    rw [ancestors_rooted_nil hk]
    exact .nil
  | append_singleton ps x ih =>
    have hfront : ∀ p ∈ ps, IsPlain p := fun p hp => hps p (List.mem_append_left _ hp)
    rw [ancestors_rooted_concat hk hps, List.pairwise_cons]
    refine ⟨?_, ih hfront⟩
    intro e he
    have hsteps := ((mem_ancestors_iff (.mk hk hfront)).1 he).steps.length_le
    rw [steps_rooted k hfront] at hsteps
    rw [steps_rooted k hps, List.length_append, List.length_singleton]
    omega

end Path

namespace Crate

/-! ## The nearest manifest -/

/-- The deepest directory with a manifest on the way to a directory. -/
structure IsNearestManifest (h : Host) (dir d : Path) : Prop where
  onTheWay : dir.OnTheWay d
  manifest : h.isPresent (Path.join d manifest) = true
  deepest : ∀ e, dir.OnTheWay e → h.isPresent (Path.join e Crate.manifest) = true →
    e.steps.length ≤ d.steps.length

theorem isNearestManifest_of_manifestDirectory? {h : Host} {dir d : Path} (hdir : dir.IsCanonical)
    (hd : manifestDirectory? h dir = some d) : IsNearestManifest h dir d := by
  have hpairs := Path.ancestors_pairwise hdir
  obtain ⟨hmanifest, before, behind, hsplit, hbefore⟩ := List.find?_eq_some_iff_append.1 hd
  refine ⟨(Path.mem_ancestors_iff hdir).1 (List.mem_of_find?_eq_some hd), by simpa using hmanifest, ?_⟩
  intro e he hpresent
  have hmem := (Path.mem_ancestors_iff hdir).2 he
  rw [hsplit, List.mem_append, List.mem_cons] at hmem
  rcases hmem with hmem | rfl | hmem
  · have hnone := hbefore e hmem
    rw [hpresent] at hnone
    cases hnone
  · exact Nat.le_refl _
  · rw [hsplit, List.pairwise_append, List.pairwise_cons] at hpairs
    exact Nat.le_of_lt (hpairs.2.1.1 e hmem)

theorem manifestDirectory?_eq_none_iff {h : Host} {dir : Path} (hdir : dir.IsCanonical) :
    manifestDirectory? h dir = none ↔
      ∀ d, dir.OnTheWay d → h.isPresent (Path.join d manifest) = false := by
  rw [manifestDirectory?, List.find?_eq_none]
  simp only [Path.mem_ancestors_iff hdir, Bool.not_eq_true]

/-! ## The search -/

/-- One turn of a search: from a directory without a manifest, unless it is a root, to the one above. -/
inductive Climb (h : Host) : Path → Path → Prop
  | up {dir : Path} : dir.parent ≠ dir → h.isPresent (Path.join dir manifest) = false →
      Climb h dir dir.parent

/-- A search from a directory ends at another one. -/
def EndsAt (h : Host) (dir stop : Path) : Prop :=
  Relation.ReflTransGen (Climb h) dir stop ∧ ∀ next, ¬ Climb h stop next

theorem EndsAt.head {h : Host} {dir next stop : Path} (hstep : Climb h dir next)
    (hstop : EndsAt h next stop) : EndsAt h dir stop :=
  ⟨.head hstep hstop.1, hstop.2⟩

theorem endsAt_root {h : Host} {dir : Path} (hdir : dir.parent = dir) : EndsAt h dir dir := by
  refine ⟨.refl, ?_⟩
  intro next hnext
  cases hnext with
  | up hne _ => exact hne hdir

theorem endsAt_manifest {h : Host} {dir : Path}
    (hdir : h.isPresent (Path.join dir manifest) = true) : EndsAt h dir dir := by
  refine ⟨.refl, ?_⟩
  intro next hnext
  cases hnext with
  | up _ hnone =>
    rw [hdir] at hnone
    cases hnone

/-- A search ends, at the directory that is found or at a root. -/
theorem exists_endsAt (h : Host) (dir : Path) :
    ∃ stop, EndsAt h dir stop ∧
      (manifestDirectory? h dir = some stop ∨ manifestDirectory? h dir = none ∧ stop.parent = stop) := by
  unfold manifestDirectory?
  fun_induction Path.ancestors dir with
  | case1 dir hroot => exact ⟨dir, endsAt_root hroot, .inr ⟨rfl, hroot⟩⟩
  | case2 dir hne ih =>
    cases hpresent : h.isPresent (Path.join dir manifest) with
    | true =>
      refine ⟨dir, endsAt_manifest hpresent, .inl ?_⟩
      simp [hpresent]
    | false =>
      obtain ⟨stop, hstop, hfound⟩ := ih
      refine ⟨stop, hstop.head (.up hne hpresent), ?_⟩
      simpa [hpresent] using hfound

/-! ## What is remembered -/

/-- A question about the crate of a file. -/
inductive Call where
  /-- Where do the modules begin? -/
  | root (file : Path)
  /-- Which file does a reference mean? -/
  | resolve (i : Import) (file : Path)

/-- The memory after a question. -/
def Call.remember (h : Host) (workspace : Path) (roots : Roots) : Call → Roots
  | root file => (findRoot h workspace roots file).2.1
  | resolve i file => ((Reference.crate i).resolve h workspace roots file).roots

/-- The memory after some questions. -/
def remembered (h : Host) (workspace : Path) (past : List Call) : Roots :=
  past.foldl (Call.remember h workspace) []

variable {h : Host} {workspace : Path}

/-- A question leaves every answer as it was. -/
theorem Call.answer_remember (call : Call) (roots : Roots) :
    (call.remember h workspace roots).answer h workspace = roots.answer h workspace := by
  cases call with
  | root file => exact (findRoot_answer h workspace roots file).2
  | resolve i file => exact (Reference.resolve_answer h workspace roots file (.crate i)).2

/-- What is remembered is what a search would give. -/
theorem answer_remembered (past : List Call) :
    (remembered h workspace past).answer h workspace = rootAt h workspace := by
  -- The answers before the first question are those of a search, since nothing is remembered yet.
  have hrun : ∀ roots : Roots, (past.foldl (Call.remember h workspace) roots).answer h workspace =
      roots.answer h workspace := by
    induction past with
    | nil => exact fun _ => rfl
    | cons call past ih =>
      intro roots
      rw [List.foldl_cons, ih, Call.answer_remember]
  exact hrun []

/-- Where the modules of a file's crate begin does not depend on what was asked before: in the source
directory beside the nearest manifest, or else next to it, and without a manifest in the source directory
of the workspace, if there is one. The search for the manifest ends there or at a root. Nor does it depend
on earlier questions which file a reference means. -/
theorem crate_root_stands_by_nearest_manifest (reader : Script.TreeReader) (tree : FileTree)
    (probe : Probe) (workspace : Path) (past : List Call) (file : Path) :
    let h := (Host.ofTree reader tree).withProbe probe
    let dir := h.directoryOf file
    let roots := remembered h workspace past
    let found := (findRoot h workspace roots file).1
    (∃ stop, EndsAt h dir stop ∧
      (IsNearestManifest h dir stop ∧
          found = some (if h.isDirectory (Path.join stop sourceDirectory)
            then Path.join stop sourceDirectory else stop) ∨
        (∀ d, dir.OnTheWay d → h.isPresent (Path.join d manifest) = false) ∧ stop.parent = stop ∧
          found = if h.isDirectory (Path.join workspace sourceDirectory)
            then some (Path.join workspace sourceDirectory) else none)) ∧
      found = (findRoot h workspace [] file).1 ∧
      ∀ i : Import, ((Reference.crate i).resolve h workspace roots file).outcome =
        ((Reference.crate i).resolve h workspace [] file).outcome := by
  intro h dir roots found
  have hdir : dir.IsCanonical := Host.isCanonical_directoryOf (h := h) rfl file
  have hanswer : roots.answer h workspace = rootAt h workspace := answer_remembered past
  have hfound : found = rootAt h workspace dir := by
    rw [← hanswer]
    exact (findRoot_answer h workspace roots file).1
  refine ⟨?_, ?_, ?_⟩
  · obtain ⟨stop, hstop, hsome | ⟨hnone, hroot⟩⟩ := exists_endsAt h dir
    · refine ⟨stop, hstop, .inl ⟨isNearestManifest_of_manifestDirectory? hdir hsome, ?_⟩⟩
      rw [hfound, rootAt, hsome]
      rfl
    · refine ⟨stop, hstop, .inr ⟨(manifestDirectory?_eq_none_iff hdir).1 hnone, hroot, ?_⟩⟩
      rw [hfound, rootAt, hnone]
      rfl
  · rw [hfound, (findRoot_answer h workspace [] file).1]
    rfl
  · intro i
    rw [(Reference.resolve_answer h workspace roots file _).1,
      (Reference.resolve_answer h workspace [] file _).1, hanswer]
    rfl

end Crate

end ImportAtlas
