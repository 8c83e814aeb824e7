/-
# ImportAtlas.Proofs.Meaning -- what a file imports, whatever is remembered

Resolving the imports of a file goes through them one by one, stops at the first question that breaks
down, and remembers on the way where the modules of a crate begin. What is remembered matters only
through the answers it gives (`Roots.answer`): for each directory the remembered crate root, or else the
one that a search finds. Resolving leaves every answer as it was, also when it breaks down halfway.

So what a file imports is settled by the answers at the outset (`Host.targetsFrom`). With nothing
remembered it is a function of the surroundings alone (`Host.imports?`): all references of the file have
a meaning, or none counts. Hence `Host.importMap`: what a build on given surroundings has to go by.
-/
import ImportAtlas.Proofs.Candidates
import ImportAtlas.Proofs.ImportMap

namespace ImportAtlas

/-! ## Crate roots -/

namespace Crate

/-- Where the modules of a crate begin for the files of a directory. -/
def rootAt (h : Host) (workspace dir : Path) : Option Path :=
  match manifestDirectory? h dir with
  | some d => some (rootBeside h d)
  | none => fallback? h workspace

theorem fst_searchRoot (h : Host) (workspace file : Path) :
    (searchRoot h workspace file).1 = rootAt h workspace (h.directoryOf file) := by
  unfold searchRoot rootAt
  cases manifestDirectory? h (h.directoryOf file) with
  | some dir => rfl
  | none => cases fallback? h workspace <;> rfl

/-- The answer for a directory: the remembered one, or else the one that a search gives. -/
def Roots.answer (h : Host) (workspace : Path) (roots : Roots) (dir : Path) : Option Path :=
  (roots.get? dir).getD (rootAt h workspace dir)

theorem Roots.get?_append_single (roots : Roots) (dir d : Path) (root : Option Path) :
    Roots.get? (roots ++ [(dir, root)]) d =
      (roots.get? d).or (if dir = d then some root else none) := by
  unfold Roots.get?
  rw [List.find?_append]
  by_cases hd : dir = d <;> cases roots.find? (fun r => r.1 = d) <;> simp [hd]

variable {h : Host} {workspace : Path} {roots : Roots}

/-- Remembering what a search gave changes no answer. -/
theorem Roots.answer_append (roots : Roots) (dir : Path) :
    Roots.answer h workspace (roots ++ [(dir, rootAt h workspace dir)]) =
      roots.answer h workspace := by
  funext d
  unfold Roots.answer
  rw [Roots.get?_append_single]
  cases roots.get? d with
  | some old => rfl
  | none =>
    rw [Option.none_or]
    split
    · next hd =>
      subst hd
      rfl
    · rfl

/-- A look-up gives the answer, and leaves all answers as they are. -/
theorem findRoot_answer (h : Host) (workspace : Path) (roots : Roots) (file : Path) :
    (findRoot h workspace roots file).1 = roots.answer h workspace (h.directoryOf file) ∧
      (findRoot h workspace roots file).2.1.answer h workspace = roots.answer h workspace := by
  unfold findRoot
  dsimp only
  split
  · next root hget =>
    refine ⟨?_, rfl⟩
    rw [Roots.answer, hget]
    rfl
  · next hget =>
    rw [fst_searchRoot]
    refine ⟨?_, Roots.answer_append roots _⟩
    rw [Roots.answer, hget]
    rfl

end Crate

/-! ## References -/

namespace Reference

variable {h : Host} {workspace file : Path} {roots : Crate.Roots}

/-- The file that a reference means: the first candidate that is one, if any. None if a question broke
down before. -/
def meaning? (h : Host) (workspace file : Path) (ref : Reference) : Option (Option Path) :=
  (h.probe.search
    (ref.candidates h (Crate.rootAt h workspace (h.directoryOf file)) file)).outcome

/-- Only a path below `crate` looks at where the modules begin. -/
theorem candidates_eq_of_not_needsRoot {ref : Reference} (hn : ref.needsRoot = false)
    (r r' : Option Path) : ref.candidates h r file = ref.candidates h r' file := by
  cases ref with
  | script specifier => rfl
  | document name => rfl
  | crate i =>
    obtain ⟨name, anchor, full⟩ := i
    cases anchor with
    | crate => cases hn
    | mod => rfl
    | super => rfl
    | self => rfl

/-- A reference is looked up by the answer for the directory of its file, and all answers stay. -/
theorem resolve_answer (h : Host) (workspace : Path) (roots : Crate.Roots) (file : Path)
    (ref : Reference) :
    (ref.resolve h workspace roots file).outcome =
        (h.probe.search
          (ref.candidates h (roots.answer h workspace (h.directoryOf file)) file)).outcome ∧
      (ref.resolve h workspace roots file).roots.answer h workspace = roots.answer h workspace := by
  unfold resolve
  by_cases hn : ref.needsRoot = true
  · obtain ⟨hroot, hkeep⟩ := Crate.findRoot_answer h workspace roots file
    rw [if_pos hn, ← hroot, ← search_eq]
    exact ⟨rfl, hkeep⟩
  · rw [if_neg hn]
    refine ⟨?_, rfl⟩
    dsimp only
    rw [search_eq, candidates_eq_of_not_needsRoot (Bool.eq_false_iff.2 hn)]

end Reference

/-- The files that references mean, in order, those without one left out. None if a question broke down
for any of them. -/
def meanings? (h : Host) (workspace file : Path) (refs : List Reference) : Option (List Path) :=
  (refs.mapM (Reference.meaning? h workspace file)).map (List.filterMap id)

section Resolution

variable {h : Host} {workspace file : Path} {roots : Crate.Roots}

theorem meanings?_cons (ref : Reference) (refs : List Reference) :
    meanings? h workspace file (ref :: refs) =
      (ref.meaning? h workspace file).bind fun found =>
        (meanings? h workspace file refs).map (found.toList ++ ·) := by
  unfold meanings?
  rw [List.mapM_cons]
  cases ref.meaning? h workspace file with
  | none => rfl
  | some found =>
    cases refs.mapM (Reference.meaning? h workspace file) with
    | none => rfl
    | some rest => cases found <;> rfl

/-- One reference without an answer leaves all of them without one. -/
theorem meanings?_eq_none_iff (refs : List Reference) :
    meanings? h workspace file refs = none ↔
      ∃ ref ∈ refs, ref.meaning? h workspace file = none := by
  induction refs with
  | nil => simp [meanings?]
  | cons ref refs ih =>
    rw [meanings?_cons]
    cases href : ref.meaning? h workspace file with
    | none => simp [href]
    | some found => simp [href, ih]

theorem resolveEach_answer (roots : Crate.Roots) (refs : List Reference) :
    (resolveEach h workspace file roots refs).roots.answer h workspace =
      roots.answer h workspace := by
  induction refs generalizing roots with
  | nil => rfl
  | cons ref refs ih =>
    obtain ⟨-, hkeep⟩ := Reference.resolve_answer h workspace roots file ref
    rw [resolveEach]
    split
    · exact hkeep
    · exact (ih _).trans hkeep

/-- Memories that give the same answer for the directory of a file resolve its references alike. -/
theorem resolveEach_congr {roots' : Crate.Roots}
    (hsame : roots.answer h workspace (h.directoryOf file) =
      roots'.answer h workspace (h.directoryOf file)) (refs : List Reference) :
    (resolveEach h workspace file roots refs).targets =
      (resolveEach h workspace file roots' refs).targets := by
  induction refs generalizing roots roots' with
  | nil => rfl
  | cons ref refs ih =>
    obtain ⟨hout, hkeep⟩ := Reference.resolve_answer h workspace roots file ref
    obtain ⟨hout', hkeep'⟩ := Reference.resolve_answer h workspace roots' file ref
    have hlater : (ref.resolve h workspace roots file).roots.answer h workspace (h.directoryOf file) =
        (ref.resolve h workspace roots' file).roots.answer h workspace (h.directoryOf file) := by
      rw [hkeep, hkeep', hsame]
    rw [resolveEach, resolveEach, hout, hout', ← hsame]
    split
    · rfl
    · dsimp only
      rw [ih hlater]

/-- Where the answer is that of a search, references are resolved to what they mean. -/
theorem targets_resolveEach
    (hr : roots.answer h workspace (h.directoryOf file) = Crate.rootAt h workspace (h.directoryOf file))
    (refs : List Reference) :
    (resolveEach h workspace file roots refs).targets = meanings? h workspace file refs := by
  induction refs generalizing roots with
  | nil => rfl
  | cons ref refs ih =>
    obtain ⟨hout, hkeep⟩ := Reference.resolve_answer h workspace roots file ref
    have hmeaning : (ref.resolve h workspace roots file).outcome =
        ref.meaning? h workspace file := by
      rw [hout, hr]
      rfl
    rw [meanings?_cons, resolveEach, hmeaning]
    cases ref.meaning? h workspace file with
    | none => rfl
    | some found =>
      rw [← ih ((congrFun hkeep _).trans hr)]
      rfl

end Resolution

/-! ## Files -/

namespace Host

/-- The files that the imports of a file mean. None if the file is of no dialect, if its text cannot be
had, or if a question broke down. -/
def imports? (h : Host) (workspace p : Path) : Option (List Path) :=
  match Dialect.ofPath? p, h.read p with
  | some dialect, .ok text => meanings? h workspace p (Reference.extract h dialect p text).1
  | _, _ => none

/-- The imported files that can be nodes. -/
def targets (h : Host) (workspace p : Path) : List Path :=
  ((h.imports? workspace p).getD []).filter (isGraphFile h)

theorem finite_isGraphFile (h : Host) : FinitelyMany (isGraphFile h) := by
  obtain ⟨bound, hbound⟩ := h.finite_isFile
  refine ⟨bound, fun ps hps hfile => hbound ps hps fun p hp => ?_⟩
  exact (Bool.and_eq_true_iff.1 (hfile p hp)).2

/-- What a build on these surroundings has to go by. -/
def importMap (h : Host) (workspace : Path) : ImportMap where
  isNode := isGraphFile h
  targets := h.targets workspace
  id := fileId h workspace
  isNode_target := fun _ _ ht => (List.mem_filter.1 ht).2
  finite_isNode := h.finite_isGraphFile

/-- The imported files that can be nodes, as they are found with some crate roots remembered. -/
def targetsFrom (h : Host) (workspace : Path) (roots : Crate.Roots) (p : Path) : List Path :=
  match Dialect.ofPath? p, h.read p with
  | some dialect, .ok text =>
    ((resolveAll h workspace roots dialect p text).targets.getD []).filter (isGraphFile h)
  | _, _ => []

/-- What a build with some crate roots remembered has to go by. -/
def importMapFrom (h : Host) (workspace : Path) (roots : Crate.Roots) : ImportMap where
  isNode := isGraphFile h
  targets := h.targetsFrom workspace roots
  id := fileId h workspace
  isNode_target := by
    intro p t ht
    unfold targetsFrom at ht
    split at ht
    · exact (List.mem_filter.1 ht).2
    · cases ht
  finite_isNode := h.finite_isGraphFile

variable {h : Host} {workspace : Path} {roots : Crate.Roots}

theorem targetsFrom_congr {roots' : Crate.Roots} {p : Path}
    (hsame : roots.answer h workspace (h.directoryOf p) =
      roots'.answer h workspace (h.directoryOf p)) :
    h.targetsFrom workspace roots p = h.targetsFrom workspace roots' p := by
  unfold targetsFrom
  split
  · unfold resolveAll
    dsimp only
    rw [resolveEach_congr hsame]
  · rfl

theorem targetsFrom_eq_targets {p : Path}
    (hr : roots.answer h workspace (h.directoryOf p) = Crate.rootAt h workspace (h.directoryOf p)) :
    h.targetsFrom workspace roots p = h.targets workspace p := by
  unfold targetsFrom targets imports?
  split
  · unfold resolveAll
    dsimp only
    rw [targets_resolveEach hr]
  · rfl

/-- Where nothing is remembered that a search would not find, the imports are those of the
surroundings. -/
theorem importMapFrom_eq (hr : roots.answer h workspace = Crate.rootAt h workspace) :
    h.importMapFrom workspace roots = h.importMap workspace := by
  unfold importMapFrom importMap
  rw [ImportMap.mk.injEq]
  exact ⟨rfl, funext fun p => targetsFrom_eq_targets (congrFun hr _), rfl⟩

end Host

/-! ## Texts -/

/-- The same surroundings with other texts. -/
def Host.withRead (h : Host) (read : Path → Except ReadFault (List Char)) : Host := { h with read }

section Texts

variable {h : Host} {read : Path → Except ReadFault (List Char)} {workspace : Path}

/-- Once its references are known, resolving them looks at no text. -/
theorem resolveEach_withRead (file : Path) (roots : Crate.Roots) (refs : List Reference) :
    resolveEach (h.withRead read) workspace file roots refs =
      resolveEach h workspace file roots refs := by
  induction refs generalizing roots with
  | nil => rfl
  | cons ref refs ih =>
    rw [resolveEach, resolveEach]
    simp only [ih]
    rfl

theorem resolveAll_withRead (roots : Crate.Roots) (dialect : Dialect) (file : Path)
    (text : List Char) :
    resolveAll (h.withRead read) workspace roots dialect file text =
      resolveAll h workspace roots dialect file text := by
  unfold resolveAll
  simp only [resolveEach_withRead]
  rfl

theorem Host.imports?_withRead {p : Path} (hread : read p = h.read p) :
    (h.withRead read).imports? workspace p = h.imports? workspace p := by
  unfold Host.imports?
  rw [show (h.withRead read).read p = h.read p from hread]
  rfl

end Texts

end ImportAtlas
