/-
# ImportAtlas.Proofs.Spellings -- the spellings of a location

A location has many spellings: with empty parts and steps in place, with names that a step up takes back,
and with steps up at the root. Leaving out one of these is an `Edit`. Two absolute paths are at the same
location if edits, forth and back, lead from the one to the other, and if both or neither begin with
exactly two slashes (`SameLocation`).

Edits lead from every path to its normal form, and no edit changes the normal form. So absolute paths have
the same normal form exactly if they are at the same location (`normalize_eq_iff`), which is what seeds and
imports are told apart by. An id is such a spelling as well: it is the way from the workspace, and read
from there it gives back the path that it was made of.
-/
import ImportAtlas.Proofs.Rebuild

namespace ImportAtlas

namespace Path

/-! ## Slashes in front -/

/-- The number of slashes that a path begins with. -/
def leadingSlashes (p : Path) : Nat := (p.takeWhile (· = '/')).length

/-- Two slashes in front are kept, and any other number of them counts as one. -/
theorem rootSlashes_eq {a : Path} (ha : a.isAbsolute = true) :
    a.rootSlashes = if a.leadingSlashes = 2 then 2 else 1 := by
  obtain ⟨rest, rfl⟩ := List.head?_eq_some_iff.1 (of_decide_eq_true ha)
  -- The first three characters decide.
  rcases rest with _ | ⟨c, _ | ⟨d, rest⟩⟩
  · rfl
  · by_cases hc : c = '/' <;> simp [rootSlashes, leadingSlashes, hc]
  · by_cases hc : c = '/'
    · by_cases hd : d = '/' <;> simp [rootSlashes, leadingSlashes, hc, hd]
    · simp [rootSlashes, leadingSlashes, hc]

theorem IsCanonical.leadingSlashes_eq {p : Path} (hp : p.IsCanonical) :
    p.leadingSlashes = p.rootSlashes := by
  obtain ⟨hk, hps⟩ := hp
  rename_i k ps
  have hslashes : ∀ c ∈ List.replicate k '/', decide (c = '/') = true := by
    intro c hc
    exact decide_eq_true (List.eq_of_mem_replicate hc)
  have hrest : (unparts ps).takeWhile (· = '/') = [] := by
    have hhead : (unparts ps).head? ≠ some '/' := head?_unparts hps
    cases htext : unparts ps with
    | nil => rfl
    | cons c cs =>
      rw [htext] at hhead
      have hc : c ≠ '/' := fun h => hhead (congrArg some h)
      simp [hc]
  rw [rootSlashes_rooted hk hps, leadingSlashes, rooted, List.takeWhile_append_of_pos hslashes, hrest,
    List.append_nil, List.length_replicate]

theorem leadingSlashes_normalize {a : Path} (ha : a.isAbsolute = true) :
    (normalize a).leadingSlashes = if a.leadingSlashes = 2 then 2 else 1 := by
  rw [(isCanonical_normalize ha).leadingSlashes_eq, rootSlashes_normalize ha, rootSlashes_eq ha]

/-! ## Edits -/

/-- Leaving out a part, or two, of an absolute path in such a way that it stays at its location. -/
inductive Edit : List Path → List Path → Prop
  /-- An empty part or a step in place. -/
  | skip {part : Path} (ps qs : List Path) :
      part = [] ∨ part = here → Edit (ps ++ part :: qs) (ps ++ qs)
  /-- A name and the step up behind it. -/
  | back {x : Path} (ps qs : List Path) : x.IsPlain → Edit (ps ++ x :: up :: qs) (ps ++ qs)
  /-- A step up at the root. -/
  | top (qs : List Path) : Edit (up :: qs) qs

/-- Absolute paths that are at the same location: edits lead from the one to the other. -/
def SameLocation (a b : Path) : Prop :=
  (a.leadingSlashes = 2 ↔ b.leadingSlashes = 2) ∧ Relation.EqvGen Edit a.parts b.parts

theorem pushPart_of_idle {part : Path} (hpart : part = [] ∨ part = here) (stack : List Path) :
    pushPart true stack part = stack :=
  if_pos hpart

theorem pushPart_up_of_isPlain {x : Path} (hx : x.IsPlain) (stack : List Path) :
    pushPart true (x :: stack) up = stack := by
  have htop : ∀ p ∈ [x], IsPlain p := by simpa using hx
  exact foldl_pushPart_up htop stack

/-- An edit leaves the reduced parts as they are. -/
theorem Edit.reduce_eq {ps qs : List Path} (hedit : Edit ps qs) :
    reduce true ps = reduce true qs := by
  unfold reduce
  cases hedit with
  | skip ps qs hpart =>
    rw [List.foldl_append, List.foldl_cons, pushPart_of_idle hpart, List.foldl_append]
  | back ps qs hx =>
    rw [List.foldl_append, List.foldl_cons, List.foldl_cons, pushPart_of_isPlain hx,
      pushPart_up_of_isPlain hx, List.foldl_append]
  | top => rfl

theorem reduce_eq_of_eqvGen {ps qs : List Path} (h : Relation.EqvGen Edit ps qs) :
    reduce true ps = reduce true qs := by
  induction h with
  | rel ps qs hedit => exact hedit.reduce_eq
  | refl ps => rfl
  | symm ps qs _ ih => exact ih.symm
  | trans ps qs rs _ _ ih ih' => exact ih.trans ih'

/-- What stands behind the parts that are left out does not matter. -/
theorem Edit.append {ps qs : List Path} (hedit : Edit ps qs) (rest : List Path) :
    Edit (ps ++ rest) (qs ++ rest) := by
  cases hedit with
  | skip ps qs hpart =>
    rw [List.append_assoc, List.append_assoc]
    exact .skip ps (qs ++ rest) hpart
  | back ps qs hx =>
    rw [List.append_assoc, List.append_assoc]
    exact .back ps (qs ++ rest) hx
  | top => exact .top (qs ++ rest)

theorem reduce_concat (ps : List Path) (part : Path) :
    reduce true (ps ++ [part]) = (pushPart true (reduce true ps).reverse part).reverse := by
  simp [reduce]

/-- Edits lead from all parts of a path to the reduced ones. -/
theorem reflTransGen_reduce {ps : List Path} (hps : ∀ p ∈ ps, '/' ∉ p) :
    Relation.ReflTransGen Edit ps (reduce true ps) := by
  induction ps using List.reverseRecOn with
  | nil => exact .refl
  | append_singleton ps part ih =>
    have hps' : ∀ p ∈ ps, '/' ∉ p := fun p hp => hps p (List.mem_append_left _ hp)
    have hpart : '/' ∉ part := hps part (by simp)
    have hfront : Relation.ReflTransGen Edit (ps ++ [part]) (reduce true ps ++ [part]) :=
      (ih hps').lift (· ++ [part]) fun _ _ hedit => hedit.append [part]
    have hplain : ∀ q ∈ reduce true ps, q.IsPlain := isPlain_of_mem_reduce hps'
    refine hfront.trans ?_
    rw [reduce_concat]
    generalize reduce true ps = qs at hplain
    by_cases hidle : part = [] ∨ part = here
    · have hedit := Edit.skip qs [] hidle
      rw [List.append_nil] at hedit
      rw [pushPart_of_idle hidle, List.reverse_reverse]
      exact .single hedit
    · by_cases hup : part = up
      · subst hup
        -- A step up takes back the last name, if there is one.
        rcases List.eq_nil_or_concat' qs with rfl | ⟨front, x, rfl⟩
        · exact .single (.top [])
        · have hx : x.IsPlain := hplain x (by simp)
          have hedit := Edit.back front [] hx
          rw [List.append_nil] at hedit
          rw [List.reverse_concat', pushPart_up_of_isPlain hx, List.reverse_reverse, List.append_assoc]
          exact .single hedit
      · rw [not_or] at hidle
        have hname : part.IsPlain := ⟨hidle.1, hidle.2, hup, hpart⟩
        rw [pushPart_of_isPlain hname, List.reverse_cons, List.reverse_reverse]

section Location

variable {a b : Path} (ha : a.isAbsolute = true) (hb : b.isAbsolute = true)
include ha hb

theorem rootSlashes_eq_iff :
    a.rootSlashes = b.rootSlashes ↔ (a.leadingSlashes = 2 ↔ b.leadingSlashes = 2) := by
  rw [rootSlashes_eq ha, rootSlashes_eq hb]
  split <;> split <;> simp_all

/-- Absolute paths have the same normal form exactly if they are at the same location. -/
theorem normalize_eq_iff : normalize a = normalize b ↔ SameLocation a b := by
  constructor
  · intro h
    refine ⟨(rootSlashes_eq_iff ha hb).1 ?_, ?_⟩
    · rw [← rootSlashes_normalize ha, h, rootSlashes_normalize hb]
    · have hsame : reduce true a.parts = reduce true b.parts := by
        rw [← reduce_parts_normalize ha, h, reduce_parts_normalize hb]
      have hedits (p : Path) : Relation.EqvGen Edit p.parts (reduce true p.parts) :=
        Relation.EqvGen.reflTransGen_le_eqvGen _ _ _ (reflTransGen_reduce fun _ => no_slash_of_mem_parts)
      have hback : Relation.EqvGen Edit (reduce true a.parts) b.parts := by
        rw [hsame]
        exact (hedits b).symm
      exact (hedits a).trans _ _ _ hback
  · rintro ⟨hslashes, hedits⟩
    rw [normalize_of_isAbsolute ha, normalize_of_isAbsolute hb, (rootSlashes_eq_iff ha hb).2 hslashes,
      reduce_eq_of_eqvGen hedits]

end Location

/-- What taking the normal form of an absolute path does. -/
structure NormalizesLocation (a : Path) : Prop where
  idempotent : normalize (normalize a) = normalize a
  /-- In front of a join the normal form is as good as the path. -/
  join_eq : ∀ b, normalize (join (normalize a) b) = normalize (join a b)
  /-- Slashes and then parts, none of which is empty or a step in place or up. -/
  plain_parts : ∃ ps, normalize a = rooted (normalize a).leadingSlashes ps ∧ ∀ p ∈ ps, IsPlain p
  leadingSlashes_eq : (normalize a).leadingSlashes = if a.leadingSlashes = 2 then 2 else 1
  /-- All spellings of a location, and no other paths, have the normal form in common. -/
  eq_iff : ∀ b : Path, b.isAbsolute = true → (normalize a = normalize b ↔ SameLocation a b)

theorem normalizesLocation {a : Path} (ha : a.isAbsolute = true) : a.NormalizesLocation where
  idempotent := (isCanonical_normalize ha).normalize_eq
  join_eq := normalize_join_normalize ha
  plain_parts := by
    refine ⟨reduce true a.parts, ?_, isPlain_of_mem_reduce fun _ => no_slash_of_mem_parts⟩
    rw [leadingSlashes_normalize ha, ← rootSlashes_eq ha]
    exact normalize_of_isAbsolute ha
  leadingSlashes_eq := leadingSlashes_normalize ha
  eq_iff := fun _ hb => normalize_eq_iff ha hb

end Path

/-! ## Seeds, specifiers and ids -/

theorem Builder.seedPath_eq_iff {b : Builder} (hroot : b.root.isAbsolute = true) (s t : Path) :
    b.seedPath s = b.seedPath t ↔ Path.SameLocation (Path.join b.root s) (Path.join b.root t) :=
  Path.normalize_eq_iff (Path.isAbsolute_join hroot s) (Path.isAbsolute_join hroot t)

theorem pathFrom_eq_iff {h : Host} (hhome : h.home.isAbsolute = true) (file s t : Path) :
    pathFrom h file s = pathFrom h file t ↔
      Path.SameLocation (Path.join (h.directoryOf file) s) (Path.join (h.directoryOf file) t) := by
  have hdir : (h.directoryOf file).isAbsolute = true :=
    (Host.isCanonical_directoryOf hhome file).isAbsolute
  have hpath (text : Path) :
      pathFrom h file text = Path.normalize (Path.join (h.directoryOf file) text) := by
    rw [pathFrom, Host.absolute, Path.absolute, if_pos (Path.isAbsolute_join hdir text)]
  rw [hpath, hpath]
  exact Path.normalize_eq_iff (Path.isAbsolute_join hdir s) (Path.isAbsolute_join hdir t)

/-- What a specifier or a name in a document means goes by the path it gives. -/
theorem Reference.resolve_eq_of_pathFrom_eq {h : Host} {file s t : Path}
    (hpath : pathFrom h file s = pathFrom h file t) (workspace : Path) (roots : Crate.Roots) :
    (script s).resolve h workspace roots file = (script t).resolve h workspace roots file ∧
      (document s).resolve h workspace roots file = (document t).resolve h workspace roots file := by
  unfold resolve
  simp only [search, candidates, hpath]
  exact ⟨rfl, rfl⟩

/-- The normal form of an absolute path is its own, is as good as the path in front of a join, has no part
that could be left out, and begins with two slashes exactly if the path begins with exactly two. It is the
same for all spellings of a location and for no others. So two seeds stand for the same path, and two texts
in a file give the same path, exactly if they are spellings of the same location. As specifiers or as names
in a document they then mean the same file. -/
theorem normal_forms_settle_locations (h : Host) (hhome : h.home.isAbsolute = true)
    (workspace file : Path) :
    let b := Builder.ofWorkspace h workspace
    (∀ a : Path, a.isAbsolute = true → a.NormalizesLocation) ∧
    (∀ s t, b.seedPath s = b.seedPath t ↔
      Path.SameLocation (Path.join b.root s) (Path.join b.root t)) ∧
    (∀ s t, pathFrom h file s = pathFrom h file t ↔
      Path.SameLocation (Path.join (h.directoryOf file) s) (Path.join (h.directoryOf file) t)) ∧
    ∀ s t, Path.SameLocation (Path.join (h.directoryOf file) s) (Path.join (h.directoryOf file) t) →
      ∀ roots, (Reference.script s).resolve h b.root roots file =
          (Reference.script t).resolve h b.root roots file ∧
        (Reference.document s).resolve h b.root roots file =
          (Reference.document t).resolve h b.root roots file := by
  intro b
  have hroot : b.root.isAbsolute = true := (Host.isCanonical_absolute hhome workspace).isAbsolute
  refine ⟨fun a ha => Path.normalizesLocation ha, Builder.seedPath_eq_iff hroot,
    pathFrom_eq_iff hhome file, fun s t hsame roots => ?_⟩
  exact Reference.resolve_eq_of_pathFrom_eq ((pathFrom_eq_iff hhome file s t).2 hsame) b.root roots

theorem sameLocation_respelled :
    Path.SameLocation "/w/./a.rs".toList "/w/b/../a.rs".toList := by
  have hskip := Path.Edit.skip [[], "w".toList] ["a.rs".toList] (.inr rfl)
  have hback := Path.Edit.back (x := "b".toList) [[], "w".toList] ["a.rs".toList]
    (.of_no_dot (by decide) (by decide) (by decide))
  have hparts : Path.parts "/w/./a.rs".toList = [[], "w".toList, Path.here, "a.rs".toList] := by decide
  have hparts' : Path.parts "/w/b/../a.rs".toList =
      [[], "w".toList, "b".toList, Path.up, "a.rs".toList] := by decide
  refine ⟨by decide, ?_⟩
  rw [hparts, hparts']
  exact (Relation.EqvGen.rel _ _ hskip).trans _ _ _ (.symm _ _ (.rel _ _ hback))

theorem normal_forms_settle_locations_outerModules :
    let h := outerHost
    let b := Builder.ofWorkspace h "w".toList
    h.home.isAbsolute = true ∧ Path.NormalizesLocation "///w/../x//".toList ∧
      b.seedPath "./a.rs".toList = b.seedPath "b/../a.rs".toList ∧
      pathFrom h "w/c.ts".toList "./a.rs".toList = pathFrom h "w/c.ts".toList "b/../a.rs".toList ∧
      (Reference.script "./a.rs".toList).resolve h b.root [] "w/c.ts".toList =
        (Reference.script "b/../a.rs".toList).resolve h b.root [] "w/c.ts".toList := by
  intro h b
  have hhome : h.home.isAbsolute = true := rfl
  have hroot : b.root = "/w".toList := by cbv
  have hdir : h.directoryOf "w/c.ts".toList = "/w".toList := by cbv
  obtain ⟨hnormal, hseeds, htexts, hreferences⟩ :=
    normal_forms_settle_locations h hhome "w".toList "w/c.ts".toList
  rw [show (Builder.ofWorkspace h "w".toList).root = "/w".toList from hroot] at hseeds hreferences
  rw [hdir] at htexts hreferences
  rw [hroot]
  exact ⟨hhome, hnormal _ (by decide), (hseeds _ _).2 sameLocation_respelled,
    (htexts _ _).2 sameLocation_respelled,
    (hreferences "./a.rs".toList "b/../a.rs".toList sameLocation_respelled []).1⟩

/-- Absolute paths in normal form with as many slashes in front as a directory. -/
structure Path.IsBeside (dir p : Path) : Prop where
  isAbsolute : p.isAbsolute = true
  normalize_eq : normalize p = p
  leadingSlashes_eq : p.leadingSlashes = dir.leadingSlashes

/-- A path beside the workspace has an id, the way to it, and the id stands for the path. -/
theorem Builder.fileId?_of_isBeside (h : Host) {b : Builder} (hroot : b.root.IsCanonical) {p : Path}
    (hp : Path.IsBeside b.root p) :
    b.fileId? h p = some (Path.route b.root p) ∧ b.seedPath (Path.route b.root p) = p := by
  have hcanonical : p.IsCanonical := Path.isCanonical_iff.2 ⟨hp.isAbsolute, hp.normalize_eq⟩
  have hslashes : b.root.rootSlashes = p.rootSlashes := by
    rw [← hroot.leadingSlashes_eq, ← hcanonical.leadingSlashes_eq, hp.leadingSlashes_eq]
  have hid : fileId h b.root p = Path.route b.root p := by
    rw [fileId, Host.absolute_of_isCanonical hcanonical]
  rw [← hid]
  exact ⟨if_neg (Path.ne_nil_of_isAbsolute hp.isAbsolute),
    Builder.seedPath_fileId h hroot hcanonical hslashes⟩

/-- In a workspace that is an absolute path in normal form, every such path with as many slashes in front
has an id, and taken as a seed the id stands for that path again. So no two of these paths have the same
id, wherever they are. -/
theorem ids_lead_back_to_paths (h : Host) (workspace : Path) (habs : workspace.isAbsolute = true)
    (hnormal : Path.normalize workspace = workspace) :
    let b := Builder.ofWorkspace h workspace
    (∀ p, Path.IsBeside workspace p → ∃ id, b.fileId? h p = some id ∧ b.seedPath id = p ∧
      id = Path.route workspace p ∧ Path.normalize (Path.join workspace id) = p) ∧
    ∀ p q, Path.IsBeside workspace p → Path.IsBeside workspace q →
      b.fileId? h p = b.fileId? h q → p = q := by
  intro b
  have hworkspace : workspace.IsCanonical := Path.isCanonical_iff.2 ⟨habs, hnormal⟩
  have hroot : b.root = workspace := Host.absolute_of_isCanonical hworkspace
  have hid : ∀ p, Path.IsBeside workspace p →
      b.fileId? h p = some (Path.route workspace p) ∧ b.seedPath (Path.route workspace p) = p := by
    rw [← hroot] at hworkspace ⊢
    exact fun p hp => Builder.fileId?_of_isBeside h hworkspace hp
  refine ⟨fun p hp => ?_, fun p q hp hq hsame => ?_⟩
  · obtain ⟨hsome, hback⟩ := hid p hp
    refine ⟨_, hsome, hback, rfl, ?_⟩
    rwa [Builder.seedPath, hroot] at hback
  · obtain ⟨hp, hpback⟩ := hid p hp
    obtain ⟨hq, hqback⟩ := hid q hq
    have hroutes : Path.route workspace p = Path.route workspace q :=
      Option.some.inj (hp.symm.trans (hsame.trans hq))
    rw [← hpback, hroutes, hqback]

/-- From a workspace with two slashes in front to a path above it and to one beside it. -/
theorem ids_lead_back_to_paths_outerModules :
    let b := Builder.ofWorkspace outerHost "//w/x".toList
    Path.IsBeside "//w/x".toList "//w".toList ∧ Path.IsBeside "//w/x".toList "//a.rs".toList ∧
      (∃ id, b.fileId? outerHost "//w".toList = some id ∧
        b.seedPath id = "//w".toList) ∧
      (∃ id, b.fileId? outerHost "//a.rs".toList = some id ∧
        b.seedPath id = "//a.rs".toList) ∧
      b.fileId? outerHost "//w".toList ≠
        b.fileId? outerHost "//a.rs".toList := by
  have hup : Path.IsBeside "//w/x".toList "//w".toList := ⟨by decide, by decide, by decide⟩
  have hfile : Path.IsBeside "//w/x".toList "//a.rs".toList := ⟨by decide, by decide, by decide⟩
  obtain ⟨hback, hinjective⟩ := ids_lead_back_to_paths outerHost "//w/x".toList
    (by decide) (by decide)
  obtain ⟨id, hid, hid', -⟩ := hback _ hup
  obtain ⟨id', hid₂, hid₂', -⟩ := hback _ hfile
  refine ⟨hup, hfile, ⟨id, hid, hid'⟩, ⟨id', hid₂, hid₂'⟩, fun hsame => ?_⟩
  exact absurd (hinjective _ _ hup hfile hsame) (by decide)

end ImportAtlas
