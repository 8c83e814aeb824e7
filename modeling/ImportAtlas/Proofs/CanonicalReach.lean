/-
# ImportAtlas.Proofs.CanonicalReach -- every path of a build is canonical

Seeds and specifiers are arbitrary texts, yet every path that a build takes up is absolute and in normal
form. For scripts and documents this is so because the path is normalized before endings are tried on
it. The modules of a crate are never normalized: there it rests on the names of modules, which have
neither slashes nor dots, and on the directories they are looked for in, each of which comes from a
canonical path by steps up and plain parts.

All that is asked of the surroundings is that relative paths start from an absolute one.
-/
import ImportAtlas.Proofs.Extensions
import ImportAtlas.Proofs.Reach
import ImportAtlas.Proofs.Scanning

namespace ImportAtlas

/-! ## Names of modules -/

namespace Crate

open Text

/-- Whether a character can stand in the path of a module. -/
def isModuleChar (c : Char) : Bool := isWordChar c || c = ':'

/-- A name that modules can have. -/
def IsModuleName (name : Path) : Prop := name ≠ [] ∧ ∀ c ∈ name, isModuleChar c = true

theorem IsModuleName.isPlain {name : Path} (hname : IsModuleName name) : name.IsPlain := by
  refine .of_no_dot hname.1 ?_ ?_
  · intro hdot
    exact absurd (hname.2 '.' hdot) (by decide)
  · intro hslash
    exact absurd (hname.2 '/' hslash) (by decide)

theorem isModuleName_modPattern {cs name : List Char} {n : Nat}
    (h : modPattern cs = some (name, n)) : IsModuleName name := by
  unfold modPattern at h
  simp only [Option.bind_eq_bind, Option.bind_eq_some_iff] at h
  obtain ⟨rest, -, ⟨word, rest'⟩, hrun, rest'', -, hname⟩ := h
  obtain rfl : word = name := congrArg Prod.fst (Option.some.inj hname)
  obtain ⟨hne, hword⟩ := run1?_eq_some hrun
  exact ⟨hne, fun c hc => by rw [isModuleChar, hword c hc, Bool.true_or]⟩

theorem isModuleName_usePattern {anchor : Anchor} {cs path : List Char} {n : Nat}
    (h : usePattern anchor cs = some (path, n)) : IsModuleName path := by
  unfold usePattern at h
  simp only [Option.bind_eq_bind, Option.bind_eq_some_iff] at h
  obtain ⟨rest, -, rest', -, ⟨word, rest''⟩, hrun, hpath⟩ := h
  obtain rfl : word = path := congrArg Prod.fst (Option.some.inj hpath)
  exact run1?_eq_some hrun

theorem mem_of_mem_firstSegment {c : Char} {path : Path} (hc : c ∈ firstSegment path) : c ∈ path := by
  fun_induction firstSegment path with
  | case1 => exact hc
  | case2 => cases hc
  | case3 d cs _ ih =>
    rcases List.mem_cons.1 hc with rfl | hc
    · exact List.mem_cons_self
    · exact List.mem_cons_of_mem _ (ih hc)

theorem isModuleName_useImport? {anchor : Anchor} {path : Path} {i : Import}
    (hpath : IsModuleName path) (hi : useImport? anchor path = some i) : IsModuleName i.name := by
  unfold useImport? at hi
  split at hi
  · cases hi
  · next hne =>
    obtain rfl := Option.some.inj hi
    exact ⟨hne, fun c hc => hpath.2 c (mem_of_mem_firstSegment hc)⟩

theorem isModuleName_of_mem_useImports {anchor : Anchor} {text : List Char} {i : Import}
    (hi : i ∈ useImports anchor text) : IsModuleName i.name := by
  obtain ⟨path, hpath, himport⟩ := List.mem_filterMap.1 hi
  obtain ⟨cs, n, hmatch⟩ := exists_match_of_mem_scanLines hpath
  exact isModuleName_useImport? (isModuleName_usePattern hmatch) himport

/-- Whatever a text holds, the modules it refers to have names. -/
theorem isModuleName_of_mem_imports {text : List Char} {i : Import} (hi : i ∈ imports text) :
    IsModuleName i.name := by
  unfold imports at hi
  simp only [List.mem_append] at hi
  rcases hi with ((hi | hi) | hi) | hi
  · obtain ⟨name, hname, rfl⟩ := List.mem_map.1 hi
    obtain ⟨cs, n, hmatch⟩ := exists_match_of_mem_scanLines hname
    exact isModuleName_modPattern hmatch
  · exact isModuleName_of_mem_useImports hi
  · exact isModuleName_of_mem_useImports hi
  · exact isModuleName_of_mem_useImports hi

end Crate

/-! ## Directories -/

theorem Path.isCanonical_of_mem_ancestors {dir d : Path} (hdir : dir.IsCanonical)
    (hd : d ∈ ancestors dir) : d.IsCanonical := by
  fun_induction ancestors dir with
  | case1 => cases hd
  | case2 dir _ ih =>
    rcases List.mem_cons.1 hd with rfl | hd
    · exact hdir
    · exact ih hdir.parent hd

namespace Crate

variable {h : Host} {workspace dir : Path}

theorem isCanonical_source (hdir : dir.IsCanonical) :
    (Path.join dir sourceDirectory).IsCanonical :=
  hdir.join (.of_length (by decide) (by decide))

theorem isCanonical_rootBeside (hdir : dir.IsCanonical) : (rootBeside h dir).IsCanonical := by
  unfold rootBeside
  dsimp only
  split
  · exact isCanonical_source hdir
  · exact hdir

/-- Modules begin in a canonical directory. -/
theorem isCanonical_rootAt (hworkspace : workspace.IsCanonical) (hdir : dir.IsCanonical) :
    ∀ r, rootAt h workspace dir = some r → r.IsCanonical := by
  intro r hr
  unfold rootAt at hr
  split at hr
  · next d hd =>
    obtain rfl := Option.some.inj hr
    exact isCanonical_rootBeside (Path.isCanonical_of_mem_ancestors hdir (List.mem_of_find?_eq_some hd))
  · unfold fallback? at hr
    dsimp only at hr
    split at hr
    · obtain rfl := Option.some.inj hr
      exact isCanonical_source hworkspace
    · cases hr

end Crate

/-! ## Candidates -/

namespace Path

variable {p c dir child : Path}

theorem isCanonical_of_mem_withEndings (hp : p.IsCanonical) {endings : List Path}
    (hends : ∀ e ∈ endings, e = [] ∨ 3 ≤ e.length ∧ '/' ∉ e) (hc : c ∈ withEndings p endings) :
    c.IsCanonical := by
  obtain ⟨e, he, rfl⟩ := List.mem_map.1 hc
  rcases hends e he with rfl | ⟨hlen, hslash⟩
  · rwa [List.append_nil]
  · exact hp.append hlen hslash

theorem isCanonical_of_mem_moduleFiles (hdir : dir.IsCanonical) (hchild : child.IsPlain)
    (hc : c ∈ moduleFiles dir child) : c.IsCanonical := by
  have hfile : (child ++ ".rs".toList).IsPlain := by
    refine .of_length ?_ fun hslash => ?_
    · rw [List.length_append]
      exact Nat.le_add_left 3 _
    · exact (List.mem_append.1 hslash).elim hchild.no_slash (by decide)
  rcases List.mem_cons.1 hc with rfl | hc
  · exact hdir.join hfile
  · rw [List.mem_singleton.1 hc]
    exact (hdir.join hchild).join (.of_length (by decide) (by decide))

end Path

theorem isCanonical_of_mem_scriptCandidates {p c : Path} (hp : p.IsCanonical)
    (hc : c ∈ scriptCandidates p) : c.IsCanonical := by
  have hends : ∀ e ∈ Dialect.scriptExtensions, e = [] ∨ 3 ≤ e.length ∧ '/' ∉ e := by decide
  unfold scriptCandidates at hc
  rw [List.cons_append, List.mem_cons, List.mem_append] at hc
  rcases hc with rfl | hc | hc
  · exact hp
  · exact Path.isCanonical_of_mem_withEndings hp hends hc
  · have hindex : (Path.join p indexName).IsCanonical :=
      hp.join (.of_length (by decide) (by decide))
    exact Path.isCanonical_of_mem_withEndings hindex hends hc

theorem isCanonical_of_mem_documentCandidates {p c : Path} (hp : p.IsCanonical)
    (hc : c ∈ documentCandidates p) : c.IsCanonical :=
  Path.isCanonical_of_mem_withEndings hp (by decide) hc

/-! ## Imports -/

theorem Probe.mem_of_search {probe : Probe} {cs : List Path} {p : Path}
    (hp : (probe.search cs).outcome = some (some p)) : p ∈ cs := by
  induction cs with
  | nil => cases hp
  | cons c cs ih =>
    rw [search] at hp
    split at hp
    · cases hp
    · obtain rfl := Option.some.inj (Option.some.inj hp)
      exact List.mem_cons_self
    · exact List.mem_cons_of_mem _ (ih hp)

/-- What the references of a file are resolved to are candidates for them, by the crate root that is
remembered or found for its directory. -/
theorem exists_candidate_of_mem_resolveEach {h : Host} {workspace file t : Path}
    {roots : Crate.Roots} {refs : List Reference} {ts : List Path}
    (hts : (resolveEach h workspace file roots refs).targets = some ts) (ht : t ∈ ts) :
    ∃ ref ∈ refs, t ∈ ref.candidates h (roots.answer h workspace (h.directoryOf file)) file := by
  induction refs generalizing roots ts with
  | nil =>
    obtain rfl : [] = ts := Option.some.inj hts
    cases ht
  | cons ref refs ih =>
    obtain ⟨hout, hkeep⟩ := Reference.resolve_answer h workspace roots file ref
    rw [resolveEach] at hts
    split at hts
    · cases hts
    · next found hfound =>
      obtain ⟨later, hlater, rfl⟩ := Option.map_eq_some_iff.1 hts
      rcases List.mem_append.1 ht with ht | ht
      · obtain rfl : found = some t := Option.mem_toList.1 ht
        exact ⟨ref, List.mem_cons_self, Probe.mem_of_search (hout.symm.trans hfound)⟩
      · obtain ⟨other, hmem, hcandidate⟩ := ih hlater ht
        rw [hkeep] at hcandidate
        exact ⟨other, List.mem_cons_of_mem _ hmem, hcandidate⟩

/-! ## Surroundings with an absolute home -/

namespace Host

variable {h : Host} {workspace file : Path}

theorem absolute_of_isCanonical {p : Path} (hp : p.IsCanonical) : h.absolute p = p := by
  unfold Host.absolute Path.absolute
  rw [if_pos hp.isAbsolute, hp.normalize_eq]

section Home

variable (hhome : h.home.isAbsolute = true)
include hhome

theorem isCanonical_absolute (p : Path) : (h.absolute p).IsCanonical := by
  unfold Host.absolute Path.absolute
  refine Path.isCanonical_normalize ?_
  split
  · assumption
  · exact Path.isAbsolute_join hhome p

theorem isCanonical_directoryOf (file : Path) : (h.directoryOf file).IsCanonical :=
  (isCanonical_absolute hhome file).parent

theorem isCanonical_submoduleDirectory (hext : file.extension ≠ []) :
    (submoduleDirectory h file).IsCanonical := by
  unfold submoduleDirectory
  split
  · exact isCanonical_directoryOf hhome file
  · exact (isCanonical_directoryOf hhome file).join (Path.isPlain_stem hext)

/-- Every candidate for a reference that stands in a file is canonical. -/
theorem isCanonical_of_mem_candidates {dialect : Dialect} {text : List Char} {ref : Reference}
    {root : Option Path} {c : Path} (hd : Dialect.ofPath? file = some dialect)
    (href : ref ∈ (Reference.extract h dialect file text).1)
    (hroot : ∀ r, root = some r → r.IsCanonical) (hc : c ∈ ref.candidates h root file) :
    c.IsCanonical := by
  cases dialect with
  | script =>
    obtain ⟨specifier, -, rfl⟩ := List.mem_map.1 href
    exact isCanonical_of_mem_scriptCandidates (isCanonical_absolute hhome _) hc
  | graphql =>
    obtain ⟨name, -, rfl⟩ := List.mem_map.1 href
    exact isCanonical_of_mem_documentCandidates (isCanonical_absolute hhome _) hc
  | rust =>
    obtain ⟨⟨name, anchor, full⟩, hi, rfl⟩ := List.mem_map.1 href
    have hname : name.IsPlain := (Crate.isModuleName_of_mem_imports hi).isPlain
    have hdir : (h.directoryOf file).IsCanonical := isCanonical_directoryOf hhome file
    cases anchor with
    | mod => exact Path.isCanonical_of_mem_moduleFiles hdir hname hc
    | super => exact Path.isCanonical_of_mem_moduleFiles hdir.parent hname hc
    | self =>
      exact Path.isCanonical_of_mem_moduleFiles
        (isCanonical_submoduleDirectory hhome (Dialect.extension_ne_nil hd)) hname hc
    | crate =>
      cases root with
      | none => cases hc
      | some r => exact Path.isCanonical_of_mem_moduleFiles (hroot r rfl) hname hc

/-- Whatever a text holds, its imports are resolved to canonical paths if modules begin in a canonical
directory. -/
theorem isCanonical_of_mem_resolveAll {dialect : Dialect} {text : List Char} {roots : Crate.Roots}
    {ts : List Path} (hd : Dialect.ofPath? file = some dialect)
    (hroot : ∀ r, roots.answer h workspace (h.directoryOf file) = some r → r.IsCanonical)
    (hts : (resolveAll h workspace roots dialect file text).targets = some ts) :
    ∀ t ∈ ts, t.IsCanonical := by
  intro t ht
  obtain ⟨ref, href, hcandidate⟩ := exists_candidate_of_mem_resolveEach hts ht
  exact isCanonical_of_mem_candidates hhome hd href hroot hcandidate

theorem isCanonical_of_mem_targetsFrom {roots : Crate.Roots} {p t : Path}
    (hroot : ∀ r, roots.answer h workspace (h.directoryOf p) = some r → r.IsCanonical)
    (ht : t ∈ h.targetsFrom workspace roots p) : t.IsCanonical := by
  unfold targetsFrom at ht
  split at ht
  · next dialect text hd hread =>
    obtain ⟨ht, -⟩ := List.mem_filter.1 ht
    cases hts : (resolveAll h workspace roots dialect p text).targets with
    | none =>
      rw [hts] at ht
      cases ht
    | some ts =>
      rw [hts] at ht
      exact isCanonical_of_mem_resolveAll hhome hd hroot hts t ht
  · cases ht

section Workspace

variable (hworkspace : workspace.IsCanonical)
include hworkspace

theorem isCanonical_of_mem_targets {p t : Path} (ht : t ∈ h.targets workspace p) :
    t.IsCanonical := by
  have hsearch : Crate.Roots.answer h workspace [] = Crate.rootAt h workspace := rfl
  rw [← targetsFrom_eq_targets (congrFun hsearch _)] at ht
  refine isCanonical_of_mem_targetsFrom hhome ?_ ht
  rw [hsearch]
  exact Crate.isCanonical_rootAt hworkspace (isCanonical_directoryOf hhome p)

/-- Every reached path is canonical if the seeds are. -/
theorem isCanonical_of_reach {seeds : List Path} (hseeds : ∀ p ∈ seeds, p.IsCanonical) {p : Path}
    (hp : (h.importMap workspace).Reach seeds p) : p.IsCanonical := by
  cases hp with
  | seed hseed _ => exact hseeds p hseed
  | step _ ht => exact isCanonical_of_mem_targets hhome hworkspace ht

end Workspace

end Home

end Host

theorem Builder.isCanonical_seedPath {b : Builder} (hroot : b.root.IsCanonical) (seed : Path) :
    (b.seedPath seed).IsCanonical :=
  Path.isCanonical_normalize (Path.isAbsolute_join hroot.isAbsolute seed)

/-- Canonical paths have the same id exactly if they are the same or twins. -/
theorem fileId_eq_iff {h : Host} {root p q : Path} (hp : p.IsCanonical) (hq : q.IsCanonical) :
    fileId h root p = fileId h root q ↔ p = q ∨ p = q.twin := by
  unfold fileId
  rw [Host.absolute_of_isCanonical hp, Host.absolute_of_isCanonical hq]
  exact Path.route_eq_iff hp hq

theorem Host.id_importMap_eq_iff (h : Host) (workspace p q : Path) (hp : p.IsCanonical)
    (hq : q.IsCanonical) :
    (h.importMap workspace).id p = (h.importMap workspace).id q ↔ p = q ∨ p = q.twin := by
  show fileId h workspace p = fileId h workspace q ↔ _
  exact fileId_eq_iff hp hq

end ImportAtlas
