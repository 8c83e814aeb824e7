/-
# ImportAtlas.Proofs.Joining -- joined paths and their normal forms

Joining is associative, whatever the paths are (`join_assoc`), and in front of a join an absolute path
may be replaced by its normal form (`normalize_join_normalize`). So a path that is joined several times,
with normal forms taken in between, is settled by the parts alone.

Below a canonical directory a name of plain parts is joined part by part (`join_rooted_unparts`): the
result is canonical, the way to it is the name, and the directory can be told from it.
-/
import ImportAtlas.Proofs.Canonical

namespace ImportAtlas.Path

/-! ## What stands between two paths -/

/-- What a join puts behind a directory: a slash, unless there is one already or nothing at all. -/
def gap (dir : Path) : Path := if dir = [] ∨ dir.getLast? = some '/' then [] else ['/']

theorem join_of_isAbsolute (dir : Path) {p : Path} (hp : p.isAbsolute = true) : join dir p = p :=
  if_pos hp

theorem join_of_relative (dir : Path) {p : Path} (hp : p.isAbsolute = false) :
    join dir p = dir ++ gap dir ++ p := by
  unfold join gap
  rw [hp, if_neg Bool.false_ne_true]
  split
  · rw [List.append_nil]
  · rw [List.append_assoc]
    rfl

theorem gap_append_of_ne_nil (front : Path) {dir : Path} (hne : dir ≠ []) :
    gap (front ++ dir) = gap dir := by
  have hnil : front ++ dir ≠ [] := fun h => hne (List.append_eq_nil_iff.1 h).2
  simp only [gap, List.getLast?_append_of_ne_nil front hne, hne, hnil, false_or]

theorem gap_append_gap (dir : Path) : gap (dir ++ gap dir) = [] := by
  by_cases h : dir = [] ∨ dir.getLast? = some '/'
  · have hgap : gap dir = [] := if_pos h
    rw [hgap, List.append_nil, hgap]
  · have hgap : gap dir = ['/'] := if_neg h
    rw [hgap]
    exact if_pos (.inr List.getLast?_concat)

theorem isAbsolute_append {p : Path} (hne : p ≠ []) (rest : Path) :
    isAbsolute (p ++ rest) = isAbsolute p := by
  obtain ⟨c, cs, rfl⟩ := List.exists_cons_of_ne_nil hne
  rfl

theorem ne_nil_of_isAbsolute {p : Path} (hp : p.isAbsolute = true) : p ≠ [] := by
  rintro rfl
  cases hp

theorem join_assoc (a b c : Path) : join a (join b c) = join (join a b) c := by
  cases hc : c.isAbsolute with
  | true => rw [join_of_isAbsolute b hc, join_of_isAbsolute a hc, join_of_isAbsolute _ hc]
  | false =>
    rw [join_of_relative b hc, join_of_relative _ hc]
    cases hb : b.isAbsolute with
    | true =>
      have habs : isAbsolute (b ++ gap b ++ c) = true := by
        rw [List.append_assoc, isAbsolute_append (ne_nil_of_isAbsolute hb), hb]
      rw [join_of_isAbsolute a hb, join_of_isAbsolute a habs]
    | false =>
      rw [join_of_relative a hb]
      by_cases hne : b = []
      · subst hne
        have hgap : gap ([] : Path) = [] := rfl
        rw [hgap, List.append_nil, List.append_nil, List.nil_append, gap_append_gap, List.append_nil,
          join_of_relative a hc]
      · have hrel : isAbsolute (b ++ gap b ++ c) = false := by
          rw [List.append_assoc, isAbsolute_append hne, hb]
        rw [join_of_relative a hrel, gap_append_of_ne_nil _ hne]
        simp only [List.append_assoc]

/-! ## Normal forms -/

section Normal

variable {a b : Path}

/-- An absolute path ends with an empty part, or a slash is put between it and what is joined to it. -/
theorem foldl_parts_join (ha : a ≠ []) (hb : b.isAbsolute = false) (absolute : Bool)
    (stack : List Path) :
    (join a b).parts.foldl (pushPart absolute) stack =
      b.parts.foldl (pushPart absolute) (a.parts.foldl (pushPart absolute) stack) := by
  rw [join_of_relative a hb]
  by_cases hlast : a.getLast? = some '/'
  · obtain ⟨front, rfl⟩ : ∃ front, a = front ++ ['/'] := List.getLast?_eq_some_iff.1 hlast
    have hgap : gap (front ++ ['/']) = [] := if_pos (.inr hlast)
    have hempty : pushPart absolute (front.parts.foldl (pushPart absolute) stack) [] =
        front.parts.foldl (pushPart absolute) stack := if_pos (.inl rfl)
    rw [hgap, List.append_nil, List.append_assoc, List.singleton_append, parts_append_slash,
      parts_append_slash, List.foldl_append, List.foldl_append]
    exact congrArg (List.foldl (pushPart absolute) · b.parts) hempty.symm
  · have hgap : gap a = ['/'] := if_neg (not_or.2 ⟨ha, hlast⟩)
    rw [hgap, List.append_assoc, List.singleton_append, parts_append_slash, List.foldl_append]

theorem rootSlashes_join (ha : a.isAbsolute = true) (hb : b.isAbsolute = false) :
    (join a b).rootSlashes = a.rootSlashes := by
  have hhead : b.head? ≠ some '/' := of_decide_eq_false hb
  have hb' {c : Char} {cs : Path} (hcons : b = c :: cs) : c ≠ '/' := fun h =>
    hhead (by rw [hcons, h]; rfl)
  obtain ⟨c, rest, rfl⟩ := List.exists_cons_of_ne_nil (ne_nil_of_isAbsolute ha)
  obtain rfl : c = '/' := Option.some.inj (of_decide_eq_true ha)
  rw [join_of_relative _ hb]
  -- The first three characters decide; only the shortest paths leave one of them to what is joined.
  cases rest with
  | nil =>
    show rootSlashes ('/' :: b) = 1
    cases b with
    | nil => rfl
    | cons c cs => simp [rootSlashes, hb' rfl]
  | cons d rest =>
    by_cases hd : d = '/'
    · subst hd
      cases rest with
      | nil =>
        show rootSlashes ('/' :: '/' :: b) = 2
        cases b with
        | nil => rfl
        | cons c cs => simp [rootSlashes, hb' rfl]
      | cons e rest =>
        by_cases he : e = '/'
        · simp [rootSlashes, he]
        · simp [rootSlashes, he]
    · simp [rootSlashes, hd]

theorem rootSlashes_normalize (ha : a.isAbsolute = true) :
    (normalize a).rootSlashes = a.rootSlashes := by
  rw [normalize_of_isAbsolute ha]
  exact rootSlashes_rooted (rootSlashes_of_isAbsolute ha)
    (isPlain_of_mem_reduce fun _ hpart => no_slash_of_mem_parts hpart)

theorem reduce_parts_normalize (ha : a.isAbsolute = true) :
    reduce true (normalize a).parts = reduce true a.parts := by
  have hcanonical := isCanonical_normalize ha
  have hplain (p : Path) : ∀ q ∈ reduce true p.parts, q.IsPlain :=
    isPlain_of_mem_reduce fun _ hpart => no_slash_of_mem_parts hpart
  have hsame := congrArg steps hcanonical.normalize_eq
  rw [normalize_of_isAbsolute hcanonical.isAbsolute, steps_rooted _ (hplain _)] at hsame
  rw [hsame, normalize_of_isAbsolute ha, steps_rooted _ (hplain _)]

/-- In front of a join an absolute path may be replaced by its normal form. -/
theorem normalize_join_normalize (ha : a.isAbsolute = true) (b : Path) :
    normalize (join (normalize a) b) = normalize (join a b) := by
  cases hb : b.isAbsolute with
  | true => rw [join_of_isAbsolute _ hb, join_of_isAbsolute _ hb]
  | false =>
    have hnormal := (isCanonical_normalize ha).isAbsolute
    have hfold : (normalize a).parts.foldl (pushPart true) [] = a.parts.foldl (pushPart true) [] :=
      List.reverse_injective (reduce_parts_normalize ha)
    rw [normalize_of_isAbsolute (isAbsolute_join hnormal b),
      normalize_of_isAbsolute (isAbsolute_join ha b), rootSlashes_join hnormal hb,
      rootSlashes_join ha hb, rootSlashes_normalize ha, reduce, reduce,
      foldl_parts_join (ne_nil_of_isAbsolute hnormal) hb, foldl_parts_join (ne_nil_of_isAbsolute ha) hb,
      hfold]

end Normal

/-! ## Names below a directory -/

/-- The name of something below a directory: plain parts with a slash between two. -/
inductive IsInner : Path → Prop
  | mk {ps : List Path} : ps ≠ [] → (∀ p ∈ ps, IsPlain p) → IsInner (unparts ps)

theorem IsInner.isAbsolute_eq {name : Path} (hname : name.IsInner) : name.isAbsolute = false := by
  obtain ⟨-, hps⟩ := hname
  exact decide_eq_false (head?_unparts hps)

theorem join_isPlain {x : Path} (hx : x.IsPlain) {ps : List Path} (hne : ps ≠ [])
    (hps : ∀ p ∈ ps, IsPlain p) : join x (unparts ps) = unparts (x :: ps) := by
  have hgap : gap x = ['/'] := by
    refine if_neg (not_or.2 ⟨hx.ne_nil, fun hlast => ?_⟩)
    exact hx.no_slash (List.mem_of_getLast? hlast)
  obtain ⟨p, qs, rfl⟩ := List.exists_cons_of_ne_nil hne
  rw [join_of_relative x (IsInner.mk hne hps).isAbsolute_eq, hgap, List.append_assoc]
  rfl

theorem join_rooted_unparts {k : Nat} (hk : k = 1 ∨ k = 2) {ps qs : List Path}
    (hps : ∀ p ∈ ps, IsPlain p) (hqs : ∀ q ∈ qs, IsPlain q) (hne : qs ≠ []) :
    join (rooted k ps) (unparts qs) = rooted k (ps ++ qs) := by
  induction qs generalizing ps with
  | nil => exact absurd rfl hne
  | cons x qs ih =>
    have hx : IsPlain x := hqs x List.mem_cons_self
    have hrest : ∀ q ∈ qs, IsPlain q := fun q hq => hqs q (List.mem_cons_of_mem _ hq)
    by_cases hnil : qs = []
    · subst hnil
      exact join_rooted hk hps hx
    · have hps' : ∀ p ∈ ps ++ [x], IsPlain p := by
        intro p hp
        rcases List.mem_append.1 hp with hp | hp
        · exact hps p hp
        · rw [List.mem_singleton.1 hp]
          exact hx
      rw [← join_isPlain hx hnil hrest, join_assoc, join_rooted hk hps hx, ih hps' hrest hnil,
        List.append_assoc]
      rfl

theorem dropCommon_append (ps qs : List Path) : dropCommon ps (ps ++ qs) = ([], qs) := by
  induction ps with
  | nil => cases qs <;> rfl
  | cons p ps ih => rw [List.cons_append, dropCommon, if_pos rfl, ih]

section Inner

variable {dir name : Path} (hdir : dir.IsCanonical) (hname : name.IsInner)
include hdir hname

theorem exists_join_eq_rooted : ∃ k ps qs, (k = 1 ∨ k = 2) ∧ (∀ p ∈ ps ++ qs, IsPlain p) ∧ qs ≠ [] ∧
    dir = rooted k ps ∧ name = unparts qs ∧ join dir name = rooted k (ps ++ qs) := by
  obtain ⟨hk, hps⟩ := hdir
  obtain ⟨hne, hqs⟩ := hname
  refine ⟨_, _, _, hk, ?_, hne, rfl, rfl, join_rooted_unparts hk hps hqs hne⟩
  intro p hp
  rcases List.mem_append.1 hp with hp | hp
  · exact hps p hp
  · exact hqs p hp

theorem isCanonical_join : (join dir name).IsCanonical := by
  obtain ⟨k, ps, qs, hk, hplain, -, -, -, hjoin⟩ := exists_join_eq_rooted hdir hname
  rw [hjoin]
  exact .mk hk hplain

/-- The way from a directory to what is below it is its name. -/
theorem route_join : route dir (join dir name) = name := by
  obtain ⟨k, ps, qs, hk, hplain, hne, hdir, hname, hjoin⟩ := exists_join_eq_rooted hdir hname
  have hps : ∀ p ∈ ps, IsPlain p := fun p hp => hplain p (List.mem_append_left _ hp)
  have hway : way dir (join dir name) = qs := by
    rw [way, hjoin, hdir, steps_rooted _ hps, steps_rooted _ hplain, dropCommon_append]
    rfl
  rw [route_eq, hway, if_neg hne, hname]

/-- The directory can be told from what is below it by a known name. -/
theorem join_eq_join_iff {other : Path} (hother : other.IsCanonical) :
    join dir name = join other name ↔ dir = other := by
  refine ⟨fun h => ?_, fun h => by rw [h]⟩
  obtain ⟨k, ps, qs, hk, hplain, hne, hdir, hname, hjoin⟩ := exists_join_eq_rooted hdir hname
  subst hname
  obtain ⟨hj, hps'⟩ := hother
  rename_i j ps'
  have hqs : ∀ q ∈ qs, IsPlain q := fun q hq => hplain q (List.mem_append_right _ hq)
  have hplain' : ∀ p ∈ ps' ++ qs, IsPlain p := by
    intro p hp
    rcases List.mem_append.1 hp with hp | hp
    · exact hps' p hp
    · exact hqs p hp
  rw [hjoin, join_rooted_unparts hj hps' hqs hne] at h
  have hslashes := congrArg rootSlashes h
  have hsteps := congrArg steps h
  rw [rootSlashes_rooted hk hplain, rootSlashes_rooted hj hplain'] at hslashes
  rw [steps_rooted _ hplain, steps_rooted _ hplain'] at hsteps
  rw [hdir, hslashes, List.append_cancel_right hsteps]

end Inner

/-! ## Going the way -/

/-- As many steps up as there are parts on top of a stack take these parts off. -/
theorem foldl_pushPart_up {top : List Path} (htop : ∀ p ∈ top, IsPlain p) (rest : List Path) :
    (List.replicate top.length up).foldl (pushPart true) (top ++ rest) = rest := by
  induction top with
  | nil => rfl
  | cons p top ih =>
    have hstep : pushPart true (p :: (top ++ rest)) up = top ++ rest := by
      simp [pushPart, (htop p List.mem_cons_self).ne_up, show up ≠ [] by decide,
        show up ≠ here by decide]
    rw [List.length_cons, List.replicate_succ, List.cons_append, List.foldl_cons, hstep]
    exact ih fun q hq => htop q (List.mem_cons_of_mem _ hq)

section Way

variable (dir : Path) {p : Path} (hp : ∀ s ∈ p.steps, s.IsPlain)
include hp

theorem isAbsolute_route : (route dir p).isAbsolute = false := by
  have hparts : (route dir p).parts = _ := parts_route hp
  apply decide_eq_false
  intro hhead
  -- A path with a slash in front has an empty first part, and no part of a way is empty.
  obtain ⟨rest, hrest⟩ := List.head?_eq_some_iff.1 hhead
  rw [hrest, parts_slash] at hparts
  split at hparts
  · cases hparts
  · have hmem : [] ∈ way dir p := by
      rw [← hparts]
      exact List.mem_cons_self
    rcases mem_way hp hmem with h | h
    · cases h
    · exact h.ne_nil rfl

/-- To go nowhere is a step in place. -/
theorem foldl_parts_route (absolute : Bool) (stack : List Path) :
    (route dir p).parts.foldl (pushPart absolute) stack =
      (way dir p).foldl (pushPart absolute) stack := by
  have hparts : (route dir p).parts = _ := parts_route hp
  rw [hparts]
  split
  · next hnil =>
    rw [hnil]
    show pushPart absolute stack here = stack
    exact if_pos (Or.inr rfl)
  · rfl

end Way

/-- The way from a directory leads back to where it was taken to, if both have as many slashes in front:
the steps up take off what they do not share. -/
theorem normalize_join_route {dir p : Path} (hdir : dir.IsCanonical) (hp : p.IsCanonical)
    (hslashes : dir.rootSlashes = p.rootSlashes) : normalize (join dir (route dir p)) = p := by
  have habs := hdir.isAbsolute
  have hplain := hp.isPlain_steps
  have hrelative := isAbsolute_route dir hplain
  rw [normalize_of_isAbsolute (isAbsolute_join habs _), rootSlashes_join habs hrelative, reduce,
    foldl_parts_join (ne_nil_of_isAbsolute habs) hrelative, foldl_parts_route dir hplain, hslashes]
  obtain ⟨hk, hps⟩ := hp
  obtain ⟨-, hds⟩ := hdir
  rename_i k ps j ds
  have hstack : (rooted j ds).parts.foldl (pushPart true) [] = ds.reverse :=
    List.reverse_eq_iff.1 (reduce_parts_rooted j hds)
  obtain ⟨common, hcommon, hcommon'⟩ := exists_common ds ps
  have haway : ∀ q ∈ (dropCommon ds ps).1.reverse, IsPlain q := by
    intro q hq
    apply hds
    rw [hcommon]
    exact List.mem_append_right _ (List.mem_reverse.1 hq)
  have htoward : ∀ q ∈ (dropCommon ds ps).2, IsPlain q := by
    intro q hq
    apply hps
    rw [hcommon']
    exact List.mem_append_right _ hq
  have hup := foldl_pushPart_up haway common.reverse
  rw [List.length_reverse, ← List.reverse_append, ← hcommon] at hup
  rw [way, steps_rooted _ hds, steps_rooted _ hps, hstack, rootSlashes_rooted hk hps,
    List.foldl_append, hup, foldl_pushPart_of_isPlain htoward, ← List.reverse_append, ← hcommon',
    List.reverse_reverse]

theorem IsCanonical.rootSlashes_twin_ne {p : Path} (hp : p.IsCanonical) :
    p.twin.rootSlashes ≠ p.rootSlashes := by
  obtain ⟨rfl | rfl, hps⟩ := hp
  · rw [twin_rooted_one hps, rootSlashes_rooted (.inr rfl) hps, rootSlashes_rooted (.inl rfl) hps]
    decide
  · rw [twin_rooted_two, rootSlashes_rooted (.inl rfl) hps, rootSlashes_rooted (.inr rfl) hps]
    decide

end ImportAtlas.Path
