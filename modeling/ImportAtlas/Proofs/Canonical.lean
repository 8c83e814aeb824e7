/-
# ImportAtlas.Proofs.Canonical -- absolute paths in normal form

A part of a path is plain if it stands for itself: it is not empty, no step in place or up, and has no
slash inside. An absolute path in normal form is one or two slashes and then plain parts with a slash
between two (`IsCanonical`). These are the paths that `normalize` makes of absolute ones, and it leaves
them as they are.

A canonical path is determined by the way to it from a directory, but for the number of its slashes:
`route` looks at the parts only. So two canonical paths with the same way are the same or twins, one
with a slash in front and one with two (`route_eq_iff`).
-/
import Mathlib.Data.List.Basic
import ImportAtlas.Path

namespace ImportAtlas.Path

/-! ## Parts -/

theorem parts_ne_nil (p : Path) : p.parts ≠ [] := by
  cases p with
  | nil => exact List.cons_ne_nil _ _
  | cons c cs =>
    rw [parts]
    split
    · exact List.cons_ne_nil _ _
    · split <;> exact List.cons_ne_nil _ _

theorem parts_slash (p : Path) : parts ('/' :: p) = [] :: parts p := by
  rw [parts, if_pos rfl]

theorem parts_cons {c : Char} (hc : c ≠ '/') {cs part : Path} {rest : List Path}
    (h : cs.parts = part :: rest) : parts (c :: cs) = (c :: part) :: rest := by
  rw [parts, if_neg hc, h]

theorem no_slash_of_mem_parts {p part : Path} (hpart : part ∈ p.parts) : '/' ∉ part := by
  induction p generalizing part with
  | nil =>
    rw [List.mem_singleton.1 hpart]
    exact List.not_mem_nil
  | cons c cs ih =>
    by_cases hc : c = '/'
    · subst hc
      rw [parts_slash] at hpart
      rcases List.mem_cons.1 hpart with rfl | hpart
      · exact List.not_mem_nil
      · exact ih hpart
    · obtain ⟨first, rest, hcs⟩ := List.exists_cons_of_ne_nil (parts_ne_nil cs)
      rw [parts_cons hc hcs] at hpart
      rw [hcs] at ih
      rcases List.mem_cons.1 hpart with rfl | hpart
      · intro hslash
        rcases List.mem_cons.1 hslash with h | h
        · exact hc h.symm
        · exact ih List.mem_cons_self h
      · exact ih (List.mem_cons_of_mem _ hpart)

theorem parts_of_no_slash {p : Path} (hp : '/' ∉ p) : p.parts = [p] := by
  induction p with
  | nil => rfl
  | cons c cs ih =>
    rw [List.mem_cons, not_or] at hp
    exact parts_cons (Ne.symm hp.1) (ih hp.2)

theorem parts_append_slash (p q : Path) : parts (p ++ '/' :: q) = p.parts ++ q.parts := by
  induction p with
  | nil => exact parts_slash q
  | cons c cs ih =>
    by_cases hc : c = '/'
    · subst hc
      rw [List.cons_append, parts_slash, parts_slash, ih]
      rfl
    · obtain ⟨first, rest, hcs⟩ := List.exists_cons_of_ne_nil (parts_ne_nil cs)
      rw [hcs] at ih
      rw [List.cons_append, parts_cons hc ih, parts_cons hc hcs]
      rfl

theorem parts_unparts {ps : List Path} (hne : ps ≠ []) (hps : ∀ p ∈ ps, '/' ∉ p) :
    (unparts ps).parts = ps := by
  induction ps with
  | nil => exact absurd rfl hne
  | cons p ps ih =>
    have hp : p.parts = [p] := parts_of_no_slash (hps p List.mem_cons_self)
    cases ps with
    | nil => exact hp
    | cons q qs =>
      rw [unparts, parts_append_slash, hp,
        ih (List.cons_ne_nil _ _) fun r hr => hps r (List.mem_cons_of_mem _ hr)]
      rfl

theorem unparts_concat {ps : List Path} (hne : ps ≠ []) (x : Path) :
    unparts (ps ++ [x]) = unparts ps ++ '/' :: x := by
  induction ps with
  | nil => exact absurd rfl hne
  | cons p ps ih =>
    cases ps with
    | nil => rfl
    | cons q qs =>
      show p ++ '/' :: unparts (q :: qs ++ [x]) = _
      rw [ih (List.cons_ne_nil _ _), unparts, List.append_assoc]
      rfl

/-! ## Plain parts -/

/-- A part that stands for itself. -/
structure IsPlain (part : Path) : Prop where
  ne_nil : part ≠ []
  ne_here : part ≠ here
  ne_up : part ≠ up
  no_slash : '/' ∉ part

/-- A part of three characters is no step in place or up. -/
theorem IsPlain.of_length {part : Path} (hlen : 3 ≤ part.length) (hslash : '/' ∉ part) :
    part.IsPlain := by
  refine ⟨?_, ?_, ?_, hslash⟩
  · rintro rfl
    exact absurd hlen (by decide)
  · rintro rfl
    exact absurd hlen (by decide)
  · rintro rfl
    exact absurd hlen (by decide)

/-- A part without dots is no step in place or up. -/
theorem IsPlain.of_no_dot {part : Path} (hne : part ≠ []) (hdot : '.' ∉ part)
    (hslash : '/' ∉ part) : part.IsPlain := by
  refine ⟨hne, ?_, ?_, hslash⟩
  · rintro rfl
    exact hdot (by decide)
  · rintro rfl
    exact hdot (by decide)

theorem pushPart_of_isPlain {part : Path} (hpart : part.IsPlain) (absolute : Bool)
    (stack : List Path) : pushPart absolute stack part = part :: stack := by
  unfold pushPart
  rw [if_neg fun h => h.elim hpart.ne_nil hpart.ne_here, if_pos hpart.ne_up]

theorem foldl_pushPart_of_isPlain {ps : List Path} (hps : ∀ p ∈ ps, p.IsPlain) (absolute : Bool)
    (stack : List Path) : ps.foldl (pushPart absolute) stack = ps.reverse ++ stack := by
  induction ps generalizing stack with
  | nil => rfl
  | cons p ps ih =>
    rw [List.foldl_cons, pushPart_of_isPlain (hps p List.mem_cons_self),
      ih fun q hq => hps q (List.mem_cons_of_mem _ hq), List.reverse_cons, List.append_assoc]
    rfl

theorem reduce_of_isPlain {ps : List Path} (hps : ∀ p ∈ ps, p.IsPlain) (absolute : Bool) :
    reduce absolute ps = ps := by
  rw [reduce, foldl_pushPart_of_isPlain hps, List.append_nil, List.reverse_reverse]

/-- Below the root of an absolute path only plain parts are kept: there is nothing to step up from. -/
theorem isPlain_pushPart {stack : List Path} (hstack : ∀ q ∈ stack, q.IsPlain) {part : Path}
    (hpart : '/' ∉ part) : ∀ q ∈ pushPart true stack part, q.IsPlain := by
  intro q hq
  unfold pushPart at hq
  split at hq
  · exact hstack q hq
  · next hkeep =>
    rw [not_or] at hkeep
    split at hq
    · next hup =>
      rcases List.mem_cons.1 hq with rfl | hq
      · exact ⟨hkeep.1, hkeep.2, hup, hpart⟩
      · exact hstack q hq
    · split at hq
      · cases hq
      · next top rest =>
        rw [if_neg (hstack top List.mem_cons_self).ne_up] at hq
        exact hstack q (List.mem_cons_of_mem _ hq)

theorem isPlain_of_mem_reduce {ps : List Path} (hps : ∀ p ∈ ps, '/' ∉ p) :
    ∀ q ∈ reduce true ps, q.IsPlain := by
  suffices hfold : ∀ stack : List Path, (∀ q ∈ stack, q.IsPlain) →
      ∀ q ∈ ps.foldl (pushPart true) stack, q.IsPlain by
    intro q hq
    exact hfold [] (fun r hr => nomatch hr) q (List.mem_reverse.1 hq)
  induction ps with
  | nil => exact fun stack hstack => hstack
  | cons p ps ih =>
    intro stack hstack
    exact ih (fun r hr => hps r (List.mem_cons_of_mem _ hr)) _
      (isPlain_pushPart hstack (hps p List.mem_cons_self))

/-! ## Canonical paths -/

/-- Some parts below a root of some slashes. -/
def rooted (slashes : Nat) (ps : List Path) : Path := List.replicate slashes '/' ++ unparts ps

/-- Absolute paths in normal form. -/
inductive IsCanonical : Path → Prop
  | mk {k : Nat} {ps : List Path} :
      k = 1 ∨ k = 2 → (∀ p ∈ ps, IsPlain p) → IsCanonical (rooted k ps)

section Rooted

variable {k : Nat} {ps : List Path}

theorem parts_rooted (k : Nat) (ps : List Path) :
    (rooted k ps).parts = List.replicate k [] ++ (unparts ps).parts := by
  induction k with
  | zero => rfl
  | succ k ih =>
    rw [rooted, List.replicate_succ, List.cons_append, parts_slash]
    exact congrArg ([] :: ·) ih

theorem steps_rooted (k : Nat) (hps : ∀ p ∈ ps, IsPlain p) : (rooted k ps).steps = ps := by
  have hempty : (List.replicate k ([] : Path)).filter (· ≠ []) = [] := by simp
  rw [steps, parts_rooted, List.filter_append, hempty, List.nil_append]
  by_cases hne : ps = []
  · subst hne
    rfl
  · rw [parts_unparts hne fun p hp => (hps p hp).no_slash, List.filter_eq_self]
    exact fun p hp => decide_eq_true (hps p hp).ne_nil

theorem reduce_parts_rooted (k : Nat) (hps : ∀ p ∈ ps, IsPlain p) :
    reduce true (rooted k ps).parts = ps := by
  have hskip : ∀ rest, reduce true (List.replicate k [] ++ rest) = reduce true rest := by
    intro rest
    induction k with
    | zero => rfl
    | succ k ih => exact ih
  rw [parts_rooted, hskip]
  by_cases hne : ps = []
  · subst hne
    rfl
  · rw [parts_unparts hne fun p hp => (hps p hp).no_slash]
    exact reduce_of_isPlain hps true

theorem head?_unparts (hps : ∀ p ∈ ps, IsPlain p) : (unparts ps).head? ≠ some '/' := by
  cases ps with
  | nil => exact fun h => nomatch h
  | cons p rest =>
    have hp : IsPlain p := hps p List.mem_cons_self
    obtain ⟨c, cs, rfl⟩ := List.exists_cons_of_ne_nil hp.ne_nil
    have hc : c ≠ '/' := fun h => hp.no_slash (h ▸ List.mem_cons_self)
    cases rest with
    | nil => exact fun h => hc (Option.some.inj h)
    | cons q qs => exact fun h => hc (Option.some.inj h)

theorem rootSlashes_rooted (hk : k = 1 ∨ k = 2) (hps : ∀ p ∈ ps, IsPlain p) :
    (rooted k ps).rootSlashes = k := by
  have hhead : (unparts ps).head? ≠ some '/' := head?_unparts hps
  rcases hk with rfl | rfl
  · show rootSlashes ('/' :: unparts ps) = 1
    cases hrest : unparts ps with
    | nil => rfl
    | cons c cs =>
      rw [hrest] at hhead
      have hc : c ≠ '/' := fun h => hhead (congrArg some h)
      simp [rootSlashes, hc]
  · show rootSlashes ('/' :: '/' :: unparts ps) = 2
    cases hrest : unparts ps with
    | nil => rfl
    | cons c cs =>
      rw [hrest] at hhead
      have hc : c ≠ '/' := fun h => hhead (congrArg some h)
      simp [rootSlashes, hc]

theorem isAbsolute_rooted (hk : k = 1 ∨ k = 2) (ps : List Path) : (rooted k ps).isAbsolute = true := by
  rcases hk with rfl | rfl <;> rfl

end Rooted

theorem IsCanonical.isAbsolute {p : Path} (hp : p.IsCanonical) : p.isAbsolute = true := by
  obtain ⟨hk, -⟩ := hp
  exact isAbsolute_rooted hk _

theorem IsCanonical.isPlain_steps {p : Path} (hp : p.IsCanonical) : ∀ s ∈ p.steps, s.IsPlain := by
  obtain ⟨hk, hps⟩ := hp
  rwa [steps_rooted _ hps]

theorem rootSlashes_of_isAbsolute {p : Path} (hp : p.isAbsolute = true) :
    p.rootSlashes = 1 ∨ p.rootSlashes = 2 := by
  have hhead : p.head? = some '/' := of_decide_eq_true hp
  cases p with
  | nil => cases hhead
  | cons c cs =>
    obtain rfl : c = '/' := Option.some.inj hhead
    unfold rootSlashes
    split <;> simp_all

theorem normalize_of_isAbsolute {p : Path} (hp : p.isAbsolute = true) :
    normalize p = rooted p.rootSlashes (reduce true p.parts) := by
  unfold normalize rooted
  rcases rootSlashes_of_isAbsolute hp with h | h <;> rw [h] <;> rfl

/-- The normal form of an absolute path is canonical. -/
theorem isCanonical_normalize {p : Path} (hp : p.isAbsolute = true) : (normalize p).IsCanonical := by
  rw [normalize_of_isAbsolute hp]
  exact .mk (rootSlashes_of_isAbsolute hp)
    (isPlain_of_mem_reduce fun _ hpart => no_slash_of_mem_parts hpart)

/-- A canonical path is its own normal form. -/
theorem IsCanonical.normalize_eq {p : Path} (hp : p.IsCanonical) : normalize p = p := by
  rw [normalize_of_isAbsolute hp.isAbsolute]
  obtain ⟨hk, hps⟩ := hp
  rw [rootSlashes_rooted hk hps, reduce_parts_rooted _ hps]

theorem isCanonical_iff {p : Path} : p.IsCanonical ↔ p.isAbsolute = true ∧ normalize p = p := by
  constructor
  · intro hp
    exact ⟨hp.isAbsolute, hp.normalize_eq⟩
  · rintro ⟨habs, hfix⟩
    rw [← hfix]
    exact isCanonical_normalize habs

theorem isAbsolute_join {dir : Path} (hdir : dir.isAbsolute = true) (p : Path) :
    (join dir p).isAbsolute = true := by
  cases dir with
  | nil => cases hdir
  | cons c cs =>
    unfold join
    split
    · assumption
    · split <;> exact hdir

/-! ## One part more or less -/

section Concat

variable {k : Nat} {ps : List Path} {x : Path}

theorem rooted_concat_of_ne_nil (hne : ps ≠ []) (k : Nat) (x : Path) :
    rooted k (ps ++ [x]) = rooted k ps ++ '/' :: x := by
  rw [rooted, unparts_concat hne, ← List.append_assoc]
  rfl

/-- The last character of a canonical path with parts is that of a part. -/
theorem getLast?_rooted (hne : ps ≠ []) (hps : ∀ p ∈ ps, IsPlain p) :
    (rooted k ps).getLast? ≠ some '/' := by
  obtain ⟨qs, y, rfl⟩ := (List.eq_nil_or_concat' ps).resolve_left hne
  have hy : IsPlain y := hps y (List.mem_append_right _ List.mem_cons_self)
  obtain ⟨front, hfront⟩ : ∃ front, rooted k (qs ++ [y]) = front ++ y := by
    by_cases hqs : qs = []
    · subst hqs
      exact ⟨List.replicate k '/', rfl⟩
    · refine ⟨rooted k qs ++ ['/'], ?_⟩
      rw [rooted_concat_of_ne_nil hqs, List.append_assoc]
      rfl
  rw [hfront, List.getLast?_append_of_ne_nil _ hy.ne_nil]
  exact fun h => hy.no_slash (List.mem_of_getLast? h)

theorem join_rooted (hk : k = 1 ∨ k = 2) (hps : ∀ p ∈ ps, IsPlain p) (hx : IsPlain x) :
    join (rooted k ps) x = rooted k (ps ++ [x]) := by
  have hrelative : ¬ x.isAbsolute = true := fun h =>
    hx.no_slash (List.mem_of_head? (of_decide_eq_true h))
  unfold join
  rw [if_neg hrelative]
  by_cases hne : ps = []
  · subst hne
    have hlast : (rooted k []).getLast? = some '/' := by rcases hk with rfl | rfl <;> rfl
    rw [if_pos (Or.inr hlast), rooted, unparts, List.append_nil]
    rfl
  · have hroot : rooted k ps ≠ [] := by rcases hk with rfl | rfl <;> exact List.cons_ne_nil _ _
    rw [if_neg fun h => h.elim hroot (getLast?_rooted hne hps), rooted_concat_of_ne_nil hne]

theorem reverse_append_slash (head x : Path) :
    (head ++ '/' :: x).reverse = x.reverse ++ '/' :: head.reverse := by simp

theorem forall_mem_reverse_ne_slash (hx : '/' ∉ x) :
    ∀ c ∈ x.reverse, decide (c ≠ '/') = true := by
  intro c hc
  refine decide_eq_true fun h => hx ?_
  rw [← h]
  exact List.mem_reverse.1 hc

/-- What stands before the last slash, without slashes at its end unless there is nothing else. -/
theorem parent_append_slash (head : Path) (hx : '/' ∉ x) :
    parent (head ++ '/' :: x) =
      if head.all (· = '/') then head ++ ['/'] else (head.reverse.dropWhile (· = '/')).reverse := by
  rw [parent, reverse_append_slash, List.dropWhile_append_of_pos (forall_mem_reverse_ne_slash hx)]
  simp

theorem parent_rooted_concat (hk : k = 1 ∨ k = 2) (hps : ∀ p ∈ ps, IsPlain p) (hx : IsPlain x) :
    parent (rooted k (ps ++ [x])) = rooted k ps := by
  by_cases hne : ps = []
  · subst hne
    rcases hk with rfl | rfl
    · exact parent_append_slash [] hx.no_slash
    · exact parent_append_slash ['/'] hx.no_slash
  · -- Neither is the path before the last slash made of slashes only, nor does it end with one.
    have hlast : (rooted k ps).getLast? ≠ some '/' := getLast?_rooted hne hps
    have hroot : rooted k ps ≠ [] := by rcases hk with rfl | rfl <;> exact List.cons_ne_nil _ _
    obtain ⟨front, c, hfront⟩ := (List.eq_nil_or_concat' (rooted k ps)).resolve_left hroot
    have hc : c ≠ '/' := by
      intro h
      rw [hfront, h] at hlast
      exact hlast (by simp)
    rw [rooted_concat_of_ne_nil hne, parent_append_slash _ hx.no_slash, hfront]
    simp [hc]

theorem parent_rooted_nil (hk : k = 1 ∨ k = 2) : parent (rooted k []) = rooted k [] := by
  rcases hk with rfl | rfl <;> rfl

end Concat

namespace IsCanonical

variable {p x : Path}

theorem join (hp : p.IsCanonical) (hx : x.IsPlain) : (Path.join p x).IsCanonical := by
  obtain ⟨hk, hps⟩ := hp
  rw [join_rooted hk hps hx]
  refine .mk hk fun q hq => ?_
  rcases List.mem_append.1 hq with hq | hq
  · exact hps q hq
  · rw [List.mem_singleton.1 hq]
    exact hx

theorem parent (hp : p.IsCanonical) : p.parent.IsCanonical := by
  obtain ⟨hk, hps⟩ := hp
  rename_i k ps
  rcases List.eq_nil_or_concat' ps with rfl | ⟨qs, y, rfl⟩
  · rw [parent_rooted_nil hk]
    exact .mk hk hps
  · have hqs : ∀ q ∈ qs, IsPlain q := fun q hq => hps q (List.mem_append_left _ hq)
    rw [parent_rooted_concat hk hqs (hps y (List.mem_append_right _ List.mem_cons_self))]
    exact .mk hk hqs

/-- An ending such as an extension goes to the last part. -/
theorem append (hp : p.IsCanonical) (hlen : 3 ≤ x.length) (hx : '/' ∉ x) :
    (p ++ x).IsCanonical := by
  obtain ⟨hk, hps⟩ := hp
  rename_i k ps
  rcases List.eq_nil_or_concat' ps with rfl | ⟨qs, y, rfl⟩
  · have htext : rooted k [] ++ x = rooted k [x] := by
      rw [rooted, unparts, List.append_nil]
      rfl
    rw [htext]
    refine .mk hk fun q hq => ?_
    rw [List.mem_singleton.1 hq]
    exact .of_length hlen hx
  · have hy : IsPlain y := hps y (List.mem_append_right _ List.mem_cons_self)
    have htext : rooted k (qs ++ [y]) ++ x = rooted k (qs ++ [y ++ x]) := by
      by_cases hne : qs = []
      · subst hne
        exact List.append_assoc _ _ _
      · rw [rooted_concat_of_ne_nil hne, rooted_concat_of_ne_nil hne, List.append_assoc]
        rfl
    rw [htext]
    refine .mk hk fun q hq => ?_
    rcases List.mem_append.1 hq with hq | hq
    · exact hps q (List.mem_append_left _ hq)
    · rw [List.mem_singleton.1 hq]
      refine .of_length ?_ fun h => (List.mem_append.1 h).elim hy.no_slash hx
      rw [List.length_append]
      omega

end IsCanonical

/-! ## Ways between paths -/

/-- The parts of the way from a directory to a path. -/
def way (dir p : Path) : List Path :=
  List.replicate (dropCommon dir.steps p.steps).1.length up ++ (dropCommon dir.steps p.steps).2

theorem route_eq (dir p : Path) :
    route dir p = if way dir p = [] then here else unparts (way dir p) := by
  unfold route way
  dsimp only
  split
  · next hnil => rw [if_pos hnil]
  · next hne => rw [if_neg hne]

theorem exists_common (as bs : List Path) :
    ∃ common, as = common ++ (dropCommon as bs).1 ∧ bs = common ++ (dropCommon as bs).2 := by
  fun_induction dropCommon as bs with
  | case1 as b bs ih =>
    obtain ⟨common, has, hbs⟩ := ih
    exact ⟨b :: common, congrArg (b :: ·) has, congrArg (b :: ·) hbs⟩
  | case2 a as b bs hab => exact ⟨[], rfl, rfl⟩
  | case3 as bs _ => exact ⟨[], rfl, rfl⟩

section Way

variable {dir p q : Path}

theorem mem_steps_of_mem_dropCommon {s : Path} (hs : s ∈ (dropCommon dir.steps p.steps).2) :
    s ∈ p.steps := by
  obtain ⟨common, -, hcommon⟩ := exists_common dir.steps p.steps
  rw [hcommon]
  exact List.mem_append_right _ hs

/-- A way has steps up and plain parts only. -/
theorem mem_way (hp : ∀ s ∈ p.steps, s.IsPlain) {s : Path} (hs : s ∈ way dir p) :
    s = up ∨ s.IsPlain := by
  rcases List.mem_append.1 hs with hs | hs
  · exact Or.inl (List.eq_of_mem_replicate hs)
  · exact Or.inr (hp s (mem_steps_of_mem_dropCommon hs))

/-- The text of a way determines it. -/
theorem parts_route (hp : ∀ s ∈ p.steps, s.IsPlain) :
    (route dir p).parts = if way dir p = [] then [here] else way dir p := by
  rw [route_eq]
  by_cases hne : way dir p = []
  · rw [if_pos hne, if_pos hne]
    rfl
  · rw [if_neg hne, if_neg hne]
    refine parts_unparts hne fun s hs => ?_
    rcases mem_way hp hs with rfl | hs
    · decide
    · exact hs.no_slash

theorem here_not_mem_way (hp : ∀ s ∈ p.steps, s.IsPlain) : here ∉ way dir p := by
  intro hmem
  rcases mem_way hp hmem with h | h
  · exact absurd h (by decide)
  · exact h.ne_here rfl

theorem way_eq_of_route_eq (hp : ∀ s ∈ p.steps, s.IsPlain) (hq : ∀ s ∈ q.steps, s.IsPlain)
    (h : route dir p = route dir q) : way dir p = way dir q := by
  have hparts := congrArg parts h
  rw [parts_route hp, parts_route hq] at hparts
  by_cases hnp : way dir p = [] <;> by_cases hnq : way dir q = []
  · rw [hnp, hnq]
  · rw [if_pos hnp, if_neg hnq] at hparts
    exact absurd (hparts ▸ List.mem_cons_self) (here_not_mem_way hq)
  · rw [if_neg hnp, if_pos hnq] at hparts
    exact absurd (hparts ▸ List.mem_cons_self) (here_not_mem_way hp)
  · rwa [if_neg hnp, if_neg hnq] at hparts

/-- The steps up at the front of a way say how many parts of the directory are left behind, and the rest
of the directory is common to both. -/
theorem steps_eq_of_way_eq (hp : ∀ s ∈ p.steps, s.IsPlain) (hq : ∀ s ∈ q.steps, s.IsPlain)
    (h : way dir p = way dir q) : p.steps = q.steps := by
  obtain ⟨common, hdir, hpsteps⟩ := exists_common dir.steps p.steps
  obtain ⟨common', hdir', hqsteps⟩ := exists_common dir.steps q.steps
  have hup : ∀ {r : Path}, (∀ s ∈ r.steps, s.IsPlain) →
      (way dir r).count up = (dropCommon dir.steps r.steps).1.length := by
    intro r hr
    have hnone : (dropCommon dir.steps r.steps).2.count up = 0 :=
      List.count_eq_zero.2 fun hmem => (hr up (mem_steps_of_mem_dropCommon hmem)).ne_up rfl
    rw [way, List.count_append, List.count_replicate_self, hnone, Nat.add_zero]
  have hlen : (dropCommon dir.steps p.steps).1.length = (dropCommon dir.steps q.steps).1.length := by
    rw [← hup hp, ← hup hq, h]
  have htoward : (dropCommon dir.steps p.steps).2 = (dropCommon dir.steps q.steps).2 := by
    unfold way at h
    rw [hlen] at h
    exact List.append_cancel_left h
  have hcommon : common = common' :=
    (List.append_inj' (hdir.symm.trans hdir') hlen).1
  rw [hpsteps, hqsteps, htoward, hcommon]

end Way

/-! ## Twins -/

/-- The same path with two slashes in front in place of one, or one in place of two. -/
def twin : Path → Path
  | '/' :: '/' :: p => '/' :: p
  | '/' :: p => '/' :: '/' :: p
  | p => p

theorem twin_rooted_one {ps : List Path} (hps : ∀ p ∈ ps, IsPlain p) :
    twin (rooted 1 ps) = rooted 2 ps := by
  have hhead : (unparts ps).head? ≠ some '/' := head?_unparts hps
  show twin ('/' :: unparts ps) = '/' :: '/' :: unparts ps
  cases hrest : unparts ps with
  | nil => rfl
  | cons c cs =>
    rw [hrest] at hhead
    have hc : c ≠ '/' := fun h => hhead (congrArg some h)
    simp [twin, hc]

theorem twin_rooted_two (ps : List Path) : twin (rooted 2 ps) = rooted 1 ps := rfl

/-- A canonical path is settled by its parts and the number of its slashes. -/
theorem eq_or_eq_twin_of_steps_eq {p q : Path} (hp : p.IsCanonical) (hq : q.IsCanonical)
    (h : p.steps = q.steps) : p = q ∨ p = twin q := by
  obtain ⟨hk, hps⟩ := hp
  obtain ⟨hj, hqs⟩ := hq
  rw [steps_rooted _ hps, steps_rooted _ hqs] at h
  subst h
  rcases hk with rfl | rfl <;> rcases hj with rfl | rfl
  · exact Or.inl rfl
  · exact Or.inr (twin_rooted_two _).symm
  · exact Or.inr (twin_rooted_one hqs).symm
  · exact Or.inl rfl

theorem steps_twin {p : Path} (hp : p.IsCanonical) : (twin p).steps = p.steps := by
  obtain ⟨rfl | rfl, hps⟩ := hp
  · rw [twin_rooted_one hps, steps_rooted _ hps, steps_rooted _ hps]
  · rw [twin_rooted_two, steps_rooted _ hps, steps_rooted _ hps]

theorem IsCanonical.twin {p : Path} (hp : p.IsCanonical) : p.twin.IsCanonical := by
  obtain ⟨rfl | rfl, hps⟩ := hp
  · rw [twin_rooted_one hps]
    exact .mk (Or.inr rfl) hps
  · rw [twin_rooted_two]
    exact .mk (Or.inl rfl) hps

theorem IsCanonical.twin_ne {p : Path} (hp : p.IsCanonical) : p.twin ≠ p := by
  obtain ⟨rfl | rfl, hps⟩ := hp
  · rw [twin_rooted_one hps]
    exact List.cons_ne_self _ _
  · rw [twin_rooted_two]
    exact (List.cons_ne_self _ _).symm

/-- Two canonical paths have the same way from a directory exactly if they are the same or twins. -/
theorem route_eq_iff {dir p q : Path} (hp : p.IsCanonical) (hq : q.IsCanonical) :
    route dir p = route dir q ↔ p = q ∨ p = twin q := by
  constructor
  · intro h
    have hway := way_eq_of_route_eq hp.isPlain_steps hq.isPlain_steps h
    exact eq_or_eq_twin_of_steps_eq hp hq
      (steps_eq_of_way_eq hp.isPlain_steps hq.isPlain_steps hway)
  · rintro (rfl | rfl)
    · rfl
    · unfold route
      rw [steps_twin hq]

end ImportAtlas.Path
