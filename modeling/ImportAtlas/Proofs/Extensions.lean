/-
# ImportAtlas.Proofs.Extensions -- extensions, and the dialects they give

The extension of a path is read off its text from behind: the last dot opens it, unless a slash stands
behind that dot or nothing but dots stand between it and the slash before. So it is settled by the last
part of the path (`IsLastPart`), whatever dots there are before (`extension_eq_iff`).

A path has a dialect exactly if its last part is one of the supported extensions behind a stem that is
not made of dots only.
-/
import Mathlib.Data.List.TakeWhile
import ImportAtlas.Dialect
import ImportAtlas.Proofs.Canonical

namespace ImportAtlas

namespace Path

/-! ## Last parts -/

/-- The part of a path behind its last slash, or all of it if there is no slash. -/
def IsLastPart (p last : Path) : Prop :=
  '/' ∉ last ∧ (p = last ∨ ∃ front, p = front ++ '/' :: last)

theorem no_slash_name (p : Path) : '/' ∉ p.name := by
  intro hslash
  have htake := List.mem_takeWhile_imp (List.mem_reverse.1 hslash)
  exact absurd htake (by decide)

section Name

variable {x : Path}

/-- What has no slash belongs to the last part as a whole. -/
theorem name_append_of_no_slash (p : Path) (hx : '/' ∉ x) : name (p ++ x) = name p ++ x := by
  rw [name, name, List.reverse_append, List.takeWhile_append_of_pos (forall_mem_reverse_ne_slash hx),
    List.reverse_append, List.reverse_reverse]

theorem name_of_no_slash (hx : '/' ∉ x) : name x = x := name_append_of_no_slash [] hx

theorem name_append_slash (front : Path) (hx : '/' ∉ x) : name (front ++ '/' :: x) = x := by
  rw [name, reverse_append_slash, List.takeWhile_append_of_pos (forall_mem_reverse_ne_slash hx)]
  simp

end Name

theorem isLastPart_name (p : Path) : p.IsLastPart p.name := by
  refine ⟨no_slash_name p, ?_⟩
  have hcut := congrArg List.reverse (List.takeWhile_append_dropWhile (p := (· ≠ '/')) (l := p.reverse))
  have hhead := List.head?_dropWhile_not (· ≠ '/') p.reverse
  rw [List.reverse_append, List.reverse_reverse] at hcut
  cases hrest : p.reverse.dropWhile (· ≠ '/') with
  | nil =>
    rw [hrest] at hcut
    exact Or.inl hcut.symm
  | cons c front =>
    rw [hrest] at hcut hhead
    obtain rfl : c = '/' := by simpa using hhead
    refine Or.inr ⟨front.reverse, ?_⟩
    rw [List.reverse_cons, List.append_assoc] at hcut
    exact hcut.symm

theorem isLastPart_iff {p last : Path} : p.IsLastPart last ↔ p.name = last := by
  constructor
  · rintro ⟨hslash, rfl | ⟨front, rfl⟩⟩
    · exact name_of_no_slash hslash
    · exact name_append_slash front hslash
  · rintro rfl
    exact isLastPart_name p

/-! ## The last dot -/

theorem exists_last_dot {p : Path} (hp : '.' ∈ p) : ∃ b tail, p = b ++ '.' :: tail ∧ '.' ∉ tail := by
  obtain ⟨tail, b, hcut, htail⟩ := List.eq_append_cons_of_mem (List.mem_reverse.2 hp)
  refine ⟨b.reverse, tail.reverse, ?_, by simpa using htail⟩
  rw [← List.reverse_reverse p, hcut]
  simp

theorem splitExtension_of_no_dot {p : Path} (hp : '.' ∉ p) : splitExtension p = (p, []) := by
  have hdrop : p.reverse.dropWhile (· ≠ '.') = [] := by
    rw [List.dropWhile_eq_nil_iff]
    intro c hc
    exact decide_eq_true fun h => hp (h ▸ List.mem_reverse.1 hc)
  rw [splitExtension, hdrop]

/-- The last dot opens the extension if it stands in the last part behind something else than dots. -/
theorem splitExtension_of_last_dot (b : Path) {tail : Path} (htail : '.' ∉ tail) :
    splitExtension (b ++ '.' :: tail) =
      if !tail.contains '/' && b.name.any (· ≠ '.') then (b, '.' :: tail)
      else (b ++ '.' :: tail, []) := by
  have hreverse : (b ++ '.' :: tail).reverse = tail.reverse ++ '.' :: b.reverse := by simp
  have hnot : ∀ c ∈ tail.reverse, decide (c ≠ '.') = true := by
    intro c hc
    exact decide_eq_true fun h => htail (h ▸ List.mem_reverse.1 hc)
  rw [splitExtension, hreverse, List.takeWhile_append_of_pos hnot, List.dropWhile_append_of_pos hnot]
  simp [name]

/-- A path with an extension is cut at a dot of its last part, behind something else than dots. -/
theorem exists_of_extension_ne_nil {p : Path} (hext : p.extension ≠ []) :
    ∃ b tail, p = b ++ '.' :: tail ∧ '.' ∉ tail ∧ '/' ∉ tail ∧ (∃ c ∈ b.name, c ≠ '.') ∧
      splitExtension p = (b, '.' :: tail) := by
  by_cases hdot : '.' ∈ p
  · obtain ⟨b, tail, rfl, htail⟩ := exists_last_dot hdot
    have hsplit := splitExtension_of_last_dot b htail
    split at hsplit
    · next hopens =>
      obtain ⟨hslash, hstem⟩ := Bool.and_eq_true_iff.1 hopens
      refine ⟨b, tail, rfl, htail, by simpa using hslash, ?_, hsplit⟩
      obtain ⟨c, hc, hne⟩ := List.any_eq_true.1 hstem
      exact ⟨c, hc, of_decide_eq_true hne⟩
    · rw [extension, hsplit] at hext
      exact absurd rfl hext
  · rw [extension, splitExtension_of_no_dot hdot] at hext
    exact absurd rfl hext

theorem splitExtension_of_stem {b tail : Path} (htail : '.' ∉ tail) (hslash : '/' ∉ tail)
    (hstem : ∃ c ∈ b.name, c ≠ '.') : splitExtension (b ++ '.' :: tail) = (b, '.' :: tail) := by
  obtain ⟨c, hc, hne⟩ := hstem
  have hany : b.name.any (· ≠ '.') = true := List.any_eq_true.2 ⟨c, hc, decide_eq_true hne⟩
  have hcontains : tail.contains '/' = false := by simpa using hslash
  rw [splitExtension_of_last_dot b htail, hany, hcontains]
  rfl

/-- What stands before an extension is a part of its own. -/
theorem isPlain_stem {p : Path} (hext : p.extension ≠ []) : p.stem.IsPlain := by
  obtain ⟨b, tail, rfl, htail, hslash, hstem, -⟩ := exists_of_extension_ne_nil hext
  have hname : name (b ++ '.' :: tail) = b.name ++ '.' :: tail :=
    name_append_of_no_slash b (by simpa using hslash)
  have hsame : b.name.name = b.name := name_of_no_slash (no_slash_name b)
  have hcut : stem (b ++ '.' :: tail) = b.name := by
    rw [stem, hname, splitExtension_of_stem htail hslash (by rwa [hsame])]
  obtain ⟨c, hc, hne⟩ := hstem
  rw [hcut]
  refine ⟨List.ne_nil_of_mem hc, ?_, ?_, no_slash_name b⟩
  · intro h
    rw [h] at hc
    exact hne (List.mem_singleton.1 hc)
  · intro h
    rw [h] at hc
    exact hne (by simpa [up] using hc)

/-- The extension of a path is what its last part ends with, from its last dot on, if there is a stem
that is not made of dots only. -/
theorem extension_eq_iff {p tail : Path} :
    p.extension = '.' :: tail ↔
      '.' ∉ tail ∧ ∃ s, p.IsLastPart (s ++ '.' :: tail) ∧ ∃ c ∈ s, c ≠ '.' := by
  constructor
  · intro hext
    obtain ⟨b, tail', rfl, htail, hslash, hstem, hsplit⟩ :=
      exists_of_extension_ne_nil (hext ▸ List.cons_ne_nil _ _)
    rw [extension, hsplit] at hext
    obtain rfl : tail' = tail := List.tail_eq_of_cons_eq hext
    refine ⟨htail, b.name, ?_, hstem⟩
    rw [isLastPart_iff]
    exact name_append_of_no_slash b (by simpa using hslash)
  · rintro ⟨htail, s, ⟨hslash, hlast⟩, hstem⟩
    have hs : '/' ∉ s := fun h => hslash (List.mem_append_left _ h)
    have htail' : '/' ∉ tail := fun h => hslash (by simp [h])
    rcases hlast with rfl | ⟨front, rfl⟩
    · rw [extension, splitExtension_of_stem htail htail' (by rwa [name_of_no_slash hs])]
    · have hname : name (front ++ '/' :: s) = s := name_append_slash front hs
      have htext : front ++ '/' :: (s ++ '.' :: tail) = front ++ '/' :: s ++ '.' :: tail := by simp
      rw [htext, extension, splitExtension_of_stem htail htail' (by rwa [hname])]

/-- Before a dot of a word behind dots there are only dots. -/
theorem eq_dot_of_append_eq {s tail word : Path} {dots : Nat} (hword : '.' ∉ word)
    (h : s ++ '.' :: tail = List.replicate dots '.' ++ word) : ∀ c ∈ s, c = '.' := by
  rcases List.append_eq_append_iff.1 h with ⟨rest, hdots, -⟩ | ⟨rest, -, hrest⟩
  · intro c hc
    apply List.eq_of_mem_replicate
    rw [hdots]
    exact List.mem_append_left _ hc
  · -- The dot would stand in the word.
    refine absurd ?_ hword
    rw [hrest]
    simp

end Path

/-! ## Dialects -/

namespace Dialect

/-- The extensions of the files in a dialect. -/
def ownExtensions : Dialect → List Path
  | script => scriptExtensions
  | rust => [rustExtension]
  | graphql => [graphqlExtension]

theorem mem_extensions_iff {e : Path} : e ∈ extensions ↔ ∃ d : Dialect, e ∈ d.ownExtensions := by
  constructor
  · intro he
    rcases List.mem_append.1 he with he | he
    · exact ⟨script, he⟩
    · rcases List.mem_cons.1 he with rfl | he
      · exact ⟨rust, List.mem_cons_self⟩
      · exact ⟨graphql, he⟩
  · rintro ⟨d, he⟩
    cases d with
    | script => exact List.mem_append_left _ he
    | rust => exact List.mem_append_right _ (List.mem_singleton.1 he ▸ List.mem_cons_self)
    | graphql => exact List.mem_append_right _ (List.mem_cons_of_mem _ he)

theorem ofExtension?_eq_some_iff {e : Path} {d : Dialect} :
    ofExtension? e = some d ↔ e ∈ d.ownExtensions := by
  constructor
  · intro hd
    unfold ofExtension? at hd
    split at hd
    · next he =>
      obtain rfl := Option.some.inj hd
      exact he
    · split at hd
      · next he =>
        obtain rfl := Option.some.inj hd
        exact List.mem_singleton.2 he
      · split at hd
        · next he =>
          obtain rfl := Option.some.inj hd
          exact List.mem_singleton.2 he
        · cases hd
  · intro he
    cases d with
    | script => exact if_pos he
    | rust =>
      rw [List.mem_singleton.1 he]
      rfl
    | graphql =>
      rw [List.mem_singleton.1 he]
      rfl

/-- An extension is a dot and a word behind it. -/
theorem exists_of_mem_ownExtensions {e : Path} {d : Dialect} (he : e ∈ d.ownExtensions) :
    ∃ tail, e = '.' :: tail ∧ '.' ∉ tail := by
  have hall : ∀ e ∈ extensions, e = '.' :: e.tail ∧ '.' ∉ e.tail := by decide
  exact ⟨e.tail, hall e (mem_extensions_iff.2 ⟨d, he⟩)⟩

theorem extension_ne_nil {p : Path} {d : Dialect} (hd : ofPath? p = some d) : p.extension ≠ [] := by
  obtain ⟨tail, htail, -⟩ := exists_of_mem_ownExtensions (ofExtension?_eq_some_iff.1 hd)
  rw [htail]
  exact List.cons_ne_nil _ _

theorem ofPath?_eq_some_iff {p : Path} {d : Dialect} :
    ofPath? p = some d ↔
      ∃ s e, p.IsLastPart (s ++ e) ∧ e ∈ d.ownExtensions ∧ ∃ c ∈ s, c ≠ '.' := by
  rw [ofPath?, ofExtension?_eq_some_iff]
  constructor
  · intro he
    obtain ⟨tail, htail, -⟩ := exists_of_mem_ownExtensions he
    obtain ⟨-, s, hlast, hstem⟩ := Path.extension_eq_iff.1 htail
    exact ⟨s, '.' :: tail, hlast, htail ▸ he, hstem⟩
  · rintro ⟨s, e, hlast, he, hstem⟩
    obtain ⟨tail, rfl, htail⟩ := exists_of_mem_ownExtensions he
    rwa [Path.extension_eq_iff.2 ⟨htail, s, hlast, hstem⟩]

/-- A path has the dialect of an extension exactly if its last part is that extension behind a stem in
which something else than dots stands. So paths with the same last part have the same dialect, whatever
stands before it, and a last part that is a word behind dots only, or nothing but dots, has none. -/
theorem dialect_goes_by_last_part (p : Path) :
    (∀ d, ofPath? p = some d ↔
      ∃ s e, p.IsLastPart (s ++ e) ∧ e ∈ d.ownExtensions ∧ ∃ c ∈ s, c ≠ '.') ∧
    ((ofPath? p).isSome = true ↔
      ∃ s e, p.IsLastPart (s ++ e) ∧ e ∈ extensions ∧ ∃ c ∈ s, c ≠ '.') ∧
    (∀ q last, p.IsLastPart last → q.IsLastPart last → ofPath? p = ofPath? q) ∧
    ∀ dots word, p.IsLastPart (List.replicate dots '.' ++ word) → '.' ∉ word → ofPath? p = none := by
  refine ⟨fun d => ofPath?_eq_some_iff, ?_, ?_, ?_⟩
  · rw [Option.isSome_iff_exists]
    constructor
    · rintro ⟨d, hd⟩
      obtain ⟨s, e, hlast, he, hstem⟩ := ofPath?_eq_some_iff.1 hd
      exact ⟨s, e, hlast, mem_extensions_iff.2 ⟨d, he⟩, hstem⟩
    · rintro ⟨s, e, hlast, he, hstem⟩
      obtain ⟨d, he⟩ := mem_extensions_iff.1 he
      exact ⟨d, ofPath?_eq_some_iff.2 ⟨s, e, hlast, he, hstem⟩⟩
  · intro q last hp hq
    apply Option.ext
    intro d
    rw [ofPath?_eq_some_iff, ofPath?_eq_some_iff]
    simp only [Path.isLastPart_iff, Path.isLastPart_iff.1 hp, Path.isLastPart_iff.1 hq]
  · intro dots word hlast hword
    rw [Option.eq_none_iff_forall_ne_some]
    intro d hd
    obtain ⟨s, e, hlast', he, c, hc, hne⟩ := ofPath?_eq_some_iff.1 hd
    obtain ⟨tail, rfl, -⟩ := exists_of_mem_ownExtensions he
    have hsame : s ++ '.' :: tail = List.replicate dots '.' ++ word :=
      (Path.isLastPart_iff.1 hlast').symm.trans (Path.isLastPart_iff.1 hlast)
    exact hne (Path.eq_dot_of_append_eq hword hsame c hc)

theorem dialect_goes_by_last_part_dottedNames :
    ofPath? "/a.rs/.b.ts".toList = some script ∧
      (ofPath? "/a.rs/.b.ts".toList).isSome = true ∧
      ofPath? "/a.rs/.b.ts".toList = ofPath? ".b.ts".toList ∧
      ofPath? "/a.rs/...ts".toList = none := by
  have hdotted : Path.IsLastPart "/a.rs/.b.ts".toList (".b".toList ++ ".ts".toList) :=
    ⟨by decide, Or.inr ⟨"/a.rs".toList, by decide⟩⟩
  have hbare : Path.IsLastPart ".b.ts".toList (".b".toList ++ ".ts".toList) :=
    ⟨by decide, Or.inl (by decide)⟩
  have hdots : Path.IsLastPart "/a.rs/...ts".toList (List.replicate 3 '.' ++ "ts".toList) :=
    ⟨by decide, Or.inr ⟨"/a.rs".toList, by decide⟩⟩
  have hstem : ∃ c ∈ ".b".toList, c ≠ '.' := ⟨'b', by decide, by decide⟩
  obtain ⟨hdialect, hsome, hsame, -⟩ := dialect_goes_by_last_part "/a.rs/.b.ts".toList
  exact ⟨(hdialect script).2 ⟨_, _, hdotted, by decide, hstem⟩,
    hsome.2 ⟨_, _, hdotted, by decide, hstem⟩, hsame _ _ hdotted hbare,
    (dialect_goes_by_last_part _).2.2.2 3 _ hdots (by decide)⟩

end Dialect

end ImportAtlas
