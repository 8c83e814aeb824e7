/-
# ImportAtlas.Proofs.Scanning -- scans part by part

A scan goes through a text character by character. What it finds can be said part by part instead, where
matches keep to the parts of the text. A match that takes up a part is followed by what is found behind it
(`matchesAnywhere_append_of_match`), and a part without the mark that every match begins with can be left
off (`matchesAnywhere_append_of_no_mark`).

Where a match begins at the start of a line, the parts are lines. Blanks are passed over with their line
breaks, so that a match may begin lines before what it finds. For a pattern that passes over blanks this
makes no difference: the blanks in front of a text can be left off, whole lines of them and the
indentation of a line alike (`matchesAtLineStart_append_blanks`). Where the match then ends on the line,
the scan goes on with what follows the line (`matchesAtLineStart_line`).
-/
import Mathlib.Data.List.Infix
import Mathlib.Data.List.TakeWhile
import ImportAtlas.Text.Scan
import ImportAtlas.Text.Word

namespace ImportAtlas.Text

/-! ## Parts of patterns -/

theorem after?_eq_some_iff {mark s rest : List Char} : after? mark s = some rest ↔ s = mark ++ rest := by
  fun_induction after? mark s with
  | case1 s => exact ⟨fun h => Option.some.inj h, fun h => congrArg some h⟩
  | case2 w mark => exact ⟨nofun, nofun⟩
  | case3 mark w s ih => rw [ih, List.cons_append, List.cons.injEq, and_iff_right rfl]
  | case4 w mark c s hne =>
    refine ⟨nofun, fun h => absurd (List.cons.inj h).1.symm hne⟩

@[simp] theorem after?_append (mark rest : List Char) : after? mark (mark ++ rest) = some rest :=
  after?_eq_some_iff.2 rfl

theorem after?_of_not_prefix {mark s : List Char} (h : ¬ mark <+: s) : after? mark s = none := by
  cases hs : after? mark s with
  | none => rfl
  | some rest => exact absurd ⟨rest, (after?_eq_some_iff.1 hs).symm⟩ h

/-- A character that a mark does not hold completes none. -/
theorem infix_of_infix_concat {mark s : List Char} {c : Char} (hmark : mark ≠ []) (hc : c ∉ mark)
    (h : mark <:+: s ++ [c]) : mark <:+: s := by
  rcases List.infix_concat_iff.1 h with ⟨front, hsuffix⟩ | hinside
  · have hlast := congrArg List.getLast? hsuffix
    rw [List.getLast?_concat, List.getLast?_append_of_ne_nil _ hmark] at hlast
    exact absurd (List.mem_of_getLast? hlast) hc
  · exact hinside

/-- The text does not begin with a character of the class. -/
def StopsBefore (test : Char → Bool) (cs : List Char) : Prop := ∀ c ∈ cs.head?, test c = false

instance (test : Char → Bool) (cs : List Char) : Decidable (StopsBefore test cs) :=
  decidable_of_iff (cs.head?.all (fun c => !test c) = true) (by cases cs <;> simp [StopsBefore])

section

variable {test : Char → Bool} {word rest cs : List Char}

theorem stopsBefore_nil : StopsBefore test [] := fun _ h => nomatch h

theorem stopsBefore_cons {c : Char} : StopsBefore test (c :: cs) ↔ test c = false :=
  ⟨fun h => h c rfl, fun h _ hd => Option.some.inj hd ▸ h⟩

theorem StopsBefore.append (h : StopsBefore test cs) (hrest : StopsBefore test rest) :
    StopsBefore test (cs ++ rest) := by
  cases cs with
  | nil => exact hrest
  | cons c cs => exact stopsBefore_cons.2 (stopsBefore_cons.1 h)

theorem StopsBefore.append_of_ne_nil (h : StopsBefore test cs) (hne : cs ≠ []) (rest : List Char) :
    StopsBefore test (cs ++ rest) := by
  cases cs with
  | nil => exact absurd rfl hne
  | cons c cs => exact stopsBefore_cons.2 (stopsBefore_cons.1 h)

theorem dropWhile_of_stopsBefore (h : StopsBefore test cs) : cs.dropWhile test = cs := by
  cases cs with
  | nil => rfl
  | cons c cs => rw [List.dropWhile_cons_of_neg (by rw [stopsBefore_cons.1 h]; decide)]

theorem takeWhile_of_stopsBefore (h : StopsBefore test cs) : cs.takeWhile test = [] := by
  cases cs with
  | nil => rfl
  | cons c cs => rw [List.takeWhile_cons_of_neg (by rw [stopsBefore_cons.1 h]; decide)]

theorem takeWhile_append_of_stopsBefore (hword : ∀ c ∈ word, test c = true)
    (hrest : StopsBefore test rest) : (word ++ rest).takeWhile test = word := by
  rw [List.takeWhile_append_of_pos hword, takeWhile_of_stopsBefore hrest, List.append_nil]

theorem takeWhile_append_stop (cs : List Char) (hrest : StopsBefore test rest) :
    (cs ++ rest).takeWhile test = cs.takeWhile test := by
  induction cs with
  | nil => exact takeWhile_of_stopsBefore hrest
  | cons c cs ih => rw [List.cons_append, List.takeWhile_cons, List.takeWhile_cons, ih]

theorem run1?_append (hne : word ≠ []) (hword : ∀ c ∈ word, test c = true)
    (hrest : StopsBefore test rest) : run1? test (word ++ rest) = some (word, rest) := by
  rw [run1?, takeWhile_append_of_stopsBefore hword hrest, List.dropWhile_append_of_pos hword,
    dropWhile_of_stopsBefore hrest]
  cases word with
  | nil => exact absurd rfl hne
  | cons c word => rfl

theorem run1?_of_stopsBefore (h : StopsBefore test cs) : run1? test cs = none := by
  rw [run1?, takeWhile_of_stopsBefore h]

theorem run1?_eq_some (h : run1? test cs = some (word, rest)) :
    word ≠ [] ∧ ∀ c ∈ word, test c = true := by
  unfold run1? at h
  split at h
  · cases h
  · next hne =>
    obtain rfl : cs.takeWhile test = word := congrArg Prod.fst (Option.some.inj h)
    exact ⟨hne, fun c hc => List.mem_takeWhile_imp hc⟩

theorem suffix_of_run1? (h : run1? test cs = some (word, rest)) : rest <:+ cs := by
  unfold run1? at h
  split at h
  · cases h
  · obtain rfl : cs.dropWhile test = rest := congrArg Prod.snd (Option.some.inj h)
    exact List.dropWhile_suffix test

end

section

variable {blanks cs rest : List Char}

theorem skipBlanks_append (hblanks : ∀ c ∈ blanks, isBlank c = true) :
    skipBlanks (blanks ++ cs) = skipBlanks cs :=
  List.dropWhile_append_of_pos hblanks

theorem skipBlanks_of_stopsBefore (h : StopsBefore isBlank cs) : skipBlanks cs = cs :=
  dropWhile_of_stopsBefore h

theorem skipBlanks_append_of_stopsBefore (hblanks : ∀ c ∈ blanks, isBlank c = true)
    (hcs : StopsBefore isBlank cs) : skipBlanks (blanks ++ cs) = cs :=
  (skipBlanks_append hblanks).trans (skipBlanks_of_stopsBefore hcs)

theorem length_skipBlanks_le (cs : List Char) : (skipBlanks cs).length ≤ cs.length :=
  (List.dropWhile_suffix isBlank).length_le

theorem skipBlanks1?_append (hne : blanks ≠ []) (hblanks : ∀ c ∈ blanks, isBlank c = true)
    (hcs : StopsBefore isBlank cs) : skipBlanks1? (blanks ++ cs) = some cs := by
  cases blanks with
  | nil => exact absurd rfl hne
  | cons c blanks =>
    rw [List.cons_append, skipBlanks1?, if_pos (hblanks c List.mem_cons_self),
      skipBlanks_append_of_stopsBefore (fun d hd => hblanks d (List.mem_cons_of_mem c hd)) hcs]

theorem skipBlanks1?_of_stopsBefore (h : StopsBefore isBlank cs) : skipBlanks1? cs = none := by
  cases cs with
  | nil => rfl
  | cons c cs => exact if_neg (by rw [stopsBefore_cons.1 h]; decide)

theorem length_of_skipBlanks1? (h : skipBlanks1? cs = some rest) : rest.length < cs.length := by
  cases cs with
  | nil => cases h
  | cons c cs =>
    rw [skipBlanks1?] at h
    split at h
    · obtain rfl : skipBlanks cs = rest := Option.some.inj h
      exact Nat.lt_succ_of_le (length_skipBlanks_le cs)
    · cases h

end

/-- The code points of the blanks. -/
def blankCodes : List Nat :=
  [0x09, 0x0A, 0x0B, 0x0C, 0x0D, 0x1C, 0x1D, 0x1E, 0x1F, 0x20, 0x85, 0xA0, 0x1680, 0x2000, 0x2001,
   0x2002, 0x2003, 0x2004, 0x2005, 0x2006, 0x2007, 0x2008, 0x2009, 0x200A, 0x2028, 0x2029, 0x202F, 0x205F,
   0x3000]

theorem toNat_mem_blankCodes {c : Char} (hc : isBlank c = true) : c.toNat ∈ blankCodes := by
  simp only [isBlank, Bool.or_eq_true, Bool.and_eq_true, decide_eq_true_eq] at hc
  simp only [blankCodes, List.mem_cons, List.not_mem_nil, or_false]
  omega

theorem isWordChar_of_isBlank {c : Char} (hc : isBlank c = true) : isWordChar c = false := by
  have hcodes : ∀ n ∈ blankCodes, isWordChar (Char.ofNat n) = false := by decide +kernel
  have hword := hcodes _ (toNat_mem_blankCodes hc)
  rwa [Char.ofNat_toNat] at hword

theorem isBlank_of_isWordChar {c : Char} (hc : isWordChar c = true) : isBlank c = false := by
  cases hblank : isBlank c with
  | false => rfl
  | true => exact absurd hc (by rw [isWordChar_of_isBlank hblank]; decide)

/-! ## Scans -/

section

variable {α : Type} {pat : Pattern α} {front rest : List Char}

theorem scanAll_length_append (front rest : List Char) :
    scanAll pat front.length (front ++ rest) = matchesAnywhere pat rest := by
  induction front with
  | nil => rfl
  | cons c front ih => exact ih

theorem matchesAnywhere_append_of_match {a : α} (hne : front ≠ [])
    (hpat : pat (front ++ rest) = some (a, front.length)) :
    matchesAnywhere pat (front ++ rest) = a :: matchesAnywhere pat rest := by
  cases front with
  | nil => exact absurd rfl hne
  | cons c front =>
    rw [matchesAnywhere, List.cons_append, scanAll, ← List.cons_append, hpat]
    exact congrArg (a :: ·) (scanAll_length_append front rest)

variable {mark : List Char} (hmark : mark ≠ []) (hpat : ∀ cs, ¬ mark <+: cs → pat cs = none)
include hpat

/-- A pattern that begins with a mark is found nowhere in a text that holds none and does not end like
the beginning of one. -/
theorem matchesAnywhere_append_of_no_mark (hinside : ¬ mark <:+: front)
    (hlast : ∀ c ∈ front.getLast?, c ∉ mark) :
    matchesAnywhere pat (front ++ rest) = matchesAnywhere pat rest := by
  induction front with
  | nil => rfl
  | cons c front ih =>
    have hnone : pat (c :: (front ++ rest)) = none := by
      apply hpat
      intro hbegin
      rw [← List.cons_append] at hbegin
      rcases Nat.le_total mark.length (c :: front).length with hle | hle
      · exact hinside (List.prefix_of_prefix_length_le hbegin (List.prefix_append _ _) hle).isInfix
      · have hall : c :: front <+: mark :=
          List.prefix_of_prefix_length_le (List.prefix_append _ _) hbegin hle
        have hend := List.getLast_mem (List.cons_ne_nil c front)
        exact hlast _ (List.getLast?_eq_some_getLast _) (hall.subset hend)
    rw [matchesAnywhere, List.cons_append, scanAll, hnone]
    apply ih
    · exact fun h => hinside (List.infix_cons h)
    · intro d hd
      cases front with
      | nil => cases hd
      | cons e front => exact hlast d (by rw [List.getLast?_cons_cons]; exact hd)

include hmark

theorem matchesAnywhere_append_of_not_mem (hfront : ∀ c ∈ front, c ∉ mark) :
    matchesAnywhere pat (front ++ rest) = matchesAnywhere pat rest := by
  apply matchesAnywhere_append_of_no_mark hpat
  · intro h
    obtain ⟨c, mark, rfl⟩ := List.exists_cons_of_ne_nil hmark
    exact hfront c (h.subset List.mem_cons_self) List.mem_cons_self
  · exact fun c hc => hfront c (List.mem_of_getLast? hc)

end

theorem exists_match_of_mem_scanLines {α : Type} {pat : Pattern α} {skip : Nat} {lineStart : Bool}
    {text : List Char} {a : α} (ha : a ∈ scanLines pat skip lineStart text) :
    ∃ cs n, pat cs = some (a, n) := by
  fun_induction scanLines pat skip lineStart text with
  | case1 => cases ha
  | case2 _ _ _ _ ih => exact ih ha
  | case3 c cs b n hpat ih =>
    rcases List.mem_cons.1 ha with rfl | ha
    · exact ⟨_, n, hpat⟩
    · exact ih ha
  | case4 _ _ _ ih => exact ih ha
  | case5 _ _ ih => exact ih ha

/-- The end of a line: nothing more, or a line break. -/
def AtLineEnd (rest : List Char) : Prop := ∀ c ∈ rest.head?, c = '\n'

theorem AtLineEnd.stopsBefore {rest : List Char} (hrest : AtLineEnd rest) {test : Char → Bool}
    (htest : test '\n' = false) : StopsBefore test rest :=
  fun c hc => hrest c hc ▸ htest

/-- A mark without a line break that stands in front stands on the line. -/
theorem AtLineEnd.prefix_of_prefix_append {rest : List Char} (hrest : AtLineEnd rest)
    {mark line : List Char} (hmark : '\n' ∉ mark) (h : mark <+: line ++ rest) : mark <+: line := by
  rcases Nat.le_total mark.length line.length with hle | hle
  · exact List.prefix_of_prefix_length_le h (List.prefix_append line rest) hle
  · obtain ⟨more, rfl⟩ := List.prefix_of_prefix_length_le (List.prefix_append line rest) h hle
    cases more with
    | nil => rw [List.append_nil]
    | cons c more =>
      obtain ⟨tail, rfl⟩ := (List.prefix_append_right_inj line).1 h
      obtain rfl : c = '\n' := hrest c rfl
      exact absurd (List.mem_append_right line List.mem_cons_self) hmark

section

variable {α : Type} (read : List Char → Option (α × List Char))

/-- The pattern of a reader, which gives what it finds and what follows. -/
def measured : Pattern α := fun cs => (read cs).map fun m => (m.1, cs.length - m.2.length)

/-- A reader that takes a character at least and begins by passing over blanks. -/
structure PassesBlanks : Prop where
  shortens : ∀ {cs a rest}, read cs = some (a, rest) → rest.length < cs.length
  blank : ∀ {c : Char} (cs : List Char), isBlank c = true → read (c :: cs) = read cs

variable {read}

theorem scanLines_of_none {cs : List Char} (hnone : read cs = none) (lineStart : Bool) :
    scanLines (measured read) 0 lineStart cs = scanLines (measured read) 0 true cs := by
  cases cs with
  | nil => rfl
  | cons c cs =>
    cases lineStart with
    | true => rfl
    | false =>
      have hpat : measured read (c :: cs) = none := by rw [measured, hnone, Option.map_none]
      rw [scanLines, scanLines, hpat]

variable (hread : PassesBlanks read)
include hread

/-- A match that begins with a blank is one that begins behind it. -/
theorem matchesAtLineStart_cons_blank {c : Char} (hc : isBlank c = true) (cs : List Char) :
    matchesAtLineStart (measured read) (c :: cs) = matchesAtLineStart (measured read) cs := by
  unfold matchesAtLineStart
  cases hcs : read cs with
  | none =>
    have hpat : measured read (c :: cs) = none := by
      rw [measured, hread.blank cs hc, hcs, Option.map_none]
    rw [scanLines, hpat]
    exact scanLines_of_none hcs _
  | some m =>
    obtain ⟨a, rest⟩ := m
    have hlength := hread.shortens hcs
    cases cs with
    | nil => exact absurd hlength (Nat.not_lt_zero _)
    | cons d cs =>
      -- The match is longer by the blank, which is counted off before the next character.
      have hpat : measured read (c :: d :: cs) = some (a, (cs.length - rest.length) + 2) := by
        rw [measured, hread.blank _ hc, hcs, Option.map_some]
        simp only [List.length_cons] at hlength ⊢
        rw [show cs.length + 1 + 1 - rest.length = cs.length - rest.length + 2 by omega]
      have hpat' : measured read (d :: cs) = some (a, (cs.length - rest.length) + 1) := by
        rw [measured, hcs, Option.map_some]
        simp only [List.length_cons] at hlength ⊢
        rw [show cs.length + 1 - rest.length = cs.length - rest.length + 1 by omega]
      rw [scanLines, hpat, scanLines, hpat']
      rfl

/-- Blanks in front of a text can be left off, with their line breaks. -/
theorem matchesAtLineStart_append_blanks {blanks : List Char}
    (hblanks : ∀ c ∈ blanks, isBlank c = true) (cs : List Char) :
    matchesAtLineStart (measured read) (blanks ++ cs) = matchesAtLineStart (measured read) cs := by
  induction blanks with
  | nil => rfl
  | cons c blanks ih =>
    rw [List.cons_append, matchesAtLineStart_cons_blank hread (hblanks c List.mem_cons_self)]
    exact ih fun d hd => hblanks d (List.mem_cons_of_mem c hd)

/-- Behind the start of a line nothing begins up to its end. -/
theorem scanLines_line {line rest : List Char} (hline : '\n' ∉ line) (hrest : AtLineEnd rest)
    {skip : Nat} (hskip : skip ≤ line.length) :
    scanLines (measured read) skip false (line ++ rest) = matchesAtLineStart (measured read) rest := by
  induction line generalizing skip with
  | nil =>
    obtain rfl : skip = 0 := Nat.le_zero.1 hskip
    cases rest with
    | nil => rfl
    | cons c cs =>
      obtain rfl : c = '\n' := hrest c rfl
      rw [matchesAtLineStart_cons_blank hread (by decide)]
      rfl
  | cons c line ih =>
    have hc : decide (c = '\n') = false := decide_eq_false fun h => hline (h ▸ List.mem_cons_self)
    have hline : '\n' ∉ line := fun h => hline (List.mem_cons_of_mem c h)
    cases skip with
    | zero =>
      rw [List.cons_append, scanLines, hc]
      exact ih hline (Nat.zero_le _)
    | succ skip =>
      rw [List.cons_append, scanLines, hc]
      exact ih hline (Nat.le_of_succ_le_succ hskip)

theorem matchesAtLineStart_line_of_none {line rest : List Char} (hline : '\n' ∉ line)
    (hrest : AtLineEnd rest) (hnone : read (line ++ rest) = none) :
    matchesAtLineStart (measured read) (line ++ rest) = matchesAtLineStart (measured read) rest := by
  rw [matchesAtLineStart, ← scanLines_of_none hnone false]
  exact scanLines_line hread hline hrest (Nat.zero_le _)

/-- What is found at the start of a line and ends on it is all that is found there. -/
theorem matchesAtLineStart_line {line rest tail : List Char} (hline : '\n' ∉ line)
    (hrest : AtLineEnd rest) {found : Option α}
    (hfound : read (line ++ rest) = found.map fun a => (a, tail ++ rest)) :
    matchesAtLineStart (measured read) (line ++ rest) =
      found.toList ++ matchesAtLineStart (measured read) rest := by
  cases found with
  | none => exact matchesAtLineStart_line_of_none hread hline hrest hfound
  | some a =>
    have hlength := hread.shortens hfound
    simp only [List.length_append] at hlength
    cases line with
    | nil => exact absurd hlength (by simp)
    | cons c line =>
      have hc : decide (c = '\n') = false := decide_eq_false fun h => hline (h ▸ List.mem_cons_self)
      have hline : '\n' ∉ line := fun h => hline (List.mem_cons_of_mem c h)
      have hpat : measured read (c :: (line ++ rest)) = some (a, line.length + 1 - tail.length) := by
        rw [measured, ← List.cons_append, hfound, Option.map_some, Option.map_some]
        simp only [List.length_append, List.length_cons]
        rw [show line.length + 1 + rest.length - (tail.length + rest.length) =
          line.length + 1 - tail.length by omega]
      rw [matchesAtLineStart, List.cons_append, scanLines, hpat, hc]
      exact congrArg (a :: ·) (scanLines_line hread hline hrest (by omega))

end

end ImportAtlas.Text
