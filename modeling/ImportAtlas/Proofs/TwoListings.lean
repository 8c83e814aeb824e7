/-
# ImportAtlas.Proofs.TwoListings -- one list of changes, printed twice and read alike

The short status has the letter of a change in one of its two columns, and behind a blank the name, in
quotes if it holds a blank; an old name stands in front, with an arrow between the two. The status by
name has a score behind the letter, and a tab in front of each name as it is. The readers are made for
their own format only: one cuts a line at fixed columns and at an arrow, the other at its tabs.

Of changes with plain names, which no escape is needed for, both leave the same files: those that are
not deleted, in order, under their new names (`both_listings_give_the_files`).
-/
import ImportAtlas.Proofs.Listings

namespace ImportAtlas.Changes

/-- Whether a character may stand in a plain name: no double quote, no backslash, no tab and no line
break. -/
def isPlainChar (c : Char) : Bool := c ≠ '"' && c ≠ '\\' && c ≠ '\t' && !Text.isBreak c

/-- A name that is printed without escapes and cannot be mistaken for two. -/
structure PlainName where
  text : Path
  text_ne_nil : text ≠ []
  text_plain : text.all isPlainChar = true
  text_no_arrow : ¬ arrow <:+: text

/-- A change of one letter, in the column of the index or in that of the working tree. -/
structure PlainChange where
  letter : Char
  letter_visible : Text.isBlank letter = false
  inIndex : Bool
  score : List Char
  score_digits : ∀ c ∈ score, c.isDigit = true
  old : Option PlainName
  name : PlainName

namespace PlainName

/-- A name in the short status. -/
def shown (name : PlainName) : List Char :=
  if ' ' ∈ name.text then '"' :: (name.text ++ ['"']) else name.text

theorem shown_eq_or (name : PlainName) :
    (name.shown = name.text ∧ ' ' ∉ name.text) ∨ name.shown = '"' :: (name.text ++ ['"']) := by
  unfold shown
  split
  · exact .inr rfl
  · next hblank => exact .inl ⟨rfl, hblank⟩

theorem shown_ne_nil (name : PlainName) : name.shown ≠ [] := by
  rcases name.shown_eq_or with ⟨hshown, -⟩ | hshown
  · rw [hshown]
    exact name.text_ne_nil
  · rw [hshown]
    exact List.cons_ne_nil _ _

theorem not_mem_text (name : PlainName) {c : Char} (hc : isPlainChar c = false) : c ∉ name.text := by
  intro hmem
  rw [List.all_eq_true.1 name.text_plain c hmem] at hc
  cases hc

theorem unquote_text (name : PlainName) : unquote name.text = name.text :=
  unquote_of_not_mem (name.not_mem_text rfl)

theorem unquote_shown (name : PlainName) : unquote name.shown = name.text := by
  rcases name.shown_eq_or with ⟨hshown, -⟩ | hshown
  · rw [hshown, unquote_text]
  · rw [hshown, unquote_quoted]

theorem shown_no_arrow (name : PlainName) : ¬ arrow <:+: name.shown := by
  rcases name.shown_eq_or with ⟨hshown, -⟩ | hshown
  · rw [hshown]
    exact name.text_no_arrow
  · rw [hshown]
    exact fun harrow => name.text_no_arrow (arrow_infix_of_quoted harrow)

/-- No arrow can begin at the end of a name: either it holds no blank, or a quote follows. -/
theorem shown_end (name : PlainName) : ' ' ∉ name.shown ∨ name.shown.getLast? = some '"' := by
  rcases name.shown_eq_or with ⟨hshown, hblank⟩ | hshown
  · exact .inl (by rwa [hshown])
  · exact .inr (by rw [hshown, getLast?_quoted])

theorem text_no_break (name : PlainName) : ∀ c ∈ name.text, Text.isBreak c = false := by
  intro c hc
  have hplain := List.all_eq_true.1 name.text_plain c hc
  simp only [isPlainChar, Bool.and_eq_true, Bool.not_eq_true'] at hplain
  exact hplain.2

theorem shown_no_break (name : PlainName) : ∀ c ∈ name.shown, Text.isBreak c = false := by
  intro c hc
  rcases name.shown_eq_or with ⟨hshown, -⟩ | hshown
  · rw [hshown] at hc
    exact name.text_no_break c hc
  · rw [hshown, List.mem_cons, List.mem_append, List.mem_singleton] at hc
    rcases hc with rfl | hc | rfl
    · rfl
    · exact name.text_no_break c hc
    · rfl

end PlainName

namespace PlainChange

/-- Whether the file is gone. -/
def isDeleted (c : PlainChange) : Bool := c.letter = 'D'

/-- The file that a change leaves. -/
def file (workspace : Path) (c : PlainChange) : ChangedFile :=
  ⟨Path.join workspace c.name.text, [c.letter]⟩

/-- The names of a change, the old one first. -/
def names (c : PlainChange) (print : PlainName → List Char) (between : List Char) : List Char :=
  (c.old.map print).elim (print c.name) fun old => old ++ (between ++ print c.name)

/-- A change on a line of the short status. -/
def shortLine (c : PlainChange) : List Char :=
  (if c.inIndex then [c.letter, ' '] else [' ', c.letter]) ++ ' ' :: c.names PlainName.shown arrow

/-- A change on a line of the status by name. -/
def fieldLine (c : PlainChange) : List Char :=
  (c.letter :: c.score) ++ '\t' :: c.names PlainName.text ['\t']

/-! ## Lines without breaks -/

theorem names_no_break (c : PlainChange) {print : PlainName → List Char} {between : List Char}
    (hprint : ∀ name, ∀ d ∈ print name, Text.isBreak d = false)
    (hbetween : ∀ d ∈ between, Text.isBreak d = false) :
    ∀ d ∈ c.names print between, Text.isBreak d = false := by
  intro d hd
  unfold names at hd
  cases hold : c.old with
  | none =>
    rw [hold] at hd
    exact hprint c.name d hd
  | some old =>
    rw [hold, Option.map_some, Option.elim_some, List.mem_append, List.mem_append] at hd
    rcases hd with hd | hd | hd
    · exact hprint old d hd
    · exact hbetween d hd
    · exact hprint c.name d hd

theorem status_no_blank (c : PlainChange) : ∀ d ∈ c.letter :: c.score, Text.isBlank d = false := by
  intro d hd
  rcases List.mem_cons.1 hd with rfl | hd
  · exact c.letter_visible
  · exact isBlank_of_isDigit (c.score_digits d hd)

theorem shortLine_no_break (c : PlainChange) : ∀ d ∈ c.shortLine, Text.isBreak d = false := by
  have hletter := isBreak_of_not_isBlank c.letter_visible
  have hblank : Text.isBreak ' ' = false := rfl
  have harrow : arrow.all isPrinted = true := rfl
  have hnames := c.names_no_break PlainName.shown_no_break
    fun d hd => isBreak_of_isPrinted (List.all_eq_true.1 harrow d hd)
  intro d hd
  unfold shortLine at hd
  rw [List.mem_append, List.mem_cons] at hd
  rcases hd with hd | rfl | hd
  · cases hcolumn : c.inIndex with
    | true =>
      rw [hcolumn] at hd
      rcases List.mem_pair.1 hd with rfl | rfl
      · exact hletter
      · exact hblank
    | false =>
      rw [hcolumn] at hd
      rcases List.mem_pair.1 hd with rfl | rfl
      · exact hblank
      · exact hletter
  · exact hblank
  · exact hnames d hd

theorem fieldLine_no_break (c : PlainChange) : ∀ d ∈ c.fieldLine, Text.isBreak d = false := by
  have htab : Text.isBreak '\t' = false := rfl
  have hnames := c.names_no_break PlainName.text_no_break
    fun d hd => List.mem_singleton.1 hd ▸ htab
  intro d hd
  rcases List.mem_append.1 hd with hd | hd
  · exact isBreak_of_not_isBlank (c.status_no_blank d hd)
  rcases List.mem_cons.1 hd with rfl | hd
  · exact htab
  · exact hnames d hd

/-! ## One line -/

theorem names_shown_ne_nil (c : PlainChange) : c.names PlainName.shown arrow ≠ [] := by
  unfold names
  cases c.old with
  | none => exact c.name.shown_ne_nil
  | some old => exact fun h => old.shown_ne_nil (List.append_eq_nil_iff.1 h).1

/-- Behind the first arrow, or in the whole where there is none, stands the new name. -/
theorem behindFirst?_names (c : PlainChange) :
    (behindFirst? arrow (c.names PlainName.shown arrow)).getD (c.names PlainName.shown arrow) =
      c.name.shown := by
  unfold names
  cases c.old with
  | none =>
    show (behindFirst? arrow c.name.shown).getD c.name.shown = c.name.shown
    rw [(behindFirst?_eq_none_iff (by decide)).2 c.name.shown_no_arrow, Option.getD_none]
  | some old =>
    rw [Option.map_some, Option.elim_some, behindFirst?_arrow old.shown_no_arrow old.shown_end,
      Option.getD_some]

theorem statusLine?_shortLine (workspace : Path) (c : PlainChange) :
    statusLine? workspace c.shortLine = if !c.isDeleted then some (c.file workspace) else none := by
  -- The columns differ only in where the blank stands, which is lost with it.
  obtain ⟨x, y, hline, htrim⟩ : ∃ x y, c.shortLine = x :: y :: ' ' :: c.names PlainName.shown arrow ∧
      Text.trim [x, y] = [c.letter] := by
    unfold shortLine
    cases c.inIndex with
    | true => exact ⟨c.letter, ' ', rfl, (trim_column c.letter_visible).1⟩
    | false => exact ⟨' ', c.letter, rfl, (trim_column c.letter_visible).2⟩
  rw [hline, statusLine?_cons workspace x y c.names_shown_ne_nil, htrim, c.behindFirst?_names,
    c.name.unquote_shown]
  by_cases hdeleted : c.letter = 'D'
  · simp [isDeleted, hdeleted]
  · simp [isDeleted, file, hdeleted, Ne.symm hdeleted]

theorem nameStatusLine?_fieldLine (workspace : Path) (c : PlainChange) :
    nameStatusLine? workspace c.fieldLine = if !c.isDeleted then some (c.file workspace) else none := by
  have hold : ∀ o ∈ c.old.map PlainName.text, '\t' ∉ o := by
    intro o ho
    obtain ⟨old, -, rfl⟩ := Option.map_eq_some_iff.1 ho
    exact old.not_mem_text rfl
  have hfields : ∃ second more, tabFields (c.names PlainName.text ['\t']) = second :: more ∧
      (second :: more).getLastD second = c.name.text :=
    exists_tabFields _ hold (c.name.not_mem_text rfl)
  rw [fieldLine, nameStatusLine?_append workspace c.status_no_blank hfields, c.name.unquote_text]
  simp [isDeleted, file]

end PlainChange

/-! ## Whole listings -/

/-- Printed as a short status and as a status by name, changes are read as the same files: one for each
change that deletes nothing, in order, under its new name and with its letter. -/
theorem both_listings_give_the_files (workspace : Path) (changes : List PlainChange) :
    let files := (changes.filter fun c => !c.isDeleted).map (PlainChange.file workspace)
    ofStatus workspace (printLines (changes.map PlainChange.shortLine)) = files ∧
      ofNameStatus workspace (printLines (changes.map PlainChange.fieldLine)) = files := by
  constructor
  · exact filterMap_lines_printLines PlainChange.shortLine_no_break
      (PlainChange.statusLine?_shortLine workspace) changes
  · exact filterMap_lines_printLines PlainChange.fieldLine_no_break
      (PlainChange.nameStatusLine?_fieldLine workspace) changes

/-- A file that was moved to a name with a blank, one that is gone, and one that is new. -/
def moved : List PlainChange :=
  [⟨'R', rfl, true, "087".toList, List.all_eq_true.1 rfl,
      some ⟨"a.ts".toList, by decide, rfl, by decide⟩, ⟨"b c.ts".toList, by decide, rfl, by decide⟩⟩,
    ⟨'D', rfl, false, [], nofun, none, ⟨"d.ts".toList, by decide, rfl, by decide⟩⟩,
    ⟨'A', rfl, true, [], nofun, none, ⟨"e->.ts".toList, by decide, rfl, by decide⟩⟩]

theorem both_listings_give_the_files_moved :
    printLines (moved.map PlainChange.shortLine) =
        "R  a.ts -> \"b c.ts\"\n D d.ts\nA  e->.ts\n".toList ∧
      printLines (moved.map PlainChange.fieldLine) =
        "R087\ta.ts\tb c.ts\nD\td.ts\nA\te->.ts\n".toList ∧
      (let files := [⟨"/w/b c.ts".toList, ['R']⟩, ⟨"/w/e->.ts".toList, ['A']⟩]
      ofStatus "/w".toList (printLines (moved.map PlainChange.shortLine)) = files ∧
        ofNameStatus "/w".toList (printLines (moved.map PlainChange.fieldLine)) = files) :=
  ⟨by decide, by decide, both_listings_give_the_files "/w".toList moved⟩

end ImportAtlas.Changes
