/-
# ImportAtlas.Proofs.Segments -- documents made of spreads and import comments

Two scans go through a document, one for spreads and one for import comments, and neither knows of the
other. In a document of segments this does no harm: each scan finds what it looks for in the segments of
its kind, and passes over all others. A path in a comment may hold dots and number signs, which are the
marks of the two scans. The scan for comments does not look inside of what it has matched, and the scan
for spreads wants three dots on end.

The name in a spread has to end where its segment ends. `Separated` asks for this, and for nothing else.
-/
import ImportAtlas.Document.Imports
import ImportAtlas.Proofs.Scanning

namespace ImportAtlas.Document

open Text

/-! ## Segments -/

/-- Any number of blanks, line breaks included. -/
abbrev Blanks := { cs : List Char // ∀ c ∈ cs, isBlank c = true }

/-- One blank or more. -/
abbrev Gap := { cs : List Char // cs ≠ [] ∧ ∀ c ∈ cs, isBlank c = true }

/-- The name of a fragment. -/
abbrev FragmentName :=
  { name : Path // name ≠ [] ∧ (∀ c ∈ name, isWordChar c = true) ∧ name ≠ inlineKeyword }

/-- A quote of either kind. -/
abbrev Quote := { c : Char // isQuote c = true }

/-- The mark of a spread. -/
def dots : List Char := "...".toList

/-- The path in an import comment. -/
abbrev QuotedPath :=
  { path : Path // path ≠ [] ∧ (∀ c ∈ path, isQuote c = false) ∧ ¬ dots <:+: path }

/-- A piece of a document. -/
inductive Segment where
  | spread (blanks : Blanks) (name : FragmentName)
  /-- An inline fragment, up to its keyword. -/
  | inline (blanks : Blanks)
  | comment (blanks : Blanks) (gap : Gap) (opening : Quote) (path : QuotedPath) (closing : Quote)
  /-- Anything without a dot and without a number sign. -/
  | inert (text : { cs : List Char // '.' ∉ cs ∧ '#' ∉ cs })

namespace Segment

/-- The fragment that a segment spreads. -/
def fragment? : Segment → Option Path
  | spread _ name => some name.1
  | _ => none

/-- The file that a segment imports. -/
def path? : Segment → Option Path
  | comment _ _ _ path _ => some path.1
  | _ => none

/-- The word behind the dots of a segment. -/
def word? : Segment → Option Path
  | spread _ name => some name.1
  | inline _ => some inlineKeyword
  | _ => none

def text : Segment → List Char
  | spread blanks name => dots ++ (blanks.1 ++ name.1)
  | inline blanks => dots ++ (blanks.1 ++ inlineKeyword)
  | comment blanks gap opening path closing =>
    '#' :: (blanks.1 ++ ("import".toList ++ (gap.1 ++ opening.1 :: (path.1 ++ [closing.1]))))
  | inert text => text.1

end Segment

/-- The text of some segments, without anything between them. -/
def document (segments : List Segment) : List Char := segments.flatMap Segment.text

/-- Where a segment ends in a word, the word ends there too. -/
def Separated : List Segment → Prop
  | [] => True
  | segment :: segments =>
    (segment.word?.isSome = true → StopsBefore isWordChar (document segments)) ∧ Separated segments

instance decidableSeparated : (segments : List Segment) → Decidable (Separated segments)
  | [] => isTrue trivial
  | segment :: segments =>
    have := decidableSeparated segments
    inferInstanceAs (Decidable
      ((segment.word?.isSome = true → StopsBefore isWordChar (document segments)) ∧ Separated segments))

/-! ## Marks -/

theorem spreadPattern_of_not_prefix {cs : List Char} (h : ¬ dots <+: cs) : spreadPattern cs = none := by
  have hafter : after? "...".toList cs = none := after?_of_not_prefix h
  simp only [spreadPattern, hafter, Option.bind_eq_bind, Option.bind_none]

theorem commentPattern_of_not_prefix {cs : List Char} (h : ¬ ['#'] <+: cs) :
    commentPattern cs = none := by
  simp only [commentPattern, after?_of_not_prefix h, Option.bind_eq_bind, Option.bind_none]

theorem mem_dots_iff {c : Char} : c ∈ dots ↔ c = '.' := by
  show c ∈ ['.', '.', '.'] ↔ c = '.'
  simp

theorem Quote.eq_or (quote : Quote) : quote.1 = '"' ∨ quote.1 = '\'' := by
  have hquote := quote.2
  simpa [isQuote] using hquote

/-! ## Spreads -/

/-- The word behind the dots is found whole. -/
theorem spreadPattern_word (blanks : Blanks) {word rest : List Char} (hne : word ≠ [])
    (hword : ∀ c ∈ word, isWordChar c = true) (hrest : StopsBefore isWordChar rest) :
    spreadPattern (dots ++ (blanks.1 ++ word) ++ rest) =
      some (word, (dots ++ (blanks.1 ++ word)).length) := by
  have hblank : StopsBefore isBlank (word ++ rest) := by
    apply StopsBefore.append_of_ne_nil _ hne
    intro c hc
    exact isBlank_of_isWordChar (hword c (List.mem_of_mem_head? hc))
  have hskip : skipBlanks (blanks.1 ++ (word ++ rest)) = word ++ rest :=
    skipBlanks_append_of_stopsBefore blanks.2 hblank
  have hafter : after? "...".toList (dots ++ (blanks.1 ++ (word ++ rest))) =
      some (blanks.1 ++ (word ++ rest)) := after?_append _ _
  have hlength : (dots ++ (blanks.1 ++ (word ++ rest))).length - rest.length =
      (dots ++ (blanks.1 ++ word)).length := by
    simp only [List.length_append]
    omega
  rw [List.append_assoc, List.append_assoc]
  simp only [spreadPattern, hafter, Option.bind_eq_bind, Option.bind_some, hskip,
    run1?_append hne hword hrest, hlength, Option.pure_def]

theorem matches_spreadPattern_word (blanks : Blanks) {word rest : List Char} (hne : word ≠ [])
    (hword : ∀ c ∈ word, isWordChar c = true) (hrest : StopsBefore isWordChar rest) :
    matchesAnywhere spreadPattern (dots ++ (blanks.1 ++ word) ++ rest) =
      word :: matchesAnywhere spreadPattern rest := by
  apply matchesAnywhere_append_of_match
  · exact List.cons_ne_nil _ _
  · exact spreadPattern_word blanks hne hword hrest

/-- A text without dots holds no spread. -/
theorem matches_spreadPattern_of_not_mem {front : List Char} (hfront : '.' ∉ front)
    (rest : List Char) :
    matchesAnywhere spreadPattern (front ++ rest) = matchesAnywhere spreadPattern rest := by
  apply matchesAnywhere_append_of_not_mem (by decide) fun _ => spreadPattern_of_not_prefix
  intro c hc hdot
  exact hfront (mem_dots_iff.1 hdot ▸ hc)

/-- Nor does a comment, whatever dots its path holds. -/
theorem matches_spreadPattern_comment (blanks : Blanks) (gap : Gap) (opening : Quote)
    (path : QuotedPath) (closing : Quote) (rest : List Char) :
    matchesAnywhere spreadPattern ((Segment.comment blanks gap opening path closing).text ++ rest) =
      matchesAnywhere spreadPattern rest := by
  have hblank : isBlank '.' = false := by decide
  have hquote : ∀ quote : Quote, quote.1 ∉ dots := by
    intro quote hmem
    have hdot : isQuote '.' = true := mem_dots_iff.1 hmem ▸ quote.2
    exact absurd hdot (by decide)
  have hfront : '.' ∉ '#' :: (blanks.1 ++ ("import".toList ++ (gap.1 ++ [opening.1]))) := by
    have hblanks : '.' ∉ blanks.1 := fun h => absurd (blanks.2 _ h) (by rw [hblank]; decide)
    have hgap : '.' ∉ gap.1 := fun h => absurd (gap.2.2 _ h) (by rw [hblank]; decide)
    have hopening : '.' ≠ opening.1 := fun h => hquote opening (mem_dots_iff.2 h.symm)
    simp [hblanks, hgap, hopening]
  have hsplit : (Segment.comment blanks gap opening path closing).text ++ rest =
      '#' :: (blanks.1 ++ ("import".toList ++ (gap.1 ++ [opening.1]))) ++
        (path.1 ++ [closing.1] ++ rest) := by
    simp [Segment.text]
  -- Up to the path there is no dot at all. The quote behind the path keeps its dots from those that follow.
  rw [hsplit, matches_spreadPattern_of_not_mem hfront]
  apply matchesAnywhere_append_of_no_mark fun _ => spreadPattern_of_not_prefix
  · intro hinside
    exact path.2.2.2 (infix_of_infix_concat (by decide) (hquote closing) hinside)
  · intro c hc
    rw [List.getLast?_concat] at hc
    exact Option.some.inj hc ▸ hquote closing

theorem Segment.matches_spreadPattern (segment : Segment) {rest : List Char}
    (hrest : segment.word?.isSome = true → StopsBefore isWordChar rest) :
    matchesAnywhere spreadPattern (segment.text ++ rest) =
      segment.word?.toList ++ matchesAnywhere spreadPattern rest := by
  cases segment with
  | spread blanks name => exact matches_spreadPattern_word blanks name.2.1 name.2.2.1 (hrest rfl)
  | inline blanks =>
    have hword : ∀ c ∈ inlineKeyword, isWordChar c = true := List.all_eq_true.1 (by decide)
    exact matches_spreadPattern_word blanks (by decide) hword (hrest rfl)
  | comment blanks gap opening path closing =>
    exact matches_spreadPattern_comment blanks gap opening path closing rest
  | inert text => exact matches_spreadPattern_of_not_mem text.2.1 rest

/-! ## Import comments -/

theorem commentPattern_comment (blanks : Blanks) (gap : Gap) (opening : Quote) (path : QuotedPath)
    (closing : Quote) (rest : List Char) :
    commentPattern ((Segment.comment blanks gap opening path closing).text ++ rest) =
      some (path.1, (Segment.comment blanks gap opening path closing).text.length) := by
  have hquote : ∀ quote : Quote, isBlank quote.1 = false := by
    intro quote
    rcases quote.eq_or with h | h <;> rw [h] <;> decide
  have hskipQuote : ∀ (quote : Quote) (cs : List Char), skipQuote? (quote.1 :: cs) = some cs :=
    fun quote cs => if_pos quote.2
  have hblanks : ∀ cs, skipBlanks (blanks.1 ++ ("import".toList ++ cs)) = "import".toList ++ cs :=
    fun cs => skipBlanks_append_of_stopsBefore blanks.2 (stopsBefore_cons.2 (by decide))
  have hgap : ∀ cs, skipBlanks1? (gap.1 ++ opening.1 :: cs) = some (opening.1 :: cs) :=
    fun cs => skipBlanks1?_append gap.2.1 gap.2.2 (stopsBefore_cons.2 (hquote opening))
  have hpath : run1? (fun c => !isQuote c) (path.1 ++ closing.1 :: rest) =
      some (path.1, closing.1 :: rest) := by
    apply run1?_append path.2.1
    · intro c hc
      rw [path.2.2.1 c hc]
      rfl
    · exact stopsBefore_cons.2 (by rw [closing.2]; rfl)
  have hlength : ((Segment.comment blanks gap opening path closing).text ++ rest).length - rest.length =
      (Segment.comment blanks gap opening path closing).text.length := by
    rw [List.length_append, Nat.add_sub_cancel]
  have hsplit : (Segment.comment blanks gap opening path closing).text ++ rest =
      ['#'] ++ (blanks.1 ++ ("import".toList ++
        (gap.1 ++ opening.1 :: (path.1 ++ closing.1 :: rest)))) := by
    simp [Segment.text]
  rw [← hlength, hsplit]
  simp only [commentPattern, after?_append, Option.bind_eq_bind, Option.bind_some, hblanks, hgap,
    hskipQuote, hpath, Option.pure_def]

/-- A text without number signs holds no comment. -/
theorem matches_commentPattern_of_not_mem {front : List Char} (hfront : '#' ∉ front)
    (rest : List Char) :
    matchesAnywhere commentPattern (front ++ rest) = matchesAnywhere commentPattern rest := by
  apply matchesAnywhere_append_of_not_mem (by decide) fun _ => commentPattern_of_not_prefix
  intro c hc hmark
  exact hfront (List.mem_singleton.1 hmark ▸ hc)

theorem not_mem_dots_append (blanks : Blanks) {word : List Char}
    (hword : ∀ c ∈ word, isWordChar c = true) : '#' ∉ dots ++ (blanks.1 ++ word) := by
  have hblanks : '#' ∉ blanks.1 := fun h => absurd (blanks.2 _ h) (by decide)
  have hword : '#' ∉ word := fun h => absurd (hword _ h) (by decide)
  have hdots : '#' ∉ dots := by decide
  simp [hblanks, hword, hdots]

theorem Segment.matches_commentPattern (segment : Segment) (rest : List Char) :
    matchesAnywhere commentPattern (segment.text ++ rest) =
      segment.path?.toList ++ matchesAnywhere commentPattern rest := by
  cases segment with
  | spread blanks name =>
    exact matches_commentPattern_of_not_mem (not_mem_dots_append blanks name.2.2.1) rest
  | inline blanks =>
    have hword : ∀ c ∈ inlineKeyword, isWordChar c = true := List.all_eq_true.1 (by decide)
    exact matches_commentPattern_of_not_mem (not_mem_dots_append blanks hword) rest
  | comment blanks gap opening path closing =>
    apply matchesAnywhere_append_of_match
    · exact List.cons_ne_nil _ _
    · exact commentPattern_comment blanks gap opening path closing rest
  | inert text => exact matches_commentPattern_of_not_mem text.2.2 rest

/-! ## Documents -/

/-- What is found in a document is what its segments hold, if each segment can be told from what follows
it. -/
theorem matches_document {pat : Pattern Path} {found : Segment → Option Path}
    (hstep : ∀ (segment : Segment) {rest : List Char},
      (segment.word?.isSome = true → StopsBefore isWordChar rest) →
      matchesAnywhere pat (segment.text ++ rest) = (found segment).toList ++ matchesAnywhere pat rest)
    {segments : List Segment} (hsegments : Separated segments) :
    matchesAnywhere pat (document segments) = segments.filterMap found := by
  induction segments with
  | nil => rfl
  | cons segment segments ih =>
    show matchesAnywhere pat (segment.text ++ document segments) = _
    rw [hstep segment hsegments.1, ih hsegments.2, List.filterMap_cons]
    cases found segment <;> rfl

theorem Segment.filter_word? (segment : Segment) :
    segment.word?.filter (· ≠ inlineKeyword) = segment.fragment? := by
  cases segment with
  | spread blanks name =>
    show Option.filter _ (some name.1) = some name.1
    simp [name.2.2.2]
  | inline blanks =>
    show Option.filter _ (some inlineKeyword) = none
    simp
  | comment => rfl
  | inert => rfl

/-- A document of segments refers to the fragments that it spreads, in their order, and then to the files
that its comments name, in theirs. Inline fragments add nothing. -/
theorem imports_of_segments (segments : List Segment) (hsegments : Separated segments) :
    imports (document segments) =
      segments.filterMap Segment.fragment? ++ segments.filterMap Segment.path? := by
  have hspreads : spreads (document segments) = segments.filterMap Segment.fragment? := by
    rw [spreads, matches_document Segment.matches_spreadPattern hsegments, List.filter_filterMap]
    exact List.filterMap_congr fun segment _ => segment.filter_word?
  have hcomments : commentImports (document segments) = segments.filterMap Segment.path? :=
    matches_document (fun segment rest _ => segment.matches_commentPattern rest) hsegments
  rw [imports, hspreads, hcomments]

/-- A document where a comment stands between spreads and its path holds the marks of both scans. -/
def tangled : List Segment :=
  [.inert ⟨"query Q \x7b ".toList, by decide⟩,
    .spread ⟨"\n ".toList, List.all_eq_true.1 (by decide)⟩
      ⟨"A".toList, by decide, List.all_eq_true.1 (by decide), by decide⟩,
    .inline ⟨[], nofun⟩, .inert ⟨" B \x7b \x7d".toList, by decide⟩,
    .comment ⟨[], nofun⟩ ⟨" ".toList, by decide, List.all_eq_true.1 (by decide)⟩ ⟨'"', rfl⟩
      ⟨"../a# import ..".toList, by decide,
        fun c hc => eq_false_of_ne_true (List.any_eq_false.1 rfl c hc), by decide⟩ ⟨'\'', rfl⟩,
    .spread ⟨[], nofun⟩ ⟨"A".toList, by decide, List.all_eq_true.1 (by decide), by decide⟩]

theorem imports_of_segments_tangled :
    Separated tangled ∧
      document tangled =
        "query Q \x7b ...\n A...on B \x7b \x7d#import \"../a# import ..'...A".toList ∧
      imports (document tangled) = ["A".toList, "A".toList, "../a# import ..".toList] := by
  have hsegments : Separated tangled := by decide
  exact ⟨hsegments, by decide, imports_of_segments tangled hsegments⟩

end ImportAtlas.Document
