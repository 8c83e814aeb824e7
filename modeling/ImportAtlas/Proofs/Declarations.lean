/-
# ImportAtlas.Proofs.Declarations -- texts that declare line by line

Four scans look for references in a text, each on its own, and the blanks that they pass over may hold
line breaks. In a text where every declaration stands on one line, none of this shows: what is found is
what the lines declare, grouped by anchor and otherwise in their order.

`Line` is the form of such lines. It leaves out what can go on over the end of a line: a visibility with
nothing behind it, a keyword at the end of a line, a parenthesis that is not closed. All readers share
the head of a declaration, so that only what stands behind the keyword is looked at for each of them
(`ReadsBodies`).
-/
import ImportAtlas.Proofs.CanonicalReach
import ImportAtlas.Proofs.Scanning

namespace ImportAtlas.Crate

open Text

/-! ## Lines -/

/-- Blanks on a line. -/
abbrev Blanks := { cs : List Char // ∀ c ∈ cs, isBlank c = true ∧ c ≠ '\n' }

/-- One blank or more. -/
abbrev Gap := { cs : List Char // cs ≠ [] ∧ ∀ c ∈ cs, isBlank c = true ∧ c ≠ '\n' }

/-- Whatever stands up to the end of a line. -/
abbrev Tail := { cs : List Char // '\n' ∉ cs }

/-- The name of a declared module. -/
abbrev Name := { name : Path // name ≠ [] ∧ ∀ c ∈ name, isWordChar c = true }

/-- A word that a declaration begins with. -/
inductive Keyword where
  | mod
  | use
  deriving DecidableEq, Repr

/-- How a keyword is written. -/
def Keyword.word : Keyword → String
  | mod => "mod"
  | use => "use"

/-- What stands before the keyword of a visible declaration. -/
inductive Visibility where
  | pub (gap : Gap)
  | limited (blanks : Blanks) (scope : { cs : List Char // ∀ c ∈ cs, c ≠ ')' ∧ c ≠ '\n' }) (gap : Gap)

/-- A visibility as it is written, with the blanks up to the keyword. A limited one names its scope in
parentheses. -/
def Visibility.text : Visibility → List Char
  | pub gap => "pub".toList ++ gap.1
  | limited blanks scope gap => "pub".toList ++ (blanks.1 ++ '(' :: (scope.1 ++ ')' :: gap.1))

/-- A text up to the end of a line that begins with something else than a blank. -/
structure Phrase where
  text : List Char
  no_break : '\n' ∉ text
  ne_nil : text ≠ []
  no_blank : StopsBefore isBlank text

/-- How the path of a use begins below an anchor. -/
def Anchor.mark (anchor : Anchor) : List Char := (anchor.label ++ "::").toList

namespace Phrase

/-- The first word, which may be empty, is neither a keyword nor a visibility. -/
def IsPlain (phrase : Phrase) : Prop :=
  phrase.text.takeWhile isWordChar ≠ "pub".toList ∧
    ∀ keyword : Keyword, phrase.text.takeWhile isWordChar ≠ keyword.word.toList

/-- No keyword stands in front, and no parenthesis that would belong to a visibility. -/
def IsItem (phrase : Phrase) : Prop :=
  StopsBefore (· = '(') phrase.text ∧ ∀ keyword : Keyword, ¬ keyword.word.toList <+: phrase.text

/-- No anchor with a path stands in front. -/
def IsOutside (phrase : Phrase) : Prop :=
  ∀ anchor : Anchor, anchor ≠ .mod → anchor.mark <+: phrase.text →
    StopsBefore isModuleChar (phrase.text.drop anchor.mark.length)

end Phrase

/-- What stands behind a keyword and its blanks. -/
inductive Body where
  /-- A module in a file of its own. -/
  | declared (name : Name) (blanks : Blanks) (tail : Tail)
  /-- A module whose items follow. -/
  | opened (name : Name) (blanks : Blanks) (tail : Tail)
  | anchored (anchor : Anchor) (hanchor : anchor ≠ .mod) (path : Path) (hpath : IsModuleName path)
      (tail : Tail) (htail : StopsBefore isModuleChar tail.1)
  | outside (target : Phrase) (htarget : target.IsOutside)

namespace Body

def keyword : Body → Keyword
  | declared .. | opened .. => .mod
  | anchored .. | outside .. => .use

/-- What stands behind the part of the body that is looked for. -/
def tail : Body → List Char
  | declared _ _ tail | opened _ _ tail | anchored _ _ _ _ tail _ => tail.1
  | outside .. => []

def text : Body → List Char
  | declared name blanks tail => name.1 ++ (blanks.1 ++ ';' :: tail.1)
  | opened name blanks tail => name.1 ++ (blanks.1 ++ '\x7b' :: tail.1)
  | anchored anchor _ path _ tail _ => anchor.mark ++ (path ++ tail.1)
  | outside target _ => target.text

end Body

/-- A line: blanks alone, other code with or without a visibility in front of it, or a keyword and what it
declares. -/
inductive Line where
  | blank (blanks : Blanks)
  | plain (indent : Blanks) (phrase : Phrase) (hphrase : phrase.IsPlain)
  | visible (indent : Blanks) (visibility : Visibility) (phrase : Phrase) (hphrase : phrase.IsItem)
  | headed (indent : Blanks) (visibility : Option Visibility) (gap : Gap) (body : Body)

namespace Line

/-- A line as it is written, up to its break. -/
def text : Line → List Char
  | blank blanks => blanks.1
  | plain indent phrase _ => indent.1 ++ phrase.text
  | visible indent visibility phrase _ => indent.1 ++ (visibility.text ++ phrase.text)
  | headed indent visibility gap body =>
    indent.1 ++ (visibility.elim [] Visibility.text ++ (body.keyword.word.toList ++ (gap.1 ++ body.text)))

/-- What stands behind the keyword of a line, if it has one. -/
def body? : Line → Option Body
  | headed _ _ _ body => some body
  | _ => none

end Line

/-- Lines with line breaks between them. -/
def document (lines : List Line) : List Char := ['\n'].intercalate (lines.map Line.text)

theorem document_cons (line : Line) (lines : List Line) :
    document (line :: lines) = line.text ++ lines.flatMap fun line => '\n' :: line.text := by
  induction lines generalizing line with
  | nil => simp [document]
  | cons next lines ih =>
    rw [List.flatMap_cons, List.cons_append, ← ih next]
    unfold document
    rw [List.map_cons, List.map_cons, List.intercalate_cons_cons, List.append_assoc]
    rfl

/-! ## What a line declares -/

/-- The part of a module path before the first pair of colons. -/
def leadingSegment (path : Path) : Path :=
  path.take (path.tails.findIdx fun rest => [':', ':'] <+: rest)

/-- The reference that a declaration makes. A path that begins with colons makes none. -/
def Body.import? : Body → Option Import
  | declared name _ _ => some { name := name.1, anchor := .mod }
  | anchored anchor _ path _ _ _ =>
    if [':', ':'] <+: path then none
    else some { name := leadingSegment path, anchor, fullPath := some path }
  | _ => none

def Line.import? (line : Line) : Option Import := line.body?.bind Body.import?

theorem firstSegment_eq (path : Path) : firstSegment path = leadingSegment path := by
  unfold leadingSegment
  fun_induction firstSegment path with
  | case1 => rfl
  | case2 cs => rfl
  | case3 c cs hcolons ih =>
    have hpair : decide ([':', ':'] <+: c :: cs) = false := by
      refine decide_eq_false ?_
      rintro ⟨rest, hrest⟩
      obtain ⟨rfl, rfl⟩ := List.cons.inj hrest
      exact hcolons rest rfl rfl
    rw [List.tails_cons, List.findIdx_cons, hpair, cond_false, List.take_succ_cons, ih]

theorem useImport?_eq (anchor : Anchor) {path : Path} (hpath : path ≠ []) :
    useImport? anchor path = if [':', ':'] <+: path then none
      else some { name := leadingSegment path, anchor, fullPath := some path } := by
  rw [← firstSegment_eq, useImport?]
  fun_cases firstSegment path with
  | case1 => exact absurd rfl hpath
  | case2 cs => rfl
  | case3 c cs hcolons =>
    rw [if_neg]
    rintro ⟨rest, hrest⟩
    obtain ⟨rfl, rfl⟩ := List.cons.inj hrest
    exact hcolons rest rfl rfl

/-! ## Heads -/

theorem skipParenthesis?_of_stopsBefore {cs : List Char} (h : StopsBefore (· = '(') cs) :
    skipParenthesis? cs = none := by
  unfold skipParenthesis?
  split
  · exact absurd (stopsBefore_cons.1 h) (by decide)
  · rfl

theorem skipParenthesis?_append {scope : List Char} (hscope : ∀ c ∈ scope, c ≠ ')')
    (rest : List Char) : skipParenthesis? ('(' :: (scope ++ ')' :: rest)) = some rest := by
  have hdrop : (scope ++ ')' :: rest).dropWhile (· ≠ ')') = ')' :: rest := by
    rw [List.dropWhile_append_of_pos fun c hc => decide_eq_true (hscope c hc)]
    rfl
  rw [skipParenthesis?, hdrop]

theorem length_of_skipParenthesis? {cs rest : List Char} (h : skipParenthesis? cs = some rest) :
    rest.length < cs.length := by
  unfold skipParenthesis? at h
  split at h
  · next cs =>
    split at h
    · next hdrop =>
      cases h
      have hle := (List.dropWhile_suffix (l := cs) (· ≠ ')')).length_le
      rw [hdrop] at hle
      simp only [List.length_cons] at hle ⊢
      omega
    · cases h
  · cases h

theorem length_of_skipVisibility? {cs rest : List Char} (h : skipVisibility? cs = some rest) :
    rest.length ≤ cs.length := by
  unfold skipVisibility? at h
  split at h
  · cases h
    exact Nat.le_refl _
  · next behind hbehind =>
    obtain rfl := after?_eq_some_iff.1 hbehind
    have hblanks := length_skipBlanks_le behind
    rw [List.length_append]
    split at h
    · next hparenthesis =>
      have h₁ := length_of_skipParenthesis? hparenthesis
      have h₂ := length_of_skipBlanks1? h
      omega
    · have h₁ := length_of_skipBlanks1? h
      omega

theorem length_of_skipHead? {keyword : String} {cs rest : List Char}
    (h : skipHead? keyword cs = some rest) : rest.length < cs.length := by
  unfold skipHead? at h
  simp only [Option.bind_eq_bind, Option.bind_eq_some_iff] at h
  obtain ⟨behind, hvisibility, gap, hkeyword, hgap⟩ := h
  have h₁ := length_skipBlanks_le cs
  have h₂ := length_of_skipVisibility? hvisibility
  have h₃ := congrArg List.length (after?_eq_some_iff.1 hkeyword)
  have h₄ := length_of_skipBlanks1? hgap
  rw [List.length_append] at h₃
  omega

theorem Visibility.skip_text (visibility : Visibility) {cs : List Char}
    (hblank : StopsBefore isBlank cs) (hparenthesis : StopsBefore (· = '(') cs) :
    skipVisibility? (visibility.text ++ cs) = some cs := by
  cases visibility with
  | pub gap =>
    have hgap : ∀ c ∈ gap.1, isBlank c = true := fun c hc => (gap.2.2 c hc).1
    rw [text, List.append_assoc, skipVisibility?, after?_append]
    dsimp only
    rw [skipBlanks_append_of_stopsBefore hgap hblank, skipParenthesis?_of_stopsBefore hparenthesis]
    exact skipBlanks1?_append gap.2.1 hgap hblank
  | limited blanks scope gap =>
    have hblanks : ∀ c ∈ blanks.1, isBlank c = true := fun c hc => (blanks.2 c hc).1
    rw [text, List.append_assoc, skipVisibility?, after?_append]
    simp only [List.append_assoc, List.cons_append]
    rw [skipBlanks_append_of_stopsBefore hblanks (stopsBefore_cons.2 (by decide)),
      skipParenthesis?_append fun c hc => (scope.2 c hc).1]
    exact skipBlanks1?_append gap.2.1 (fun c hc => (gap.2.2 c hc).1) hblank

theorem skipVisibility?_of_not_prefix {cs : List Char} (h : ¬ "pub".toList <+: cs) :
    skipVisibility? cs = some cs := by
  rw [skipVisibility?, after?_of_not_prefix h]

/-- A text that goes on with the characters of a word goes on with no blank. -/
theorem stopsBefore_of_after? {word cs rest : List Char} (hword : ∀ c ∈ word, isWordChar c = true)
    (hne : cs.takeWhile isWordChar ≠ word) (h : after? word cs = some rest) :
    StopsBefore isBlank rest ∧ StopsBefore (· = '(') rest := by
  obtain rfl := after?_eq_some_iff.1 h
  cases rest with
  | nil => exact ⟨stopsBefore_nil, stopsBefore_nil⟩
  | cons c rest =>
    have hc : isWordChar c = true := by
      by_contra hc
      exact hne (takeWhile_append_of_stopsBefore hword
        (stopsBefore_cons.2 (Bool.eq_false_iff.2 hc)))
    rw [stopsBefore_cons, stopsBefore_cons]
    refine ⟨isBlank_of_isWordChar hc, decide_eq_false ?_⟩
    rintro rfl
    exact absurd hc (by decide)

theorem Keyword.isWordChar_word (keyword : Keyword) :
    ∀ c ∈ keyword.word.toList, isWordChar c = true := by
  apply List.all_eq_true.1
  cases keyword <;> decide

/-- A first word other than a keyword and a visibility is the head of nothing. -/
theorem skipHead?_of_word {keyword : Keyword} {cs : List Char} (hblank : StopsBefore isBlank cs)
    (hpub : cs.takeWhile isWordChar ≠ "pub".toList)
    (hkeyword : cs.takeWhile isWordChar ≠ keyword.word.toList) :
    skipHead? keyword.word cs = none := by
  rw [skipHead?, skipBlanks_of_stopsBefore hblank, skipVisibility?]
  cases hafter : after? "pub".toList cs with
  | some rest =>
    obtain ⟨hrest, hparenthesis⟩ := stopsBefore_of_after? (List.all_eq_true.1 (by decide)) hpub hafter
    dsimp only
    rw [skipBlanks_of_stopsBefore hrest, skipParenthesis?_of_stopsBefore hparenthesis,
      skipBlanks1?_of_stopsBefore hrest]
    rfl
  | none =>
    cases hbehind : after? keyword.word.toList cs with
    | none => simp only [Option.bind_eq_bind, Option.bind_some, hbehind, Option.bind_none]
    | some rest =>
      obtain ⟨hrest, -⟩ := stopsBefore_of_after? keyword.isWordChar_word hkeyword hbehind
      simp only [Option.bind_eq_bind, Option.bind_some, hbehind]
      exact skipBlanks1?_of_stopsBefore hrest

theorem Keyword.stopsBefore_word (keyword : Keyword) (cs : List Char) :
    StopsBefore isBlank (keyword.word.toList ++ cs) ∧
      StopsBefore (· = '(') (keyword.word.toList ++ cs) := by
  cases keyword <;> exact ⟨stopsBefore_cons.2 (by decide), stopsBefore_cons.2 (by decide)⟩

theorem Keyword.after?_word (keyword other : Keyword) (cs : List Char) :
    after? keyword.word.toList (other.word.toList ++ cs) = if keyword = other then some cs else none := by
  cases keyword <;> cases other <;> rfl

theorem Keyword.not_pub_prefix (keyword : Keyword) (cs : List Char) :
    ¬ "pub".toList <+: keyword.word.toList ++ cs := by
  rintro ⟨rest, hrest⟩
  cases keyword <;> exact absurd (List.cons.inj hrest).1 (by decide)

theorem Visibility.stopsBefore_text (visibility : Visibility) (cs : List Char) :
    StopsBefore isBlank (visibility.text ++ cs) := by
  cases visibility <;> exact stopsBefore_cons.2 (by decide)

theorem skipVisibility?_keyword (visibility : Option Visibility) (keyword : Keyword) (cs : List Char) :
    skipVisibility? (skipBlanks (visibility.elim [] Visibility.text ++ (keyword.word.toList ++ cs))) =
      some (keyword.word.toList ++ cs) := by
  obtain ⟨hblank, hparenthesis⟩ := keyword.stopsBefore_word cs
  cases visibility with
  | none =>
    rw [Option.elim_none, List.nil_append, skipBlanks_of_stopsBefore hblank]
    exact skipVisibility?_of_not_prefix (keyword.not_pub_prefix cs)
  | some visibility =>
    rw [Option.elim_some, skipBlanks_of_stopsBefore (visibility.stopsBefore_text _)]
    exact visibility.skip_text hblank hparenthesis

theorem Anchor.stopsBefore_mark (anchor : Anchor) (cs : List Char) :
    StopsBefore isBlank (anchor.mark ++ cs) := by
  cases anchor <;> exact stopsBefore_cons.2 (by decide)

theorem Name.stopsBefore (name : Name) (cs : List Char) : StopsBefore isBlank (name.1 ++ cs) := by
  refine StopsBefore.append_of_ne_nil (fun c hc => ?_) name.2.1 cs
  exact isBlank_of_isWordChar (name.2.2 c (List.mem_of_mem_head? hc))

theorem Body.stopsBefore_text (body : Body) (cs : List Char) : StopsBefore isBlank (body.text ++ cs) := by
  cases body with
  | declared name blanks tail => exact List.append_assoc _ _ cs ▸ name.stopsBefore _
  | opened name blanks tail => exact List.append_assoc _ _ cs ▸ name.stopsBefore _
  | anchored anchor hanchor path hpath tail htail =>
    exact List.append_assoc _ _ cs ▸ anchor.stopsBefore_mark _
  | outside target htarget => exact target.no_blank.append_of_ne_nil target.ne_nil cs

/-- The head of a line is passed with the keyword of the line and no other. -/
theorem skipHead?_headed (keyword : Keyword) (visibility : Option Visibility) (gap : Gap) (body : Body)
    (rest : List Char) :
    skipHead? keyword.word (visibility.elim [] Visibility.text ++
        (body.keyword.word.toList ++ (gap.1 ++ (body.text ++ rest)))) =
      if keyword = body.keyword then some (body.text ++ rest) else none := by
  have hgap : skipBlanks1? (gap.1 ++ (body.text ++ rest)) = some (body.text ++ rest) :=
    skipBlanks1?_append gap.2.1 (fun c hc => (gap.2.2 c hc).1) (body.stopsBefore_text rest)
  rw [skipHead?, skipVisibility?_keyword, Option.bind_eq_bind, Option.bind_some, Keyword.after?_word]
  split
  · exact hgap
  · rfl

/-! ## No line breaks -/

theorem not_mem_of_isBlank_and_ne {cs : List Char} (hcs : ∀ c ∈ cs, isBlank c = true ∧ c ≠ '\n') :
    '\n' ∉ cs :=
  fun h => (hcs _ h).2 rfl

theorem Keyword.no_break (keyword : Keyword) : '\n' ∉ keyword.word.toList := by
  cases keyword <;> decide

theorem Visibility.no_break (visibility : Visibility) : '\n' ∉ visibility.text := by
  cases visibility with
  | pub gap => simp [text, not_mem_of_isBlank_and_ne gap.2.2]
  | limited blanks scope gap =>
    have hscope : '\n' ∉ scope.1 := fun h => (scope.2 _ h).2 rfl
    simp [text, not_mem_of_isBlank_and_ne blanks.2, not_mem_of_isBlank_and_ne gap.2.2, hscope]

theorem Anchor.no_break (anchor : Anchor) : '\n' ∉ anchor.mark := by
  cases anchor <;> decide

theorem Name.no_break (name : Name) : '\n' ∉ name.1 :=
  fun h => absurd (name.2.2 _ h) (by decide)

theorem Body.no_break (body : Body) : '\n' ∉ body.text := by
  cases body with
  | declared name blanks tail =>
    simp [text, Name.no_break, not_mem_of_isBlank_and_ne blanks.2, tail.2]
  | opened name blanks tail =>
    simp [text, Name.no_break, not_mem_of_isBlank_and_ne blanks.2, tail.2]
  | anchored anchor hanchor path hpath tail htail =>
    have hpath : '\n' ∉ path := fun h => absurd (hpath.2 _ h) (by decide)
    simp [text, anchor.no_break, hpath, tail.2]
  | outside target htarget => exact target.no_break

theorem skipHead?_visible (keyword : Keyword) (visibility : Visibility) {phrase : Phrase}
    (hphrase : phrase.IsItem) {rest : List Char} (hrest : AtLineEnd rest) :
    skipHead? keyword.word (visibility.text ++ (phrase.text ++ rest)) = none := by
  have hkeyword : ¬ keyword.word.toList <+: phrase.text ++ rest := fun h =>
    hphrase.2 keyword (hrest.prefix_of_prefix_append keyword.no_break h)
  rw [skipHead?, skipBlanks_of_stopsBefore (visibility.stopsBefore_text _),
    visibility.skip_text (phrase.no_blank.append_of_ne_nil phrase.ne_nil rest)
      (hphrase.1.append_of_ne_nil phrase.ne_nil rest),
    Option.bind_eq_bind, Option.bind_some, after?_of_not_prefix hkeyword]
  rfl

/-! ## Readers behind a head -/

section

variable {α : Type} (keyword : Keyword) (read : List Char → Option (α × List Char))

/-- Reads what stands behind a keyword. -/
def behindHead (cs : List Char) : Option (α × List Char) := (skipHead? keyword.word cs).bind read

/-- A reader that finds in a body with its keyword what it should, and what follows that. -/
structure ReadsBodies (found : Body → Option α) : Prop where
  shortens : ∀ {cs a rest}, read cs = some (a, rest) → rest.length ≤ cs.length
  reads : ∀ {body : Body} {rest}, body.keyword = keyword → AtLineEnd rest →
    read (body.text ++ rest) = (found body).map fun a => (a, body.tail ++ rest)
  other : ∀ {body : Body}, body.keyword ≠ keyword → found body = none

variable {keyword read} {found : Body → Option α} (hread : ReadsBodies keyword read found)
include hread

theorem ReadsBodies.passesBlanks : PassesBlanks (behindHead keyword read) where
  shortens := by
    intro cs a rest h
    obtain ⟨behind, hbehind, hrest⟩ := Option.bind_eq_some_iff.1 h
    have h₁ := length_of_skipHead? hbehind
    have h₂ := hread.shortens hrest
    omega
  blank := by
    intro c cs hc
    have hskip : skipBlanks (c :: cs) = skipBlanks cs := List.dropWhile_cons_of_pos hc
    rw [behindHead, behindHead, skipHead?, skipHead?, hskip]

theorem ReadsBodies.reads_headed (visibility : Option Visibility) (gap : Gap) (body : Body)
    {rest : List Char} (hrest : AtLineEnd rest) :
    behindHead keyword read (visibility.elim [] Visibility.text ++
        (body.keyword.word.toList ++ (gap.1 ++ body.text)) ++ rest) =
      (found body).map fun a => (a, body.tail ++ rest) := by
  simp only [List.append_assoc]
  rw [behindHead, skipHead?_headed]
  split
  · next hkeyword => exact hread.reads hkeyword.symm hrest
  · next hkeyword => rw [hread.other fun h => hkeyword h.symm, Option.bind_none, Option.map_none]

/-- What is found from the start of a line on is what the line holds, and then what follows it. -/
theorem ReadsBodies.matches_line (line : Line) {rest : List Char} (hrest : AtLineEnd rest) :
    matchesAtLineStart (measured (behindHead keyword read)) (line.text ++ rest) =
      (line.body?.bind found).toList ++
        matchesAtLineStart (measured (behindHead keyword read)) rest := by
  have hpasses := hread.passesBlanks
  -- The indentation can be left off, and so can a line of blanks. What remains begins with no blank, so
  -- that a match begins there or not on this line.
  have hindent : ∀ (blanks : Blanks) (cs : List Char),
      matchesAtLineStart (measured (behindHead keyword read)) (blanks.1 ++ cs) =
        matchesAtLineStart (measured (behindHead keyword read)) cs := fun blanks cs =>
    matchesAtLineStart_append_blanks hpasses (fun c hc => (blanks.2 c hc).1) cs
  cases line with
  | blank blanks => exact hindent blanks rest
  | plain indent phrase hphrase =>
    rw [Line.text, List.append_assoc, hindent]
    refine matchesAtLineStart_line_of_none hpasses phrase.no_break hrest ?_
    have hword : (phrase.text ++ rest).takeWhile isWordChar = phrase.text.takeWhile isWordChar :=
      takeWhile_append_stop _ (hrest.stopsBefore (by decide))
    rw [behindHead, skipHead?_of_word (phrase.no_blank.append_of_ne_nil phrase.ne_nil rest)
      (hword ▸ hphrase.1) (hword ▸ hphrase.2 keyword), Option.bind_none]
  | visible indent visibility phrase hphrase =>
    rw [Line.text, List.append_assoc, hindent]
    refine matchesAtLineStart_line_of_none hpasses ?_ hrest ?_
    · simp [visibility.no_break, phrase.no_break]
    · rw [List.append_assoc, behindHead, skipHead?_visible keyword visibility hphrase hrest,
        Option.bind_none]
  | headed indent visibility gap body =>
    rw [Line.text, List.append_assoc, hindent]
    refine matchesAtLineStart_line hpasses ?_ hrest (hread.reads_headed visibility gap body hrest)
    have hvisibility : '\n' ∉ visibility.elim [] Visibility.text := by
      cases visibility with
      | none => exact List.not_mem_nil
      | some visibility => exact visibility.no_break
    simp [hvisibility, Keyword.no_break, not_mem_of_isBlank_and_ne gap.2.2, body.no_break]

/-- Lines that each follow a line break. -/
theorem ReadsBodies.matches_flatMap (lines : List Line) :
    matchesAtLineStart (measured (behindHead keyword read))
        (lines.flatMap fun line => '\n' :: line.text) =
      lines.filterMap fun line => line.body?.bind found := by
  induction lines with
  | nil => rfl
  | cons line lines ih =>
    have hrest : AtLineEnd (lines.flatMap fun line => '\n' :: line.text) := by
      cases lines with
      | nil => exact fun c hc => nomatch hc
      | cons next lines => exact fun c hc => (Option.some.inj hc).symm
    rw [List.flatMap_cons, List.cons_append,
      matchesAtLineStart_cons_blank hread.passesBlanks (by decide), hread.matches_line line hrest, ih,
      List.filterMap_cons]
    cases line.body?.bind found <;> rfl

/-- What is found in a text is what its lines hold. -/
theorem ReadsBodies.matches_document (lines : List Line) :
    matchesAtLineStart (measured (behindHead keyword read)) (document lines) =
      lines.filterMap fun line => line.body?.bind found := by
  rw [← hread.matches_flatMap]
  cases lines with
  | nil => rfl
  | cons line lines =>
    -- The first line follows no line break, which makes no difference.
    rw [document_cons, List.flatMap_cons, List.cons_append,
      matchesAtLineStart_cons_blank hread.passesBlanks (by decide)]

end

/-! ## The four readers -/

/-- The name of a module and the semicolon behind it. -/
def declaration? (cs : List Char) : Option (Path × List Char) :=
  (run1? isWordChar cs).bind fun m =>
    (after? [';'] (skipBlanks m.2)).map fun rest => (m.1, rest)

/-- The path below an anchor. -/
def target? (anchor : Anchor) (cs : List Char) : Option (Path × List Char) :=
  (after? anchor.mark cs).bind (run1? isModuleChar)

theorem modPattern_eq : modPattern = measured (behindHead .mod declaration?) := by
  funext cs
  simp only [modPattern, measured, behindHead, declaration?, Keyword.word, Option.bind_eq_bind,
    Option.map_eq_bind, Option.bind_assoc, Function.comp_def, Option.bind_some]
  rfl

theorem usePattern_eq (anchor : Anchor) :
    usePattern anchor = measured (behindHead .use (target? anchor)) := by
  funext cs
  simp only [usePattern, measured, behindHead, target?, Keyword.word, Option.bind_eq_bind,
    Option.map_eq_bind, Option.bind_assoc, Function.comp_def]
  rfl

def Body.name? : Body → Option Path
  | declared name _ _ => some name.1
  | _ => none

def Body.path? (anchor : Anchor) : Body → Option Path
  | anchored other _ path _ _ _ => if anchor = other then some path else none
  | _ => none

/-- The name ends where blanks or the mark behind it begin. -/
theorem declaration?_name (name : Name) (blanks : Blanks) {mark : Char} {cs : List Char}
    (hword : isWordChar mark = false) (hblank : isBlank mark = false) :
    declaration? (name.1 ++ (blanks.1 ++ mark :: cs)) =
      (after? [';'] (mark :: cs)).map fun rest => (name.1, rest) := by
  have hend : StopsBefore isWordChar (blanks.1 ++ mark :: cs) := by
    refine StopsBefore.append (fun c hc => ?_) (stopsBefore_cons.2 hword)
    exact isWordChar_of_isBlank (blanks.2 c (List.mem_of_mem_head? hc)).1
  rw [declaration?, run1?_append name.2.1 name.2.2 hend, Option.bind_some,
    skipBlanks_append_of_stopsBefore (fun c hc => (blanks.2 c hc).1) (stopsBefore_cons.2 hblank)]

theorem readsBodies_declaration : ReadsBodies .mod declaration? Body.name? where
  shortens := by
    intro cs a rest h
    obtain ⟨⟨name, behind⟩, hname, hmark⟩ := Option.bind_eq_some_iff.1 h
    obtain ⟨rest', hafter, hrest⟩ := Option.map_eq_some_iff.1 hmark
    obtain ⟨rfl, rfl⟩ := Prod.mk.inj hrest
    have h₁ := (suffix_of_run1? hname).length_le
    have h₂ := length_skipBlanks_le behind
    rw [after?_eq_some_iff.1 hafter, List.length_append] at h₂
    omega
  reads := by
    intro body rest hbody hrest
    cases body with
    | declared name blanks tail =>
      rw [Body.text, List.append_assoc, List.append_assoc, List.cons_append,
        declaration?_name name blanks (by decide) (by decide)]
      rfl
    | opened name blanks tail =>
      rw [Body.text, List.append_assoc, List.append_assoc, List.cons_append,
        declaration?_name name blanks (by decide) (by decide)]
      rfl
    | anchored => cases hbody
    | outside => cases hbody
  other := by
    intro body hbody
    cases body with
    | declared => exact absurd rfl hbody
    | opened => exact absurd rfl hbody
    | anchored => rfl
    | outside => rfl

theorem Anchor.after?_mark (anchor other : Anchor) (cs : List Char) :
    after? anchor.mark (other.mark ++ cs) = if anchor = other then some cs else none := by
  cases anchor <;> cases other <;> rfl

theorem readsBodies_target {anchor : Anchor} (hanchor : anchor ≠ .mod) :
    ReadsBodies .use (target? anchor) (Body.path? anchor) where
  shortens := by
    intro cs path rest h
    obtain ⟨behind, hbehind, hrest⟩ := Option.bind_eq_some_iff.1 h
    have h₁ := (suffix_of_run1? hrest).length_le
    rw [after?_eq_some_iff.1 hbehind, List.length_append]
    omega
  reads := by
    intro body rest hbody hrest
    cases body with
    | declared => cases hbody
    | opened => cases hbody
    | anchored other hother path hpath tail htail =>
      rw [target?, Body.text, List.append_assoc, Anchor.after?_mark, Body.path?]
      split
      · rw [Option.bind_some, List.append_assoc, run1?_append hpath.1 hpath.2
          (htail.append (hrest.stopsBefore (by decide)))]
        rfl
      · rfl
    | outside target htarget =>
      show target? anchor (target.text ++ rest) = none
      cases hbehind : after? anchor.mark (target.text ++ rest) with
      | none => rw [target?, hbehind, Option.bind_none]
      | some behind =>
        -- An anchor stands in front, and it does so on the line, but no path follows it there.
        have htext := after?_eq_some_iff.1 hbehind
        obtain ⟨path, hpath⟩ := hrest.prefix_of_prefix_append anchor.no_break ⟨behind, htext.symm⟩
        have hstops := htarget anchor hanchor ⟨path, hpath⟩
        rw [← hpath, List.drop_left] at hstops
        rw [← hpath, List.append_assoc, List.append_cancel_left_eq] at htext
        rw [target?, hbehind, Option.bind_some, ← htext]
        exact run1?_of_stopsBefore (hstops.append (hrest.stopsBefore (by decide)))
  other := by
    intro body hbody
    cases body with
    | declared => rfl
    | opened => rfl
    | anchored => exact absurd rfl hbody
    | outside => exact absurd rfl hbody

/-! ## References -/

theorem Body.filter_import?_mod (body : Body) :
    body.import?.filter (fun i => i.anchor = .mod) =
      body.name?.map fun name => { name, anchor := .mod } := by
  cases body with
  | declared => rfl
  | opened => rfl
  | anchored anchor hanchor path hpath tail htail =>
    rw [import?]
    split
    · rfl
    · rw [Option.filter_some, if_neg (by simpa using hanchor)]
      rfl
  | outside => rfl

theorem Body.filter_import?_use {anchor : Anchor} (hanchor : anchor ≠ .mod) (body : Body) :
    body.import?.filter (fun i => i.anchor = anchor) =
      (body.path? anchor).bind (useImport? anchor) := by
  cases body with
  | declared =>
    rw [import?, Option.filter_some, if_neg (by simpa using hanchor.symm)]
    rfl
  | opened => rfl
  | anchored other hother path hpath tail htail =>
    rw [import?, path?]
    by_cases hsame : anchor = other
    · subst hsame
      rw [if_pos rfl, Option.bind_some, useImport?_eq anchor hpath.1]
      split
      · rfl
      · rw [Option.filter_some, if_pos (by simp)]
    · rw [if_neg hsame, Option.bind_none]
      split
      · rfl
      · rw [Option.filter_some, if_neg (by simpa using Ne.symm hsame)]
  | outside => rfl

theorem modImports_document (lines : List Line) : modImports (document lines) =
    (lines.filterMap Line.import?).filter fun i => i.anchor = .mod := by
  rw [modImports, modPattern_eq, readsBodies_declaration.matches_document, List.map_filterMap,
    List.filter_filterMap]
  refine List.filterMap_congr fun line _ => ?_
  unfold Line.import?
  cases line.body? with
  | none => rfl
  | some body => exact body.filter_import?_mod.symm

theorem useImports_document {anchor : Anchor} (hanchor : anchor ≠ .mod) (lines : List Line) :
    useImports anchor (document lines) =
      (lines.filterMap Line.import?).filter fun i => i.anchor = anchor := by
  rw [useImports, usePattern_eq, (readsBodies_target hanchor).matches_document,
    List.filterMap_filterMap, List.filter_filterMap]
  refine List.filterMap_congr fun line _ => ?_
  unfold Line.import?
  cases line.body? with
  | none => rfl
  | some body => exact (body.filter_import?_use hanchor).symm

/-- A text of lines refers to what its lines refer to: first the declared modules, then what is used
below the crate, the module above and the module itself, each in the order of the lines. -/
theorem imports_of_lines_grouped_by_anchor (lines : List Line) :
    imports (document lines) = [.mod, .crate, .super, .self].flatMap fun anchor =>
      (lines.filterMap Line.import?).filter fun i => i.anchor = anchor := by
  rw [imports, modImports_document, useImports_document (by decide), useImports_document (by decide),
    useImports_document (by decide)]
  simp

end ImportAtlas.Crate
