/-
# ImportAtlas.Proofs.Listings -- what is read from what version control prints

Three listings are printed from records of changes or from names: the short status, the status by name
and the plain listing. Their readers take off quotes and leave escapes as they are; the plain listing is
not even freed of its quotes, and the short status is cut at the first arrow, whether that stands between
two names or inside of one. So the names come out right exactly if nothing in them is escaped and no
arrow stands where the line is cut (`listed_names_come_out_iff_legible`).

That nothing else comes out right is counted: an escape is longer than what it stands for, and a cut at
another arrow changes the number of blanks.
-/
import ImportAtlas.Git
import ImportAtlas.Proofs.PrintedNames

namespace ImportAtlas

/-- What a process printed that ended well is read as a listing of the workspace. -/
theorem Git.listing_of_exited {α : Type} {l : Git.Launcher} {stdout stderr : List UInt8}
    (hreply : (Git.Launcher.nextReply l.replies).1 = .exited stdout stderr 0) (workspace : Path)
    (args : List Json.Value) (ofOutput : Path → List Char → List α) :
    Git.listing l (.string workspace) args ofOutput =
      (.ok (ofOutput workspace (Text.Utf8.decodeLenient stdout)),
        (l.start ⟨.text "git" :: args, .string workspace⟩).2) := by
  have hstart : l.start ⟨.text "git" :: args, .string workspace⟩ =
      (.exited stdout stderr 0, (l.start ⟨.text "git" :: args, .string workspace⟩).2) :=
    Prod.ext hreply rfl
  rw [Git.listing, Git.run, hstart]
  rfl

namespace Changes

/-! ## Records of changes -/

/-- The name of a file in its workspace. -/
abbrev FileName := {name : Path // name ≠ []}

/-- The two columns of a short status: the change in the index, and the one in the working tree. -/
structure Columns where
  index : Char
  worktree : Char
  index_printed : isPrinted index = true
  worktree_printed : isPrinted worktree = true
  changed : index ≠ ' ' ∨ worktree ≠ ' '

/-- The status by name: a letter, and behind it how much of a file stayed as it was. -/
structure Grade where
  letter : Char
  score : List Char
  letter_printed : isPrinted letter = true
  letter_ne : letter ≠ ' '
  score_digits : ∀ c ∈ score, c.isDigit = true

/-- One change: its status, the old name of a file that was moved, and its name. -/
structure Change (σ : Type) where
  status : σ
  old : Option FileName
  name : FileName

/-- Whether a file is gone. -/
def Columns.isDeleted (s : Columns) : Bool := s.index = 'D' || s.worktree = 'D'

/-- Whether a file is gone. -/
def Grade.isDeleted (s : Grade) : Bool := s.letter = 'D'

/-- The letters of a short status. -/
def Columns.letters (s : Columns) : List Char := [s.index, s.worktree].filter (· ≠ ' ')

namespace Change

/-- The names of a change, the old one first. -/
def printNames {σ : Type} (c : Change σ) (blanks : Bool) (between : List Char) : List Char :=
  match c.old with
  | none => printName blanks c.name.1
  | some old => printName blanks old.1 ++ (between ++ printName blanks c.name.1)

/-- A change on a line of the short status. -/
def statusLine (c : Change Columns) : List Char :=
  c.status.index :: c.status.worktree :: ' ' :: c.printNames true arrow

/-- A change on a line of the status by name. -/
def nameStatusLine (c : Change Grade) : List Char :=
  (c.status.letter :: c.status.score) ++ '\t' :: c.printNames false ['\t']

end Change

/-- Lines with their breaks. -/
def printLines (lines : List (List Char)) : List Char := lines.flatMap (· ++ ['\n'])

/-- A short status. -/
def printStatus (changes : List (Change Columns)) : List Char :=
  printLines (changes.map Change.statusLine)

/-- A status by name. -/
def printNameStatus (changes : List (Change Grade)) : List Char :=
  printLines (changes.map Change.nameStatusLine)

/-- A plain listing. -/
def printListing (names : List FileName) : List Char :=
  printLines (names.map fun name => printName false name.1)

/-! ## Lines -/

theorem isBreak_of_isPrinted {c : Char} (hc : isPrinted c = true) : Text.isBreak c = false := by
  simp only [isPrinted, Bool.and_eq_true, decide_eq_true_eq] at hc
  simp only [Text.isBreak, Bool.or_eq_false_iff, Bool.and_eq_false_iff, decide_eq_false_iff_not]
  omega

/-- Every line break is a blank. -/
theorem isBreak_of_not_isBlank {c : Char} (hc : Text.isBlank c = false) : Text.isBreak c = false := by
  simp only [Text.isBlank, Bool.or_eq_false_iff, Bool.and_eq_false_iff, decide_eq_false_iff_not] at hc
  simp only [Text.isBreak, Bool.or_eq_false_iff, Bool.and_eq_false_iff, decide_eq_false_iff_not]
  omega

theorem isBlank_of_isPrinted {c : Char} (hc : isPrinted c = true) (hne : c ≠ ' ') :
    Text.isBlank c = false := by
  have hne : c.toNat ≠ 0x20 := fun h => hne (Char.toNat_inj.1 h)
  simp only [isPrinted, Bool.and_eq_true, decide_eq_true_eq] at hc
  simp only [Text.isBlank, Bool.or_eq_false_iff, Bool.and_eq_false_iff, decide_eq_false_iff_not]
  omega

theorem isPrinted_of_isDigit {c : Char} (hc : c.isDigit = true) : isPrinted c = true ∧ c ≠ ' ' := by
  simp only [Char.isDigit, Bool.and_eq_true, decide_eq_true_eq, ge_iff_le, UInt32.le_iff_toNat_le] at hc
  constructor
  · simp only [isPrinted, Bool.and_eq_true, decide_eq_true_eq, Char.toNat]
    exact ⟨Nat.le_trans (by decide) hc.1, Nat.le_trans hc.2 (by decide)⟩
  · rintro rfl
    exact absurd hc.1 (by decide)

theorem isAscii_of_isPrinted {c : Char} (hc : isPrinted c = true) : Text.isAscii c = true := by
  simp only [isPrinted, Bool.and_eq_true, decide_eq_true_eq] at hc
  exact decide_eq_true (by omega)

theorem lines_append_break {line : List Char} (hline : ∀ c ∈ line, Text.isBreak c = false)
    (rest : List Char) : Text.lines (line ++ '\n' :: rest) = line :: Text.lines rest := by
  induction line with
  | nil =>
    rw [List.nil_append, Text.lines]
    · rfl
    · nofun
  | cons c line ih =>
    have hc := hline c List.mem_cons_self
    rw [List.cons_append, Text.lines]
    · rw [hc, ih fun d hd => hline d (List.mem_cons_of_mem _ hd)]
      rfl
    · rintro cs rfl
      exact absurd hc (by decide)

theorem lines_printLines {lines : List (List Char)}
    (hlines : ∀ line ∈ lines, ∀ c ∈ line, Text.isBreak c = false) :
    Text.lines (printLines lines) = lines := by
  induction lines with
  | nil => rfl
  | cons line lines ih =>
    have hrest := ih fun l hl => hlines l (List.mem_cons_of_mem _ hl)
    rw [printLines, List.flatMap_cons, List.append_assoc, List.singleton_append,
      lines_append_break (hlines line List.mem_cons_self)]
    exact congrArg (line :: ·) hrest

/-- Lines of printed characters go through version control as they are. -/
theorem decodeLenient_printLines {lines : List (List Char)}
    (hlines : ∀ line ∈ lines, ∀ c ∈ line, isPrinted c = true) :
    Text.Utf8.decodeLenient (Text.Utf8.encode (String.ofList (printLines lines))) =
      printLines lines := by
  refine Text.Utf8.decodeLenient_encode fun c hc => ?_
  obtain ⟨line, hline, hc⟩ := List.mem_flatMap.1 hc
  rcases List.mem_append.1 hc with hc | hc
  · exact isAscii_of_isPrinted (hlines line hline c hc)
  · rw [List.mem_singleton.1 hc]
    rfl

theorem isPrinted_of_mem_printNames {σ : Type} {c : Change σ} {blanks : Bool} {between : List Char}
    {d : Char} (hd : d ∈ c.printNames blanks between) : isPrinted d = true ∨ d ∈ between := by
  unfold Change.printNames at hd
  split at hd
  · exact .inl (isPrinted_of_mem_printName hd)
  · rcases List.mem_append.1 hd with hd | hd
    · exact .inl (isPrinted_of_mem_printName hd)
    · rcases List.mem_append.1 hd with hd | hd
      · exact .inr hd
      · exact .inl (isPrinted_of_mem_printName hd)

theorem isPrinted_of_mem_statusLine {c : Change Columns} {d : Char} (hd : d ∈ c.statusLine) :
    isPrinted d = true := by
  rcases List.mem_cons.1 hd with rfl | hd
  · exact c.status.index_printed
  rcases List.mem_cons.1 hd with rfl | hd
  · exact c.status.worktree_printed
  rcases List.mem_cons.1 hd with rfl | hd
  · rfl
  have harrow : arrow.all isPrinted = true := rfl
  rcases isPrinted_of_mem_printNames hd with hd | hd
  · exact hd
  · exact List.all_eq_true.1 harrow d hd

theorem isBreak_of_mem_nameStatusLine {c : Change Grade} {d : Char} (hd : d ∈ c.nameStatusLine) :
    Text.isBreak d = false := by
  rcases List.mem_append.1 hd with hd | hd
  · rcases List.mem_cons.1 hd with rfl | hd
    · exact isBreak_of_isPrinted c.status.letter_printed
    · exact isBreak_of_isPrinted (isPrinted_of_isDigit (c.status.score_digits d hd)).1
  rcases List.mem_cons.1 hd with rfl | hd
  · rfl
  rcases isPrinted_of_mem_printNames hd with hd | hd
  · exact isBreak_of_isPrinted hd
  · rw [List.mem_singleton.1 hd]
    rfl

/-! ## One line -/

theorem printName_ne_nil {blanks : Bool} (name : FileName) : printName blanks name.1 ≠ [] := by
  rcases printName_eq_or blanks name.1 with ⟨hprint, -⟩ | hprint
  · rw [hprint]
    exact name.2
  · rw [hprint]
    exact List.cons_ne_nil _ _

namespace Change

theorem printNames_ne_nil {σ : Type} (c : Change σ) (blanks : Bool) (between : List Char) :
    c.printNames blanks between ≠ [] := by
  unfold printNames
  split
  · exact printName_ne_nil c.name
  · exact fun h => printName_ne_nil _ (List.append_eq_nil_iff.1 h).1

/-- The name that is read off the short status. -/
def readName (c : Change Columns) : Path :=
  unquote ((behindFirst? arrow (c.printNames true arrow)).getD (c.printNames true arrow))

/-- Whether the name on a line of the short status can be read: nothing in it is escaped, and no arrow
stands in the name that comes first. -/
def IsLegible (c : Change Columns) : Prop :=
  c.name.1.all isClear = true ∧ ¬ arrow <:+: (c.old.getD c.name).1

instance (c : Change Columns) : Decidable c.IsLegible := inferInstanceAs (Decidable (_ ∧ _))

theorem readName_eq_iff (c : Change Columns) : c.readName = c.name.1 ↔ c.IsLegible := by
  unfold readName IsLegible printNames
  cases hold : c.old with
  | none =>
    show unquote ((behindFirst? arrow (printName true c.name.1)).getD (printName true c.name.1)) = _ ↔
      _ ∧ ¬ arrow <:+: c.name.1
    cases hcut : behindFirst? arrow (printName true c.name.1) with
    | none =>
      have harrow := (behindFirst?_eq_none_iff (by decide)).1 hcut
      rw [arrow_infix_printName_iff] at harrow
      rw [Option.getD_none, unquote_printName, escapeName_eq_self_iff, and_iff_left harrow]
    | some rest =>
      -- Both blanks of the arrow are lost.
      obtain ⟨front, hfront⟩ := exists_of_behindFirst?_eq_some hcut
      have hcount : c.name.1.count ' ' = front.count ' ' + (arrow.count ' ' + rest.count ' ') := by
        rw [← count_blank_printName true, hfront, List.count_append, List.count_append]
      have hblanks : arrow.count ' ' = 2 := by decide
      refine iff_of_false ?_ ?_
      · intro hname
        have hsame := congrArg (List.count ' ') hname
        rw [Option.getD_some, count_blank_unquote] at hsame
        omega
      · rintro ⟨-, harrow⟩
        rw [← arrow_infix_printName_iff true] at harrow
        exact harrow ⟨front, rest, by rw [hfront, List.append_assoc]⟩
  | some old =>
    show unquote ((behindFirst? arrow (printName true old.1 ++ (arrow ++ printName true c.name.1))).getD
      (printName true old.1 ++ (arrow ++ printName true c.name.1))) = _ ↔ _ ∧ ¬ arrow <:+: old.1
    cases hcut : behindFirst? arrow (printName true old.1) with
    | none =>
      have harrow := (behindFirst?_eq_none_iff (by decide)).1 hcut
      rw [behindFirst?_arrow harrow (printName_end old.1), Option.getD_some, unquote_printName,
        escapeName_eq_self_iff, and_iff_left (mt (arrow_infix_printName_iff true).2 harrow)]
    | some rest =>
      -- The blanks of the arrow between the names are taken for a part of the name.
      obtain ⟨front, hfront⟩ := exists_of_behindFirst?_eq_some hcut
      have hblanks : arrow.count ' ' = 2 := by decide
      refine iff_of_false ?_ ?_
      · intro hname
        have hsame := congrArg (List.count ' ') hname
        rw [behindFirst?_append hcut, Option.getD_some, count_blank_unquote, List.count_append,
          List.count_append, count_blank_printName] at hsame
        omega
      · rintro ⟨-, harrow⟩
        rw [← arrow_infix_printName_iff true] at harrow
        exact harrow ⟨front, rest, by rw [hfront, List.append_assoc]⟩

end Change

theorem trim_of_not_isBlank {cs : List Char} (hcs : ∀ c ∈ cs, Text.isBlank c = false) :
    Text.trim cs = cs := by
  have hdrop {ds : List Char} (hds : ∀ c ∈ ds, Text.isBlank c = false) :
      ds.dropWhile Text.isBlank = ds := by
    cases ds with
    | nil => rfl
    | cons d ds => rw [List.dropWhile_cons_of_neg (by rw [hds d List.mem_cons_self]; decide)]
  rw [Text.trim, Text.trimRight, Text.trimLeft, hdrop hcs,
    hdrop fun c hc => hcs c (List.mem_reverse.1 hc), List.reverse_reverse]

/-- A letter in either column is what is left when the other one is taken away. -/
theorem trim_column {c : Char} (hc : Text.isBlank c = false) :
    Text.trim [c, ' '] = [c] ∧ Text.trim [' ', c] = [c] := by
  have hblank : Text.isBlank ' ' = true := rfl
  constructor <;> simp [Text.trim, Text.trimLeft, Text.trimRight, hblank, hc]

theorem Columns.trim_eq (s : Columns) : Text.trim [s.index, s.worktree] = s.letters := by
  rcases s with ⟨x, y, hx, hy, hxy⟩
  show Text.trim [x, y] = [x, y].filter (· ≠ ' ')
  by_cases hx' : x = ' '
  · have hy' : y ≠ ' ' := hxy.resolve_left (not_not_intro hx')
    rw [hx', (trim_column (isBlank_of_isPrinted hy hy')).2]
    simp [hy']
  · by_cases hy' : y = ' '
    · rw [hy', (trim_column (isBlank_of_isPrinted hx hx')).1]
      simp [hx']
    · have hblank : ∀ c ∈ [x, y], Text.isBlank c = false := by
        simp [isBlank_of_isPrinted hx hx', isBlank_of_isPrinted hy hy']
      rw [trim_of_not_isBlank hblank]
      simp [hx', hy']

theorem Columns.letters_ne_nil (s : Columns) : s.letters ≠ [] := by
  rcases s.changed with hne | hne <;> simp [Columns.letters, hne]

theorem Columns.mem_letters_iff (s : Columns) : 'D' ∈ s.letters ↔ s.isDeleted = true := by
  have hcomm (c : Char) : 'D' = c ↔ c = 'D' := eq_comm
  simp [Columns.letters, Columns.isDeleted, hcomm]

theorem statusLine?_cons (workspace : Path) (x y : Char) {names : List Char} (hnames : names ≠ []) :
    statusLine? workspace (x :: y :: ' ' :: names) =
      if Text.trim [x, y] = [] ∨ 'D' ∈ Text.trim [x, y] then none
      else some ⟨Path.join workspace (unquote ((behindFirst? arrow names).getD names)),
        Text.trim [x, y]⟩ := by
  have hlen : ¬ (x :: y :: ' ' :: names).length < 4 := by
    have hpos := List.length_pos_iff.2 hnames
    simp only [List.length_cons]
    omega
  unfold statusLine?
  simp only [hlen, false_or]
  rfl

theorem statusLine?_statusLine (workspace : Path) (c : Change Columns) :
    statusLine? workspace c.statusLine =
      if !c.status.isDeleted then some ⟨Path.join workspace c.readName, c.status.letters⟩ else none := by
  rw [Change.statusLine, statusLine?_cons _ _ _ (c.printNames_ne_nil true arrow), c.status.trim_eq]
  simp only [c.status.mem_letters_iff, c.status.letters_ne_nil, false_or]
  cases c.status.isDeleted <;> rfl

theorem tabFields_of_not_mem {field : List Char} (hfield : '\t' ∉ field) :
    tabFields field = [field] := by
  induction field with
  | nil => rfl
  | cons c field ih =>
    rw [List.mem_cons, not_or] at hfield
    rw [tabFields, ih hfield.2]
    · rfl
    · exact fun h => hfield.1 h.symm

theorem tabFields_append {field : List Char} (hfield : '\t' ∉ field) (rest : List Char) :
    tabFields (field ++ '\t' :: rest) = field :: tabFields rest := by
  induction field with
  | nil => rfl
  | cons c field ih =>
    rw [List.mem_cons, not_or] at hfield
    rw [List.cons_append, tabFields, ih hfield.2]
    · rfl
    · exact fun h => hfield.1 h.symm

theorem tab_not_mem_printName (blanks : Bool) (name : Path) : '\t' ∉ printName blanks name :=
  fun hmem => absurd (isPrinted_of_mem_printName hmem) (by decide)

theorem isBlank_of_isDigit {c : Char} (hc : c.isDigit = true) : Text.isBlank c = false :=
  isBlank_of_isPrinted (isPrinted_of_isDigit hc).1 (isPrinted_of_isDigit hc).2

theorem Grade.not_isBlank {s : Grade} {c : Char} (hc : c ∈ s.letter :: s.score) :
    Text.isBlank c = false := by
  rcases List.mem_cons.1 hc with rfl | hc
  · exact isBlank_of_isPrinted s.letter_printed s.letter_ne
  · exact isBlank_of_isDigit (s.score_digits c hc)

/-- The last of the fields behind a status is the name. -/
theorem nameStatusLine?_append (workspace : Path) {letter : Char} {score fields name : List Char}
    (hblank : ∀ c ∈ letter :: score, Text.isBlank c = false)
    (hname : ∃ second more, tabFields fields = second :: more ∧ (second :: more).getLastD second = name) :
    nameStatusLine? workspace ((letter :: score) ++ '\t' :: fields) =
      if letter = 'D' then none else some ⟨Path.join workspace (unquote name), [letter]⟩ := by
  have htab : '\t' ∉ letter :: score := fun hmem => absurd (hblank _ hmem) (by decide)
  obtain ⟨second, more, hfields, hlast⟩ := hname
  unfold nameStatusLine?
  rw [tabFields_append htab, hfields]
  dsimp only
  rw [trim_of_not_isBlank hblank, hlast]

/-- Behind the status stands the name, or the old name, a tab and the name. -/
theorem exists_tabFields (old : Option (List Char)) {name : List Char} (hold : ∀ o ∈ old, '\t' ∉ o)
    (hname : '\t' ∉ name) :
    ∃ second more, tabFields (old.elim name fun o => o ++ '\t' :: name) = second :: more ∧
      (second :: more).getLastD second = name := by
  cases old with
  | none => exact ⟨name, [], tabFields_of_not_mem hname, rfl⟩
  | some o =>
    refine ⟨o, [name], ?_, rfl⟩
    rw [Option.elim_some, tabFields_append (hold o rfl), tabFields_of_not_mem hname]

theorem nameStatusLine?_nameStatusLine (workspace : Path) (c : Change Grade) :
    nameStatusLine? workspace c.nameStatusLine =
      if !c.status.isDeleted then some ⟨Path.join workspace (escapeName c.name.1), [c.status.letter]⟩
      else none := by
  have hnames : c.printNames false ['\t'] =
      (c.old.map fun old => printName false old.1).elim (printName false c.name.1)
        fun o => o ++ '\t' :: printName false c.name.1 := by
    unfold Change.printNames
    cases c.old <;> rfl
  have hold : ∀ o ∈ c.old.map fun old => printName false old.1, '\t' ∉ o := by
    intro o ho
    obtain ⟨old, -, rfl⟩ := Option.map_eq_some_iff.1 ho
    exact tab_not_mem_printName false old.1
  have hfields := exists_tabFields _ hold (tab_not_mem_printName false c.name.1)
  rw [Change.nameStatusLine, hnames, nameStatusLine?_append workspace (fun _ => Grade.not_isBlank) hfields,
    unquote_printName]
  simp [Grade.isDeleted]

/-! ## Whole listings -/

/-- Where every line is read as it should be, so is the whole. -/
theorem filterMap_lines_printLines {σ β : Type} {line : σ → List Char} {read : List Char → Option β}
    {keeps : σ → Bool} {record : σ → β}
    (hbreak : ∀ x, ∀ c ∈ line x, Text.isBreak c = false)
    (hread : ∀ x, read (line x) = if keeps x then some (record x) else none) (xs : List σ) :
    (Text.lines (printLines (xs.map line))).filterMap read = (xs.filter keeps).map record := by
  have hlines : Text.lines (printLines (xs.map line)) = xs.map line := by
    refine lines_printLines ?_
    intro l hl
    obtain ⟨x, -, rfl⟩ := List.mem_map.1 hl
    exact hbreak x
  rw [hlines, List.filterMap_map, ← List.filterMap_eq_map', List.filterMap_filter]
  exact List.filterMap_congr fun x _ => hread x

theorem ofStatus_printStatus (workspace : Path) (changes : List (Change Columns)) :
    ofStatus workspace (printStatus changes) =
      (changes.filter fun c => !c.status.isDeleted).map fun c =>
        ⟨Path.join workspace c.readName, c.status.letters⟩ :=
  filterMap_lines_printLines (fun _ _ hd => isBreak_of_isPrinted (isPrinted_of_mem_statusLine hd))
    (statusLine?_statusLine workspace) changes

theorem decodeLenient_printStatus (changes : List (Change Columns)) :
    Text.Utf8.decodeLenient (Text.Utf8.encode (String.ofList (printStatus changes))) =
      printStatus changes := by
  refine decodeLenient_printLines ?_
  intro line hline d hd
  obtain ⟨c, -, rfl⟩ := List.mem_map.1 hline
  exact isPrinted_of_mem_statusLine hd

theorem ofNameStatus_printNameStatus (workspace : Path) (changes : List (Change Grade)) :
    ofNameStatus workspace (printNameStatus changes) =
      (changes.filter fun c => !c.status.isDeleted).map fun c =>
        ⟨Path.join workspace (escapeName c.name.1), [c.status.letter]⟩ :=
  filterMap_lines_printLines (fun _ _ => isBreak_of_mem_nameStatusLine)
    (nameStatusLine?_nameStatusLine workspace) changes

theorem ofListing_printListing (workspace : Path) (names : List FileName) :
    ofListing workspace (printListing names) =
      names.map fun name => Path.join workspace (printName false name.1) := by
  have hlines : Text.lines (printListing names) = names.map fun name => printName false name.1 := by
    refine lines_printLines ?_
    intro line hline d hd
    obtain ⟨name, -, rfl⟩ := List.mem_map.1 hline
    exact isBreak_of_isPrinted (isPrinted_of_mem_printName hd)
  have hfilter : ∀ line ∈ names.map (fun name => printName false name.1), decide (line ≠ []) = true := by
    intro line hline
    obtain ⟨name, -, rfl⟩ := List.mem_map.1 hline
    exact decide_eq_true (printName_ne_nil name)
  rw [ofListing, hlines, List.filter_eq_self.2 hfilter, List.map_map]
  rfl

/-- The plain listing goes through version control as the bytes of a text of ASCII. -/
theorem trackedFiles_printListing (workspace : Path) (names : List FileName) (stderr : List UInt8)
    (replies : List Git.Reply) (calls : List Git.Call) :
    (Git.trackedFiles
        ⟨.exited (Text.Utf8.encode (String.ofList (printListing names))) stderr 0 :: replies, calls⟩
        (.string workspace)).1 =
      .ok (names.map fun name => Path.join workspace (printName false name.1)) := by
  have hprinted : ∀ line ∈ names.map (fun name => printName false name.1), ∀ c ∈ line,
      isPrinted c = true := by
    intro line hline c hc
    obtain ⟨name, -, rfl⟩ := List.mem_map.1 hline
    exact isPrinted_of_mem_printName hc
  have hnext (reply : Git.Reply) : (Git.Launcher.nextReply (reply :: replies)).1 = reply := by
    cases replies <;> rfl
  rw [Git.trackedFiles, Git.listing_of_exited (hnext _), ← ofListing_printListing, printListing,
    decodeLenient_printLines hprinted]

theorem printName_eq_self_iff {name : Path} : printName false name = name ↔ name.all isClear = true := by
  constructor
  · intro hname
    rcases printName_eq_or false name with ⟨-, hclear, -⟩ | hprint
    · exact hclear
    · have hlen := congrArg List.length (hprint.symm.trans hname)
      have hle := length_le_length_escapeName name
      rw [List.length_cons, List.length_append] at hlen
      omega
  · intro hclear
    rw [printName, hclear]
    rfl

/-- Joined to every workspace, two ways to read names agree exactly if they read the same names. -/
theorem map_join_eq_iff {α : Type} {read name : α → Path} {cs : List α} :
    (∀ workspace : Path, cs.map (fun c => Path.join workspace (read c)) =
      cs.map fun c => Path.join workspace (name c)) ↔ ∀ c ∈ cs, read c = name c := by
  constructor
  · intro h c hc
    have hnil (p : Path) : Path.join [] p = p := by
      unfold Path.join
      split <;> simp
    have hjoin := List.map_inj_left.1 (h []) c hc
    rwa [hnil, hnil] at hjoin
  · intro h workspace
    exact List.map_congr_left fun c hc => by rw [h c hc]

/-- Names come out of what version control prints exactly if they are legible: in a status by name and
in a plain listing if nothing in them is escaped, in a short status if besides no arrow stands in the
name that comes first. -/
theorem listed_names_come_out_iff_legible (changes : List (Change Columns))
    (graded : List (Change Grade)) (names : List FileName) :
    ((∀ workspace : Path,
        (ofStatus workspace (printStatus changes)).map (·.path) =
          (changes.filter fun c => !c.status.isDeleted).map fun c => Path.join workspace c.name.1) ↔
      ∀ c ∈ changes, c.status.isDeleted = false → c.IsLegible) ∧
    ((∀ workspace : Path,
        (ofNameStatus workspace (printNameStatus graded)).map (·.path) =
          (graded.filter fun c => !c.status.isDeleted).map fun c => Path.join workspace c.name.1) ↔
      ∀ c ∈ graded, c.status.isDeleted = false → c.name.1.all isClear = true) ∧
    ((∀ (workspace : Path) (stderr : List UInt8) (replies : List Git.Reply) (calls : List Git.Call),
        (Git.trackedFiles
            ⟨.exited (Text.Utf8.encode (String.ofList (printListing names))) stderr 0 :: replies, calls⟩
            (.string workspace)).1 =
          .ok (names.map fun name => Path.join workspace name.1)) ↔
      ∀ name ∈ names, name.1.all isClear = true) := by
  have hkept {σ : Type} {gone : Change σ → Bool} {cs : List (Change σ)} {P : Change σ → Prop} :
      (∀ c ∈ cs.filter fun c => !gone c, P c) ↔ ∀ c ∈ cs, gone c = false → P c := by
    simp only [List.mem_filter, Bool.not_eq_true', and_imp]
  refine ⟨?_, ?_, ?_⟩
  · simp only [ofStatus_printStatus, List.map_map, Function.comp_def]
    rw [map_join_eq_iff, hkept]
    simp only [Change.readName_eq_iff]
  · simp only [ofNameStatus_printNameStatus, List.map_map, Function.comp_def]
    rw [map_join_eq_iff, hkept]
    simp only [escapeName_eq_self_iff]
  · simp only [trackedFiles_printListing, Except.ok.injEq]
    rw [← forall₂_congr fun name _ => printName_eq_self_iff, ← map_join_eq_iff]
    exact forall_congr' fun workspace => ⟨fun h => h [] [] [], fun h _ _ _ => h⟩

/-- A file that version control does not know yet, with an accent in its name. -/
def accented : Change Columns :=
  ⟨⟨'?', '?', rfl, rfl, .inl (by decide)⟩, none, ⟨"café.ts".toList, by decide⟩⟩

/-- The bytes of the accent are printed as escapes and read as they are printed. -/
theorem accented_name_stays_escaped :
    printStatus [accented] = "?? \"caf\\303\\251.ts\"\n".toList ∧
      (ofStatus "/w".toList (printStatus [accented])).map (·.path) = ["/w/caf\\303\\251.ts".toList] ∧
      Path.join "/w".toList accented.name.1 = "/w/café.ts".toList ∧
      (ofStatus "/w".toList (printStatus [accented])).map (·.path) ≠
        [Path.join "/w".toList accented.name.1] := by
  have hescape : escapeName accented.name.1 = "caf\\303\\251.ts".toList := by
    rw [escapeName_eq]
    decide
  have hprint : printStatus [accented] = "?? \"caf\\303\\251.ts\"\n".toList := by
    show '?' :: '?' :: ' ' :: (printName true accented.name.1 ++ ['\n']) ++ [] = _
    rw [printName, hescape]
    decide
  have hread : (ofStatus "/w".toList (printStatus [accented])).map (·.path) =
      ["/w/caf\\303\\251.ts".toList] := by
    rw [hprint]
    decide
  refine ⟨hprint, hread, by decide, ?_⟩
  rw [hread]
  decide

end Changes

end ImportAtlas
