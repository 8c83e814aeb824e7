/-
# ImportAtlas.Proofs.PrintedNames -- names as version control prints them

Version control prints a name as it is, or in double quotes with escapes: for a quote, a backslash and
every byte that is no visible ASCII character, and in the short status also for a blank, which is not
escaped itself. `printName` is this rule.

What is shown here holds of every name: taking off the quotes leaves the escapes (`unquote_printName`),
which are longer than what they stand for (`escapeName_eq_self_iff`); blanks are kept in number
(`count_blank_printName`), and so are arrows (`arrow_infix_printName_iff`); and the arrow between two
printed names is found, unless one stands in the first name (`behindFirst?_arrow`).
-/
import Mathlib.Data.List.Infix
import ImportAtlas.Changes
import ImportAtlas.Proofs.Ascii
import ImportAtlas.Proofs.Scanning

namespace ImportAtlas.Changes

/-! ## Names as they are printed -/

/-- Whether a character is printed as it is: a visible ASCII character or a blank, and neither a double
quote nor a backslash. -/
def isClear (c : Char) : Bool := 0x20 ≤ c.toNat && c.toNat ≤ 0x7E && c ≠ '"' && c ≠ '\\'

/-- The letter behind a backslash that stands for a byte. -/
def escapeLetter? (b : UInt8) : Option Char :=
  match b.toNat with
  | 0x07 => some 'a'
  | 0x08 => some 'b'
  | 0x09 => some 't'
  | 0x0A => some 'n'
  | 0x0B => some 'v'
  | 0x0C => some 'f'
  | 0x0D => some 'r'
  | 0x22 => some '"'
  | 0x5C => some '\\'
  | _ => none

/-- A number below 512 in three digits of base eight. -/
def octalDigits (n : Nat) : List Char :=
  [(n / 64).digitChar, (n / 8 % 8).digitChar, (n % 8).digitChar]

/-- One byte of a printed name. -/
def escapeByte (b : UInt8) : List Char :=
  if isClear (Char.ofNat b.toNat) then [Char.ofNat b.toNat]
  else
    match escapeLetter? b with
    | some letter => ['\\', letter]
    | none => '\\' :: octalDigits b.toNat

/-- A name with its escapes. -/
def escapeName (name : Path) : List Char :=
  (Text.Utf8.encode (String.ofList name)).flatMap escapeByte

/-- A name as it is printed. With `blanks` set, a blank alone calls for quotes. -/
def printName (blanks : Bool) (name : Path) : List Char :=
  if name.all isClear && !(blanks && name.contains ' ') then name
  else '"' :: (escapeName name ++ ['"'])

/-! ## Escapes -/

/-- Whether a character can stand in an escape: visible ASCII, and none that an arrow is made of. -/
def isEscapeChar (c : Char) : Bool := 0x21 ≤ c.toNat && c.toNat ≤ 0x7E && c ≠ '-' && c ≠ '>'

/-- One character of a printed name. -/
def escapeChar (c : Char) : List Char := (String.utf8EncodeChar c).flatMap escapeByte

theorem escapeName_eq (name : Path) : escapeName name = name.flatMap escapeChar := by
  rw [escapeName, Text.Utf8.encode_ofList, List.flatMap_assoc]
  rfl

theorem isAscii_of_isClear {c : Char} (hc : isClear c = true) : Text.isAscii c = true := by
  simp only [isClear, Bool.and_eq_true, decide_eq_true_eq] at hc
  exact decide_eq_true (by omega)

theorem escapeChar_of_isClear {c : Char} (hc : isClear c = true) : escapeChar c = [c] := by
  have hascii := isAscii_of_isClear hc
  have hlt : c.toNat < 0x80 := of_decide_eq_true hascii
  have hbyte : Char.ofNat (UInt8.ofNat c.toNat).toNat = c := by
    rw [show (UInt8.ofNat c.toNat).toNat = c.toNat from
      Nat.mod_eq_of_lt (Nat.lt_trans hlt (by decide)), Char.ofNat_toNat]
  rw [escapeChar, Text.Utf8.utf8EncodeChar_of_isAscii hascii, List.flatMap_singleton, escapeByte, hbyte,
    if_pos hc]

theorem escapeByte_of_not_isClear {b : UInt8} (hb : isClear (Char.ofNat b.toNat) = false) :
    ∃ c cs, escapeByte b = '\\' :: c :: cs ∧ ∀ d ∈ c :: cs, isEscapeChar d = true := by
  have hdigit : ∀ d < 8, isEscapeChar d.digitChar = true := by decide
  have hlt : b.toNat < 256 := b.toNat_lt
  rw [escapeByte, if_neg (by rw [hb]; exact Bool.false_ne_true)]
  split
  · next letter hletter =>
    refine ⟨letter, [], rfl, ?_⟩
    intro d hd
    rw [List.mem_singleton.1 hd]
    unfold escapeLetter? at hletter
    split at hletter <;> cases hletter <;> rfl
  · refine ⟨_, _, rfl, ?_⟩
    intro d hd
    simp only [List.mem_cons, List.not_mem_nil, or_false] at hd
    rcases hd with rfl | rfl | rfl
    · exact hdigit _ (by omega)
    · exact hdigit _ (by omega)
    · exact hdigit _ (by omega)

/-- The bytes of a character outside ASCII lie outside ASCII too. -/
theorem le_of_mem_utf8EncodeChar {c : Char} (hc : Text.isAscii c = false) {b : UInt8}
    (hb : b ∈ String.utf8EncodeChar c) : 0x80 ≤ b.toNat := by
  have hle : ¬ c.val.toNat ≤ 0x7F := by
    have hlt : ¬ c.val.toNat < 0x80 := of_decide_eq_false hc
    omega
  unfold String.utf8EncodeChar at hb
  rw [if_neg hle] at hb
  split at hb
  · simp only [List.mem_cons, List.not_mem_nil, or_false] at hb
    rcases hb with rfl | rfl <;> simp only [UInt8.toNat_ofNat'] <;> omega
  · split at hb
    · simp only [List.mem_cons, List.not_mem_nil, or_false] at hb
      rcases hb with rfl | rfl | rfl <;> simp only [UInt8.toNat_ofNat'] <;> omega
    · simp only [List.mem_cons, List.not_mem_nil, or_false] at hb
      rcases hb with rfl | rfl | rfl | rfl <;> simp only [UInt8.toNat_ofNat'] <;> omega

theorem not_isClear_of_mem_utf8EncodeChar {c : Char} (hc : isClear c = false) {b : UInt8}
    (hb : b ∈ String.utf8EncodeChar c) : isClear (Char.ofNat b.toNat) = false := by
  cases hascii : Text.isAscii c with
  | true =>
    rw [Text.Utf8.utf8EncodeChar_of_isAscii hascii, List.mem_singleton] at hb
    have hlt : c.toNat < 0x80 := of_decide_eq_true hascii
    rw [hb, show (UInt8.ofNat c.toNat).toNat = c.toNat from
      Nat.mod_eq_of_lt (Nat.lt_trans hlt (by decide)), Char.ofNat_toNat, hc]
  | false =>
    have hle := le_of_mem_utf8EncodeChar hascii hb
    have hlt : b.toNat < 256 := b.toNat_lt
    have hn : (Char.ofNat b.toNat).toNat = b.toNat := by
      rw [Char.ofNat, dif_pos (Or.inl (Nat.lt_trans hlt (by decide)))]
      rfl
    cases hclear : isClear (Char.ofNat b.toNat) with
    | false => rfl
    | true =>
      have hascii : (Char.ofNat b.toNat).toNat < 0x80 := of_decide_eq_true (isAscii_of_isClear hclear)
      omega

/-- What is escaped begins with a backslash and grows. -/
theorem escapeChar_of_not_isClear {c : Char} (hc : isClear c = false) :
    (∃ d ds, escapeChar c = '\\' :: d :: ds) ∧ ∀ d ∈ escapeChar c, isEscapeChar d = true := by
  have hbytes : ∀ b ∈ String.utf8EncodeChar c, isClear (Char.ofNat b.toNat) = false :=
    fun b hb => not_isClear_of_mem_utf8EncodeChar hc hb
  constructor
  · obtain ⟨b, bs, hcons⟩ := List.exists_cons_of_ne_nil (String.utf8EncodeChar_ne_nil (c := c))
    obtain ⟨d, ds, hd, -⟩ := escapeByte_of_not_isClear (hbytes b (hcons ▸ List.mem_cons_self))
    refine ⟨d, ds ++ bs.flatMap escapeByte, ?_⟩
    rw [escapeChar, hcons, List.flatMap_cons, hd]
    rfl
  · intro d hd
    obtain ⟨b, hb, hd⟩ := List.mem_flatMap.1 hd
    obtain ⟨e, es, he, hall⟩ := escapeByte_of_not_isClear (hbytes b hb)
    rw [he] at hd
    rcases List.mem_cons.1 hd with rfl | hd
    · rfl
    · exact hall d hd

theorem escapeName_nil : escapeName [] = [] := by
  rw [escapeName_eq, List.flatMap_nil]

theorem escapeName_cons (c : Char) (name : Path) :
    escapeName (c :: name) = escapeChar c ++ escapeName name := by
  rw [escapeName_eq, escapeName_eq, List.flatMap_cons]

theorem escapeName_append (front name : Path) :
    escapeName (front ++ name) = escapeName front ++ escapeName name := by
  rw [escapeName_eq, escapeName_eq, escapeName_eq, List.flatMap_append]

theorem escapeName_of_all_isClear {name : Path} (hname : name.all isClear = true) :
    escapeName name = name := by
  induction name with
  | nil => exact escapeName_nil
  | cons c name ih =>
    rw [List.all_cons, Bool.and_eq_true] at hname
    rw [escapeName_cons, escapeChar_of_isClear hname.1, ih hname.2]
    rfl

theorem length_le_length_escapeName (name : Path) : name.length ≤ (escapeName name).length := by
  induction name with
  | nil => exact Nat.zero_le _
  | cons c name ih =>
    rw [escapeName_cons, List.length_append, List.length_cons]
    cases hc : isClear c with
    | true =>
      rw [escapeChar_of_isClear hc, List.length_singleton]
      omega
    | false =>
      obtain ⟨⟨d, ds, hd⟩, -⟩ := escapeChar_of_not_isClear hc
      rw [hd, List.length_cons, List.length_cons]
      omega

/-- Only a name without escapes is written as it is: every escape makes the text longer. -/
theorem escapeName_eq_self_iff {name : Path} : escapeName name = name ↔ name.all isClear = true := by
  constructor
  · intro hname
    induction name with
    | nil => rfl
    | cons c name ih =>
      rw [escapeName_cons] at hname
      cases hc : isClear c with
      | true =>
        rw [escapeChar_of_isClear hc, List.singleton_append] at hname
        rw [List.all_cons, hc, ih (List.cons.inj hname).2]
        rfl
      | false =>
        exfalso
        obtain ⟨⟨d, ds, hd⟩, -⟩ := escapeChar_of_not_isClear hc
        have hlen := congrArg List.length hname
        have hle := length_le_length_escapeName name
        rw [hd, List.length_append, List.length_cons, List.length_cons, List.length_cons] at hlen
        omega
  · exact escapeName_of_all_isClear

theorem count_blank_escapeName (name : Path) : (escapeName name).count ' ' = name.count ' ' := by
  induction name with
  | nil => rw [escapeName_nil]
  | cons c name ih =>
    rw [escapeName_cons, List.count_append, ih]
    cases hc : isClear c with
    | true => rw [escapeChar_of_isClear hc, ← List.count_append, List.singleton_append]
    | false =>
      obtain ⟨-, hall⟩ := escapeChar_of_not_isClear hc
      have hblank : ' ' ∉ escapeChar c := fun hmem => absurd (hall ' ' hmem) (by decide)
      have hne : c ≠ ' ' := by
        rintro rfl
        exact absurd hc (by decide)
      rw [List.count_eq_zero_of_not_mem hblank, List.count_cons_of_ne hne, Nat.zero_add]

/-! ## Quotes -/

theorem getLast?_quoted (s : List Char) : ('"' :: (s ++ ['"'])).getLast? = some '"' := by
  rw [← List.cons_append, List.getLast?_concat]

theorem unquote_quoted (s : List Char) : unquote ('"' :: (s ++ ['"'])) = s := by
  rw [unquote, if_pos ⟨by simp, rfl, getLast?_quoted s⟩, List.drop_one, List.tail_cons,
    List.dropLast_concat]

theorem unquote_of_not_mem {s : List Char} (hs : '"' ∉ s) : unquote s = s := by
  rw [unquote, if_neg]
  rintro ⟨-, hhead, -⟩
  exact hs (List.mem_of_head? hhead)

/-- Nothing but a pair of quotes is taken off. -/
theorem unquote_eq_or (s : List Char) : unquote s = s ∨ s = '"' :: (unquote s ++ ['"']) := by
  by_cases hs : 2 ≤ s.length ∧ s.head? = some '"' ∧ s.getLast? = some '"'
  · right
    obtain ⟨hlen, hhead, hlast⟩ := hs
    cases s with
    | nil => cases hhead
    | cons c rest =>
      obtain rfl : c = '"' := Option.some.inj hhead
      cases rest using List.reverseRecOn with
      | nil => exact absurd hlen (by decide)
      | append_singleton rest d _ =>
        rw [← List.cons_append, List.getLast?_concat] at hlast
        obtain rfl : d = '"' := Option.some.inj hlast
        rw [unquote_quoted]
  · exact .inl (by rw [unquote, if_neg hs])

theorem count_blank_unquote (s : List Char) : (unquote s).count ' ' = s.count ' ' := by
  rcases unquote_eq_or s with hs | hs
  · rw [hs]
  · rw [hs, unquote_quoted, List.count_cons_of_ne (by decide), List.count_append]
    rfl

theorem printName_eq_or (blanks : Bool) (name : Path) :
    (printName blanks name = name ∧ name.all isClear = true ∧ (blanks = true → ' ' ∉ name)) ∨
      printName blanks name = '"' :: (escapeName name ++ ['"']) := by
  unfold printName
  split
  · next h =>
    rw [Bool.and_eq_true] at h
    refine .inl ⟨rfl, h.1, ?_⟩
    rintro rfl hmem
    have hblank := h.2
    rw [Bool.true_and, List.contains_iff_mem.2 hmem] at hblank
    exact absurd hblank (by decide)
  · exact .inr rfl

theorem not_mem_of_all_isClear {name : Path} (hname : name.all isClear = true) {c : Char}
    (hc : isClear c = false) : c ∉ name := by
  intro hmem
  rw [List.all_eq_true.1 hname c hmem] at hc
  exact absurd hc (by decide)

theorem unquote_printName (blanks : Bool) (name : Path) :
    unquote (printName blanks name) = escapeName name := by
  rcases printName_eq_or blanks name with ⟨hprint, hclear, -⟩ | hprint
  · rw [hprint, unquote_of_not_mem (not_mem_of_all_isClear hclear (by decide)),
      escapeName_of_all_isClear hclear]
  · rw [hprint, unquote_quoted]

theorem count_blank_printName (blanks : Bool) (name : Path) :
    (printName blanks name).count ' ' = name.count ' ' := by
  rw [← count_blank_unquote, unquote_printName, count_blank_escapeName]

/-- Whether a character can stand on a line that is printed: visible ASCII or a blank. -/
def isPrinted (c : Char) : Bool := 0x20 ≤ c.toNat && c.toNat ≤ 0x7E

theorem isPrinted_of_mem_escapeName {name : Path} {c : Char} (hc : c ∈ escapeName name) :
    isPrinted c = true := by
  rw [escapeName_eq] at hc
  obtain ⟨d, -, hc⟩ := List.mem_flatMap.1 hc
  cases hd : isClear d with
  | true =>
    rw [escapeChar_of_isClear hd, List.mem_singleton] at hc
    rw [hc]
    simp only [isClear, Bool.and_eq_true] at hd
    exact Bool.and_eq_true_iff.2 hd.1.1
  | false =>
    have hescape := (escapeChar_of_not_isClear hd).2 c hc
    simp only [isEscapeChar, Bool.and_eq_true, decide_eq_true_eq] at hescape
    simp only [isPrinted, Bool.and_eq_true, decide_eq_true_eq]
    omega

theorem isPrinted_of_mem_printName {blanks : Bool} {name : Path} {c : Char}
    (hc : c ∈ printName blanks name) : isPrinted c = true := by
  rcases printName_eq_or blanks name with ⟨hprint, hclear, -⟩ | hprint
  · rw [hprint, ← escapeName_of_all_isClear hclear] at hc
    exact isPrinted_of_mem_escapeName hc
  · rw [hprint, List.mem_cons, List.mem_append, List.mem_singleton] at hc
    rcases hc with rfl | hc | rfl
    · rfl
    · exact isPrinted_of_mem_escapeName hc
    · rfl

/-! ## Arrows -/

theorem arrow_eq : arrow = [' ', '-', '>', ' '] := by decide

theorem exists_of_behindFirst?_eq_some {mark s rest : List Char}
    (hs : behindFirst? mark s = some rest) : ∃ front, s = front ++ (mark ++ rest) := by
  fun_induction behindFirst? mark s with
  | case1 => cases hs
  | case2 c s more hmore =>
    cases hs
    exact ⟨[], by rw [List.nil_append, Text.after?_eq_some_iff.1 hmore]⟩
  | case3 c s hnone ih =>
    obtain ⟨front, hfront⟩ := ih hs
    exact ⟨c :: front, by rw [hfront, List.cons_append]⟩

theorem behindFirst?_eq_none_iff {mark s : List Char} (hmark : mark ≠ []) :
    behindFirst? mark s = none ↔ ¬ mark <:+: s := by
  constructor
  · intro hnone hinside
    fun_induction behindFirst? mark s with
    | case1 => exact hmark (List.infix_nil.1 hinside)
    | case2 c s more hmore => cases hnone
    | case3 c s hafter ih =>
      rcases List.infix_cons_iff.1 hinside with ⟨rest, hrest⟩ | hinside
      · rw [Text.after?_eq_some_iff.2 hrest.symm] at hafter
        cases hafter
      · exact ih hnone hinside
  · intro hinside
    cases hs : behindFirst? mark s with
    | none => rfl
    | some rest =>
      obtain ⟨front, hfront⟩ := exists_of_behindFirst?_eq_some hs
      exact absurd ⟨front, rest, by rw [hfront, List.append_assoc]⟩ hinside

/-- The first occurrence stays the first when something is put behind it. -/
theorem behindFirst?_append {mark s rest : List Char} (hs : behindFirst? mark s = some rest)
    (more : List Char) : behindFirst? mark (s ++ more) = some (rest ++ more) := by
  fun_induction behindFirst? mark s with
  | case1 => cases hs
  | case2 c s found hfound =>
    rw [List.cons_append, behindFirst?]
    have hafter : Text.after? mark (c :: (s ++ more)) = some (found ++ more) := by
      rw [Text.after?_eq_some_iff, ← List.cons_append, Text.after?_eq_some_iff.1 hfound,
        List.append_assoc]
    rw [hafter, ← Option.some.inj hs]
  | case3 c s hnone ih =>
    have hafter : Text.after? mark (c :: (s ++ more)) = none := by
      cases hfound : Text.after? mark (c :: (s ++ more)) with
      | none => rfl
      | some found =>
        -- A mark that ended behind the old text would be longer than the one inside of it.
        exfalso
        obtain ⟨front, hfront⟩ := exists_of_behindFirst?_eq_some hs
        have hle : mark.length ≤ (c :: s).length := by
          rw [hfront, List.length_cons, List.length_append, List.length_append]
          omega
        have hbegin : mark <+: c :: s :=
          List.prefix_of_prefix_length_le ⟨found, (Text.after?_eq_some_iff.1 hfound).symm⟩
            (List.prefix_append (c :: s) more) hle
        obtain ⟨rest', hrest'⟩ := hbegin
        rw [Text.after?_eq_some_iff.2 hrest'.symm] at hnone
        cases hnone
    rw [List.cons_append, behindFirst?, hafter]
    exact ih hs

/-- The arrow between two names is found if the first name holds none and does not end like the
beginning of one. -/
theorem behindFirst?_arrow {front rest : List Char} (hinside : ¬ arrow <:+: front)
    (hend : ' ' ∉ front ∨ front.getLast? = some '"') :
    behindFirst? arrow (front ++ (arrow ++ rest)) = some rest := by
  induction front with
  | nil =>
    rw [List.nil_append, arrow_eq]
    rfl
  | cons c front ih =>
    have hafter : Text.after? arrow (c :: (front ++ (arrow ++ rest))) = none := by
      cases hfound : Text.after? arrow (c :: (front ++ (arrow ++ rest))) with
      | none => rfl
      | some found =>
        -- An arrow that begins in the name either ends in it too or holds its last character.
        exfalso
        have heq := Text.after?_eq_some_iff.1 hfound
        have hfront : c :: front <+: arrow ++ found := ⟨arrow ++ rest, heq⟩
        rcases Nat.le_total arrow.length (c :: front).length with hle | hle
        · exact hinside (List.prefix_of_prefix_length_le (List.prefix_append _ _) hfront hle).isInfix
        · have hbegin : c :: front <+: arrow :=
            List.prefix_of_prefix_length_le hfront (List.prefix_append _ _) hle
          rcases hend with hblank | hlast
          · rw [arrow_eq, List.cons_prefix_cons] at hbegin
            exact hblank (hbegin.1 ▸ List.mem_cons_self)
          · exact absurd (hbegin.subset (List.mem_of_getLast? hlast)) (by decide)
    rw [List.cons_append, behindFirst?, hafter]
    refine ih (fun h => hinside (List.infix_cons h)) ?_
    rcases hend with hblank | hlast
    · exact .inl fun h => hblank (List.mem_cons_of_mem _ h)
    · cases front with
      | nil => exact .inl List.not_mem_nil
      | cons d front => exact .inr (by rw [← hlast, List.getLast?_cons_cons])

theorem arrow_infix_of_cons {c : Char} (hc : c ≠ ' ') {s : List Char} (h : arrow <:+: c :: s) :
    arrow <:+: s := by
  rcases List.infix_cons_iff.1 h with hbegin | hinside
  · rw [arrow_eq, List.cons_prefix_cons] at hbegin
    exact absurd hbegin.1.symm hc
  · exact hinside

theorem arrow_infix_of_append {front s : List Char} (hfront : ' ' ∉ front) (h : arrow <:+: front ++ s) :
    arrow <:+: s := by
  induction front with
  | nil => exact h
  | cons c front ih =>
    rw [List.mem_cons, not_or] at hfront
    exact ih hfront.2 (arrow_infix_of_cons (Ne.symm hfront.1) h)

/-- Quotes around a name do not make an arrow. -/
theorem arrow_infix_of_quoted {s : List Char} (h : arrow <:+: '"' :: (s ++ ['"'])) : arrow <:+: s := by
  apply Text.infix_of_infix_concat (by decide) (by decide : '"' ∉ arrow)
  exact arrow_infix_of_cons (by decide) h

/-- What is written for a name begins like the name itself, backslashes apart. -/
theorem exists_of_cons_prefix_escapeName {c : Char} (hc : c ≠ '\\') {s : List Char} {name : Path}
    (h : c :: s <+: escapeName name) : ∃ name', name = c :: name' ∧ s <+: escapeName name' := by
  cases name with
  | nil =>
    rw [escapeName_nil, List.prefix_nil] at h
    cases h
  | cons d name' =>
    rw [escapeName_cons] at h
    cases hd : isClear d with
    | true =>
      rw [escapeChar_of_isClear hd, List.singleton_append, List.cons_prefix_cons] at h
      exact ⟨name', by rw [h.1], h.2⟩
    | false =>
      obtain ⟨⟨e, es, he⟩, -⟩ := escapeChar_of_not_isClear hd
      rw [he, List.cons_append, List.cons_prefix_cons] at h
      exact absurd h.1 hc

/-- No escape makes an arrow, and none hides one. -/
theorem arrow_infix_escapeName_iff {name : Path} : arrow <:+: escapeName name ↔ arrow <:+: name := by
  constructor
  · intro h
    induction name with
    | nil => rwa [escapeName_nil] at h
    | cons c name ih =>
      rw [escapeName_cons] at h
      cases hc : isClear c with
      | true =>
        rw [escapeChar_of_isClear hc, List.singleton_append, List.infix_cons_iff] at h
        rcases h with hbegin | hinside
        · rw [arrow_eq, List.cons_prefix_cons] at hbegin
          obtain ⟨tail, rfl, hdash⟩ := exists_of_cons_prefix_escapeName (by decide) hbegin.2
          obtain ⟨tail, rfl, hpoint⟩ := exists_of_cons_prefix_escapeName (by decide) hdash
          obtain ⟨tail, rfl, -⟩ := exists_of_cons_prefix_escapeName (by decide) hpoint
          exact ⟨[], tail, by rw [arrow_eq, ← hbegin.1]; rfl⟩
        · exact List.infix_cons (ih hinside)
      | false =>
        have hblank : ' ' ∉ escapeChar c := fun hmem =>
          absurd ((escapeChar_of_not_isClear hc).2 ' ' hmem) (by decide)
        exact List.infix_cons (ih (arrow_infix_of_append hblank h))
  · rintro ⟨front, rest, rfl⟩
    refine ⟨escapeName front, escapeName rest, ?_⟩
    have harrow : escapeName arrow = arrow := escapeName_of_all_isClear (by decide)
    rw [escapeName_append, escapeName_append, harrow]

theorem arrow_infix_printName_iff (blanks : Bool) {name : Path} :
    arrow <:+: printName blanks name ↔ arrow <:+: name := by
  rcases printName_eq_or blanks name with ⟨hprint, -⟩ | hprint
  · rw [hprint]
  · rw [hprint]
    constructor
    · intro h
      exact arrow_infix_escapeName_iff.1 (arrow_infix_of_quoted h)
    · intro h
      exact List.infix_cons ((arrow_infix_escapeName_iff.2 h).trans (List.prefix_append _ _).isInfix)

theorem printName_end (name : Path) :
    ' ' ∉ printName true name ∨ (printName true name).getLast? = some '"' := by
  rcases printName_eq_or true name with ⟨hprint, -, hblank⟩ | hprint
  · exact .inl (by rw [hprint]; exact hblank rfl)
  · exact .inr (by rw [hprint, getLast?_quoted])

end ImportAtlas.Changes
