/-
# ImportAtlas.Proofs.ReadBack -- a printed graph is read back as it was

Printing and reading are two functions that know nothing of each other: one lays out a value and escapes
its texts, the other goes through characters, passes over filler and takes escapes apart. Here the
second undoes the first, for every value without numbers and every layout that adds only filler.

An escape is read back character by character (`readString_escapeChar`), so no text can end before its
closing quote. A value is read back by induction over it (`readsBack_of_numberless`): a closing bracket
or a comma is met exactly where an item ends, because reading an item leaves what stands behind it as it
is. The reader counts its attempts, and two for each character of the text are enough.
-/
import Mathlib.Tactic.SplitIfs
import ImportAtlas.Graph
import ImportAtlas.Json.Parse
import ImportAtlas.Proofs.Ascii

namespace ImportAtlas.Json

/-! ## Escapes -/

/-- Below sixteen to the fourth a number has four digits, zeros in front counted. -/
theorem hexDigits_four {n : Nat} (hn : n < 0x10000) :
    Text.hexDigits 4 n = [(n / 0x1000).digitChar, (n / 0x100 % 16).digitChar,
      (n / 0x10 % 16).digitChar, (n % 16).digitChar] := by
  have hstep : ∀ m, 16 ≤ m → Nat.toDigits 16 m = Nat.toDigits 16 (m / 16) ++ [(m % 16).digitChar] :=
    fun m hm => Nat.toDigits_of_base_le (by decide) hm
  have hlast : ∀ m, m < 16 → Nat.toDigits 16 m = [m.digitChar] :=
    fun m hm => Nat.toDigits_of_lt_base hm
  unfold Text.hexDigits
  by_cases h1 : n < 0x10
  · rw [hlast n h1, show n / 0x1000 = 0 by omega, show n / 0x100 % 16 = 0 by omega,
      show n / 0x10 % 16 = 0 by omega, Nat.mod_eq_of_lt h1]
    rfl
  by_cases h2 : n < 0x100
  · rw [hstep n (by omega), hlast (n / 16) (by omega), show n / 0x1000 = 0 by omega,
      show n / 0x100 % 16 = 0 by omega, show n / 0x10 % 16 = n / 16 by omega]
    rfl
  by_cases h3 : n < 0x1000
  · rw [hstep n (by omega), hstep (n / 16) (by omega), hlast (n / 16 / 16) (by omega),
      show n / 0x1000 = 0 by omega, show n / 0x100 % 16 = n / 16 / 16 by omega]
    rfl
  · rw [hstep n (by omega), hstep (n / 16) (by omega), hstep (n / 16 / 16) (by omega),
      hlast (n / 16 / 16 / 16) (by omega), show n / 0x1000 = n / 16 / 16 / 16 by omega,
      show n / 0x100 % 16 = n / 16 / 16 % 16 by omega]
    rfl

theorem hexValue?_digitChar : ∀ d < 16, hexValue? d.digitChar = some d := by decide

/-- The escape of a unit is read as that unit. -/
theorem unit?_digits {n : Nat} (hn : n < 0x10000) :
    unit? (n / 0x1000).digitChar (n / 0x100 % 16).digitChar (n / 0x10 % 16).digitChar
      (n % 16).digitChar = some n := by
  unfold unit?
  rw [hexValue?_digitChar _ (by omega), hexValue?_digitChar _ (by omega),
    hexValue?_digitChar _ (by omega), hexValue?_digitChar _ (by omega)]
  show some _ = some n
  congr 1
  omega

theorem readString_unit {n : Nat} (hn : n < 0x10000) (hhigh : isHighUnit n = false)
    (whole tail : List Char) (htail : tail ≠ []) :
    readString whole (unitEscape n ++ tail) =
      (readString whole tail).map fun r => (unitChar n :: r.1, r.2) := by
  obtain ⟨e, rest, rfl⟩ := List.exists_cons_of_ne_nil htail
  rw [unitEscape, hexDigits_four hn]
  show readString whole ('\\' :: 'u' :: _ :: _ :: _ :: _ :: e :: rest) = _
  rw [readString, unit?_digits hn]
  simp [hhigh]

theorem readString_pair {high low : Nat} (hhigh : isHighUnit high = true) (hlow : isLowUnit low = true)
    (whole tail : List Char) (htail : tail ≠ []) :
    readString whole (unitEscape high ++ unitEscape low ++ tail) =
      (readString whole tail).map fun r => (pairChar high low :: r.1, r.2) := by
  obtain ⟨e, rest, rfl⟩ := List.exists_cons_of_ne_nil htail
  have hh : high < 0x10000 := by
    simp [isHighUnit] at hhigh
    omega
  have hl : low < 0x10000 := by
    simp [isLowUnit] at hlow
    omega
  rw [unitEscape, unitEscape, hexDigits_four hh, hexDigits_four hl]
  show readString whole
    ('\\' :: 'u' :: _ :: _ :: _ :: _ :: '\\' :: 'u' :: _ :: _ :: _ :: _ :: e :: rest) = _
  rw [readString, unit?_digits hh]
  simp [hhigh, unit?_digits hl, hlow]

theorem readString_short {c x : Char} (hc : shortEscape? c = some x) (whole tail : List Char) :
    readString whole ('\\' :: c :: tail) = (readString whole tail).map fun r => (x :: r.1, r.2) := by
  have hletter : c ≠ 'u' := by
    rintro rfl
    cases hc
  have hdigits : ∀ (a b d e f : Char) (rest : List Char),
      c = 'u' → tail = a :: b :: d :: e :: f :: rest → False := fun _ _ _ _ _ _ h _ => hletter h
  rw [readString, hc]
  case x_1 => exact hdigits
  case x_2 => exact hletter

theorem readString_shown {c : Char} (hquote : c ≠ '"') (hback : c ≠ '\\') (hc : 0x20 ≤ c.toNat)
    (whole tail : List Char) :
    readString whole (c :: tail) = (readString whole tail).map fun r => (c :: r.1, r.2) := by
  -- What follows the character does not matter, since it is no backslash.
  have hlast : c = '\\' → tail = [] → False := fun h _ => hback h
  have hdigits : ∀ (a b d e f : Char) (rest : List Char),
      c = '\\' → tail = 'u' :: a :: b :: d :: e :: f :: rest → False := fun _ _ _ _ _ _ h _ => hback h
  have hunit : ∀ rest : List Char, c = '\\' → tail = 'u' :: rest → False := fun _ h _ => hback h
  have hescape : ∀ (d : Char) (rest : List Char), c = '\\' → tail = d :: rest → False :=
    fun _ _ h _ => hback h
  rw [readString, if_neg (Nat.not_lt.2 hc)]
  case x_1 => exact hquote
  case x_2 => exact hlast
  case x_3 => exact hdigits
  case x_4 => exact hunit
  case x_5 => exact hescape

/-- A character is no half of a pair. -/
theorem isUnit_toNat (c : Char) : isHighUnit c.toNat = false ∧ isLowUnit c.toNat = false := by
  have hvalid : c.toNat < 0xD800 ∨ 0xDFFF < c.toNat ∧ c.toNat < 0x110000 := c.valid
  simp [isHighUnit, isLowUnit]
  omega

theorem unitChar_toNat (c : Char) : unitChar c.toNat = c := by
  obtain ⟨hhigh, hlow⟩ := isUnit_toNat c
  rw [unitChar, hhigh, hlow]
  exact Char.ofNat_toNat c

/-- The two units of a character beyond the first plane are a pair that stands for it. -/
theorem pairChar_toNat {c : Char} (hc : 0x10000 ≤ c.toNat) :
    isHighUnit (0xD800 + (c.toNat - 0x10000) / 0x400) = true ∧
      isLowUnit (0xDC00 + (c.toNat - 0x10000) % 0x400) = true ∧
      pairChar (0xD800 + (c.toNat - 0x10000) / 0x400) (0xDC00 + (c.toNat - 0x10000) % 0x400) = c := by
  have hvalid : c.toNat < 0xD800 ∨ 0xDFFF < c.toNat ∧ c.toNat < 0x110000 := c.valid
  refine ⟨?_, ?_, ?_⟩
  · simp only [isHighUnit, Bool.and_eq_true, decide_eq_true_eq]
    omega
  · simp only [isLowUnit, Bool.and_eq_true, decide_eq_true_eq]
    omega
  · have hnat : 0x10000 + (0xD800 + (c.toNat - 0x10000) / 0x400 - 0xD800) * 0x400 +
        (0xDC00 + (c.toNat - 0x10000) % 0x400 - 0xDC00) = c.toNat := by omega
    rw [pairChar, hnat]
    exact Char.ofNat_toNat c

/-- However a character is written, it is read back, unless the text ends right there. -/
theorem readString_escapeChar (c : Char) (whole tail : List Char) (htail : tail ≠ []) :
    readString whole (escapeChar c ++ tail) =
      (readString whole tail).map fun r => (c :: r.1, r.2) := by
  unfold escapeChar
  dsimp only
  split_ifs with hquote hback hshown hn hr ht hf hb hunit
  · subst hquote
    exact readString_short rfl whole tail
  · subst hback
    exact readString_short rfl whole tail
  · have hlow : 0x20 ≤ c.toNat := by simp_all
    exact readString_shown hquote hback hlow whole tail
  · subst hn
    exact readString_short rfl whole tail
  · subst hr
    exact readString_short rfl whole tail
  · subst ht
    exact readString_short rfl whole tail
  · obtain rfl : c = '\x0c' := Char.toNat_inj.1 hf
    exact readString_short rfl whole tail
  · obtain rfl : c = '\x08' := Char.toNat_inj.1 hb
    exact readString_short rfl whole tail
  · rw [readString_unit hunit (isUnit_toNat c).1 whole tail htail, unitChar_toNat]
  · obtain ⟨hhigh, hlow, hpair⟩ := pairChar_toNat (Nat.not_lt.1 hunit)
    rw [readString_pair hhigh hlow whole tail htail, hpair]

theorem readString_flatMap_escapeChar (text whole rest : List Char) :
    readString whole (text.flatMap escapeChar ++ '"' :: rest) = .ok (text, rest) := by
  induction text with
  | nil =>
    show readString whole ('"' :: rest) = _
    rw [readString]
  | cons c text ih =>
    rw [List.flatMap_cons, List.append_assoc, readString_escapeChar _ _ _ (by simp), ih]
    rfl

/-! ## Layouts -/

theorem skipFiller_append {gap : List Char} (hgap : ∀ c ∈ gap, isFiller c = true) (rest : List Char) :
    skipFiller (gap ++ rest) = skipFiller rest :=
  List.dropWhile_append_of_pos hgap

theorem skipFiller_cons {c : Char} (hc : isFiller c = false) (rest : List Char) :
    skipFiller (c :: rest) = c :: rest :=
  List.dropWhile_cons_of_neg (by rw [hc]; exact Bool.false_ne_true)

namespace Layout

/-- A layout that adds nothing but filler. -/
def IsFiller : Layout → Prop
  | line => True
  | indented unit => ∀ c ∈ unit, Json.isFiller c = true

theorem isFiller_ofIndent (indent : Option Int) : (ofIndent indent).IsFiller := by
  cases indent with
  | none => trivial
  | some n =>
    intro c hc
    rw [List.eq_of_mem_replicate hc]
    rfl

variable {layout : Layout}

theorem isFiller_flatten {unit : List Char} (hunit : ∀ c ∈ unit, Json.isFiller c = true)
    (level : Nat) : ∀ c ∈ (List.replicate level unit).flatten, Json.isFiller c = true := by
  intro c hc
  obtain ⟨u, hu, hc⟩ := List.mem_flatten.1 hc
  rw [List.eq_of_mem_replicate hu] at hc
  exact hunit c hc

theorem IsFiller.opening (h : layout.IsFiller) (level : Nat) :
    ∀ c ∈ layout.opening level, Json.isFiller c = true := by
  intro c hc
  cases layout with
  | line => cases hc
  | indented unit =>
    rcases List.mem_cons.1 hc with rfl | hc
    · rfl
    · exact isFiller_flatten h level c hc

/-- Between two items stand a comma and filler. -/
theorem IsFiller.between (h : layout.IsFiller) (level : Nat) :
    ∃ gap, layout.between level = ',' :: gap ∧ ∀ c ∈ gap, Json.isFiller c = true := by
  cases layout with
  | line => exact ⟨[' '], rfl, by simp [Json.isFiller]⟩
  | indented unit =>
    refine ⟨'\n' :: (List.replicate level unit).flatten, rfl, ?_⟩
    intro c hc
    rcases List.mem_cons.1 hc with rfl | hc
    · rfl
    · exact isFiller_flatten h level c hc

end Layout

/-! ## Values -/

/-- A value without numbers. -/
inductive Value.Numberless : Value → Prop
  | null : Numberless .null
  | bool (b : Bool) : Numberless (.bool b)
  | string (text : List Char) : Numberless (.string text)
  | array {items : List Value} : (∀ v ∈ items, Numberless v) → Numberless (.array items)
  | object {fields : List (List Char × Value)} :
      (∀ f ∈ fields, Numberless f.2) → Numberless (.object fields)

/-- What a value is written with at its front. -/
theorem Value.Numberless.exists_head {v : Value} (hv : v.Numberless) (layout : Layout) (level : Nat) :
    ∃ c cs, print layout level v = c :: cs ∧ isFiller c = false ∧ c ≠ ']' := by
  cases hv with
  | null => exact ⟨'n', _, rfl, rfl, by decide⟩
  | bool b => cases b with
    | true => exact ⟨'t', _, rfl, rfl, by decide⟩
    | false => exact ⟨'f', _, rfl, rfl, by decide⟩
  | string text => exact ⟨'"', _, rfl, rfl, by decide⟩
  | @array items _ => cases items with
    | nil => exact ⟨'[', _, rfl, rfl, by decide⟩
    | cons item items => exact ⟨'[', _, by rw [print]; rfl, rfl, by decide⟩
  | @object fields _ => cases fields with
    | nil => exact ⟨'\x7b', _, rfl, rfl, by decide⟩
    | cons f fields => exact ⟨'\x7b', _, by rw [print]; rfl, rfl, by decide⟩

/-- A value is read back from its text wherever that stands, with two attempts for each of its
characters. -/
def ReadsBack (layout : Layout) (v : Value) : Prop :=
  ∀ level fuel rest, 2 * (print layout level v).length ≤ fuel →
    readValue fuel (print layout level v ++ rest) = .ok (v, rest)

variable {layout : Layout}

theorem printString_append (text rest : List Char) :
    printString text ++ rest = '"' :: (text.flatMap escapeChar ++ '"' :: rest) := by
  simp [printString]

theorem readValue_string (fuel : Nat) (text rest : List Char) :
    readValue (fuel + 1) (printString text ++ rest) = .ok (.string text, rest) := by
  rw [printString_append, readValue]
  show (readString _ (text.flatMap escapeChar ++ '"' :: rest)).map _ = _
  rw [readString_flatMap_escapeChar]
  rfl

/-- Some attempt is left for a value. -/
theorem Value.Numberless.exists_fuel {v : Value} (hv : v.Numberless) {level fuel : Nat}
    (hfuel : 2 * (print layout level v).length ≤ fuel) : ∃ more, fuel = more + 1 := by
  obtain ⟨c, cs, htext, -⟩ := hv.exists_head layout level
  rw [htext, List.length_cons] at hfuel
  exact ⟨fuel - 1, by omega⟩

section Steps

variable {depth : Nat} {cs rest rest' : List Char} {v : Value}

/-- An array whose first item does not start with a bracket that closes it. -/
theorem readValue_items {c : Char} (hc : c ≠ ']') (hcs : skipFiller cs = c :: rest) :
    readValue (depth + 1) ('[' :: cs) =
      (readItems depth (c :: rest)).map fun r => (.array r.1, r.2) := by
  rw [readValue, hcs]
  split
  · next heq => exact absurd (List.cons.inj heq).1 hc
  · rfl

theorem readItems_last (hv : readValue depth cs = .ok (v, rest))
    (hrest : skipFiller rest = ']' :: rest') : readItems (depth + 1) cs = .ok ([v], rest') := by
  simp only [readItems, hv, hrest]

theorem readItems_next (hv : readValue depth cs = .ok (v, rest))
    (hrest : skipFiller rest = ',' :: rest') :
    readItems (depth + 1) cs =
      (readItems depth (skipFiller rest')).map fun r => (v :: r.1, r.2) := by
  simp only [readItems, hv, hrest]

/-- An object that starts with the name of a field. -/
theorem readValue_fields (hcs : skipFiller cs = '"' :: rest) :
    readValue (depth + 1) ('\x7b' :: cs) =
      (readFields depth ('"' :: rest)).map fun r => (.object r.1, r.2) := by
  simp only [readValue, hcs]
  rfl

theorem readFields_last (name : List Char) (hcs : skipFiller cs = cs)
    (hv : readValue depth cs = .ok (v, rest)) (hrest : skipFiller rest = '\x7d' :: rest') :
    readFields (depth + 1) (printString name ++ ':' :: ' ' :: cs) = .ok ([(name, v)], rest') := by
  have hblank : skipFiller (' ' :: cs) = cs := hcs
  rw [printString_append, readFields, readString_flatMap_escapeChar]
  dsimp only
  rw [skipFiller_cons rfl]
  simp only [hblank, hv, hrest]

theorem readFields_next (name : List Char) (hcs : skipFiller cs = cs)
    (hv : readValue depth cs = .ok (v, rest)) (hrest : skipFiller rest = ',' :: rest') :
    readFields (depth + 1) (printString name ++ ':' :: ' ' :: cs) =
      (readFields depth (skipFiller rest')).map fun r => ((name, v) :: r.1, r.2) := by
  have hblank : skipFiller (' ' :: cs) = cs := hcs
  rw [printString_append, readFields, readString_flatMap_escapeChar]
  dsimp only
  rw [skipFiller_cons rfl]
  simp only [hblank, hv, hrest]

theorem skipFiller_print (hv : v.Numberless) (level : Nat) (rest : List Char) :
    skipFiller (print layout level v ++ rest) = print layout level v ++ rest := by
  obtain ⟨c, cs, htext, hc, -⟩ := hv.exists_head layout level
  rw [htext]
  exact skipFiller_cons hc _

theorem skipFiller_opening (hlayout : layout.IsFiller) {c : Char} (hc : isFiller c = false)
    (level : Nat) (rest : List Char) :
    skipFiller (layout.opening level ++ c :: rest) = c :: rest := by
  rw [skipFiller_append (hlayout.opening level), skipFiller_cons hc]

end Steps

/-- The items of an array are read up to its closing bracket. -/
theorem readItems_print (hlayout : layout.IsFiller) {item : Value} {items : List Value}
    (hitem : ReadsBack layout item) (hnum : ∀ v ∈ items, v.Numberless)
    (hitems : ∀ v ∈ items, ReadsBack layout v) (level outer fuel : Nat) (rest : List Char)
    (hfuel : 2 * (print layout level item ++ printItems layout level items).length + 2 ≤ fuel) :
    readItems fuel (print layout level item ++ (printItems layout level items ++
      (layout.opening outer ++ ']' :: rest))) = .ok (item :: items, rest) := by
  -- Each item takes one attempt for itself and leaves the others to those behind it.
  induction items generalizing item fuel with
  | nil =>
    obtain ⟨depth, rfl⟩ : ∃ depth, fuel = depth + 1 := ⟨fuel - 1, by omega⟩
    simp only [printItems, List.append_nil] at hfuel
    exact readItems_last (hitem level depth _ (by omega)) (skipFiller_opening hlayout rfl outer rest)
  | cons next items ih =>
    obtain ⟨depth, rfl⟩ : ∃ depth, fuel = depth + 1 := ⟨fuel - 1, by omega⟩
    obtain ⟨gap, hbetween, hgap⟩ := hlayout.between level
    simp only [printItems, hbetween, List.length_append, List.length_cons] at hfuel
    have hrest := ih (hitems next List.mem_cons_self)
      (fun v hv => hnum v (List.mem_cons_of_mem _ hv))
      (fun v hv => hitems v (List.mem_cons_of_mem _ hv)) depth
      (by rw [List.length_append]; omega)
    simp only [printItems, hbetween, List.append_assoc, List.cons_append]
    rw [readItems_next (hitem level depth _ (by omega)) (skipFiller_cons rfl _),
      skipFiller_append hgap, skipFiller_print (hnum next List.mem_cons_self), hrest]
    rfl

/-- The fields of an object are read up to its closing brace. -/
theorem readFields_print (hlayout : layout.IsFiller) (name : List Char) (v : Value)
    {fields : List (List Char × Value)} (hnum : v.Numberless) (hnums : ∀ f ∈ fields, f.2.Numberless)
    (hv : ReadsBack layout v) (hfields : ∀ f ∈ fields, ReadsBack layout f.2) (level outer fuel : Nat)
    (rest : List Char)
    (hfuel : 2 * (print layout level v ++ printFields layout level fields).length + 2 ≤ fuel) :
    readFields fuel (printString name ++ ':' :: ' ' :: (print layout level v ++
      (printFields layout level fields ++ (layout.opening outer ++ '\x7d' :: rest)))) =
        .ok ((name, v) :: fields, rest) := by
  induction fields generalizing name v fuel with
  | nil =>
    obtain ⟨depth, rfl⟩ : ∃ depth, fuel = depth + 1 := ⟨fuel - 1, by omega⟩
    simp only [printFields, List.append_nil] at hfuel
    exact readFields_last name (skipFiller_print hnum level _) (hv level depth _ (by omega))
      (skipFiller_opening hlayout rfl outer rest)
  | cons next fields ih =>
    obtain ⟨depth, rfl⟩ : ∃ depth, fuel = depth + 1 := ⟨fuel - 1, by omega⟩
    obtain ⟨gap, hbetween, hgap⟩ := hlayout.between level
    obtain ⟨other, w⟩ := next
    simp only [printFields, hbetween, List.length_append, List.length_cons] at hfuel
    have hrest := ih other w (hnums _ List.mem_cons_self)
      (fun f hf => hnums f (List.mem_cons_of_mem _ hf)) (hfields _ List.mem_cons_self)
      (fun f hf => hfields f (List.mem_cons_of_mem _ hf)) depth
      (by rw [List.length_append]; omega)
    have hquote : ∀ tail, skipFiller (printString other ++ tail) = printString other ++ tail :=
      fun tail => skipFiller_cons rfl _
    simp only [printFields, hbetween, List.append_assoc, List.cons_append]
    rw [readFields_next name (skipFiller_print hnum level _) (hv level depth _ (by omega))
      (skipFiller_cons rfl _), skipFiller_append hgap, hquote, hrest]
    rfl

/-- What is written is read back, in every layout of filler. -/
theorem readsBack_of_numberless (hlayout : layout.IsFiller) {v : Value} (hv : v.Numberless) :
    ReadsBack layout v := by
  induction hv with
  | null =>
    intro level fuel rest hfuel
    obtain ⟨depth, rfl⟩ := Value.Numberless.null.exists_fuel hfuel
    rfl
  | bool b =>
    intro level fuel rest hfuel
    obtain ⟨depth, rfl⟩ := (Value.Numberless.bool b).exists_fuel hfuel
    cases b <;> rfl
  | string text =>
    intro level fuel rest hfuel
    obtain ⟨depth, rfl⟩ := (Value.Numberless.string text).exists_fuel hfuel
    exact readValue_string depth text rest
  | @array items hnum ih =>
    intro level fuel rest hfuel
    obtain ⟨depth, rfl⟩ := (Value.Numberless.array hnum).exists_fuel hfuel
    cases items with
    | nil => rfl
    | cons item items =>
      obtain ⟨c, cs, hhead, hfill, hc⟩ := (hnum item List.mem_cons_self).exists_head layout (level + 1)
      simp only [print, List.length_append, List.length_cons] at hfuel
      have hread := readItems_print hlayout (ih item List.mem_cons_self)
        (fun v hv => hnum v (List.mem_cons_of_mem _ hv))
        (fun v hv => ih v (List.mem_cons_of_mem _ hv)) (level + 1) level depth rest
        (by rw [List.length_append]; omega)
      simp only [print, List.append_assoc, List.cons_append, List.nil_append]
      rw [hhead, List.cons_append] at hread ⊢
      rw [readValue_items hc (skipFiller_opening hlayout hfill _ _), hread]
      rfl
  | @object fields hnum ih =>
    intro level fuel rest hfuel
    obtain ⟨depth, rfl⟩ := (Value.Numberless.object hnum).exists_fuel hfuel
    cases fields with
    | nil => rfl
    | cons f fields =>
      obtain ⟨name, v⟩ := f
      simp only [print, List.length_append, List.length_cons] at hfuel
      have hread := readFields_print hlayout name v (hnum _ List.mem_cons_self)
        (fun f hf => hnum f (List.mem_cons_of_mem _ hf)) (ih _ List.mem_cons_self)
        (fun f hf => ih f (List.mem_cons_of_mem _ hf)) (level + 1) level depth rest
        (by rw [List.length_append]; omega)
      simp only [print, List.append_assoc, List.cons_append, List.nil_append]
      rw [printString, List.cons_append, List.cons_append] at hread ⊢
      rw [readValue_fields (skipFiller_opening hlayout rfl _ _), hread]
      rfl

/-- What was written of a value is read as that value. -/
theorem parse_render (hlayout : layout.IsFiller) {v : Value} (hv : v.Numberless) :
    parse (render layout v) = .ok v := by
  have hread := readsBack_of_numberless hlayout hv 0 (2 * (render layout v).length + 2) []
    (Nat.le_add_right _ _)
  have hskip := @skipFiller_print layout v hv 0 []
  rw [List.append_nil] at hread hskip
  unfold parse
  rw [show skipFiller (render layout v) = render layout v from hskip,
    show readValue _ (render layout v) = _ from hread]
  rfl

/-! ## ASCII -/

theorem isAscii_of_isFiller {c : Char} (hc : isFiller c = true) : Text.isAscii c = true := by
  simp only [isFiller, Bool.or_eq_true, decide_eq_true_eq] at hc
  rcases hc with ((rfl | rfl) | rfl) | rfl <;> rfl

theorem all_isAscii_unitEscape {n : Nat} (hn : n < 0x10000) :
    (unitEscape n).all Text.isAscii = true := by
  have hdigit : ∀ d < 16, Text.isAscii d.digitChar = true := by decide
  rw [unitEscape, hexDigits_four hn]
  simp only [List.all_cons, List.all_nil, Bool.and_true]
  rw [hdigit _ (by omega), hdigit _ (by omega), hdigit _ (by omega), hdigit _ (by omega)]
  rfl

theorem all_isAscii_escapeChar (c : Char) : (escapeChar c).all Text.isAscii = true := by
  unfold escapeChar
  dsimp only
  split_ifs with hquote hback hshown hn hr ht hf hb hunit
  · rfl
  · rfl
  · simp [Text.isAscii] at hshown ⊢
    omega
  · rfl
  · rfl
  · rfl
  · rfl
  · rfl
  · exact all_isAscii_unitEscape hunit
  · have hvalid : c.toNat < 0xD800 ∨ 0xDFFF < c.toNat ∧ c.toNat < 0x110000 := c.valid
    rw [List.all_append, all_isAscii_unitEscape (by omega), all_isAscii_unitEscape (by omega)]
    rfl

theorem all_isAscii_printString (text : List Char) :
    (printString text).all Text.isAscii = true := by
  have htext : (text.flatMap escapeChar).all Text.isAscii = true := by
    rw [List.all_flatMap, List.all_eq_true]
    exact fun c _ => all_isAscii_escapeChar c
  simp only [printString, List.cons_append, List.all_cons, List.all_append, htext]
  rfl

section Ascii

variable (hlayout : layout.IsFiller) (level : Nat)
include hlayout

theorem all_isAscii_opening : (layout.opening level).all Text.isAscii = true := by
  rw [List.all_eq_true]
  exact fun c hc => isAscii_of_isFiller (hlayout.opening level c hc)

theorem all_isAscii_between : (layout.between level).all Text.isAscii = true := by
  obtain ⟨gap, hbetween, hgap⟩ := hlayout.between level
  have hascii : gap.all Text.isAscii = true := by
    rw [List.all_eq_true]
    exact fun c hc => isAscii_of_isFiller (hgap c hc)
  rw [hbetween, List.all_cons, hascii]
  rfl

theorem all_isAscii_printItems {items : List Value}
    (hitems : ∀ v ∈ items, ∀ level, (print layout level v).all Text.isAscii = true) :
    (printItems layout level items).all Text.isAscii = true := by
  induction items with
  | nil => rfl
  | cons item items ih =>
    rw [printItems, List.all_append, List.all_append, all_isAscii_between hlayout,
      hitems item List.mem_cons_self, ih fun v hv => hitems v (List.mem_cons_of_mem _ hv)]
    rfl

theorem all_isAscii_printFields {fields : List (List Char × Value)}
    (hfields : ∀ f ∈ fields, ∀ level, (print layout level f.2).all Text.isAscii = true) :
    (printFields layout level fields).all Text.isAscii = true := by
  induction fields with
  | nil => rfl
  | cons f fields ih =>
    have hv := hfields f List.mem_cons_self level
    have hrest := ih fun f hf => hfields f (List.mem_cons_of_mem _ hf)
    obtain ⟨name, v⟩ := f
    simp only [printFields, List.all_append, List.all_cons, all_isAscii_between hlayout,
      all_isAscii_printString, hv, hrest]
    rfl

end Ascii

/-- The text of a value without numbers is plain ASCII. -/
theorem all_isAscii_print (hlayout : layout.IsFiller) {v : Value} (hv : v.Numberless) (level : Nat) :
    (print layout level v).all Text.isAscii = true := by
  induction hv generalizing level with
  | null => rfl
  | bool b => cases b <;> rfl
  | string text => exact all_isAscii_printString text
  | @array items _ ih =>
    cases items with
    | nil => rfl
    | cons item items =>
      have hitems := all_isAscii_printItems hlayout (level + 1)
        fun v hv level => ih v (List.mem_cons_of_mem _ hv) level
      simp only [print, List.all_append, List.all_cons, all_isAscii_opening hlayout,
        ih item List.mem_cons_self, hitems]
      rfl
  | @object fields _ ih =>
    cases fields with
    | nil => rfl
    | cons f fields =>
      have hfields := all_isAscii_printFields hlayout (level + 1)
        fun f hf level => ih f (List.mem_cons_of_mem _ hf) level
      have hv := ih f List.mem_cons_self (level + 1)
      obtain ⟨name, v⟩ := f
      simp only [print, List.all_append, List.all_cons, all_isAscii_opening hlayout,
        all_isAscii_printString, hv, hfields]
      rfl

end ImportAtlas.Json

namespace ImportAtlas

open Json (Value)

/-! ## Graphs -/

theorem Json.Value.numberless_record {fields : List (String × Value)}
    (hfields : ∀ f ∈ fields, f.2.Numberless) : (Value.record fields).Numberless := by
  refine .object fun f hf => ?_
  obtain ⟨g, hg, rfl⟩ := List.mem_map.1 hf
  exact hfields g hg

theorem FileNode.numberless_toJson (n : FileNode) : n.toJson.Numberless := by
  apply Value.numberless_record
  simp only [List.forall_mem_cons, List.not_mem_nil, false_imp_iff, implies_true, and_true]
  exact ⟨.string _, .string _, .string _, .bool _⟩

theorem Edge.numberless_toJson (e : Edge) : e.toJson.Numberless := by
  apply Value.numberless_record
  simp only [List.forall_mem_cons, List.not_mem_nil, false_imp_iff, implies_true, and_true]
  refine ⟨.string _, .string _, ?_⟩
  cases e.kind with
  | none => exact .null
  | some kind => exact .string _

/-- A graph holds texts and truth values, and no numbers. -/
theorem Graph.numberless_toJson (g : Graph) : g.toJson.Numberless := by
  apply Value.numberless_record
  simp only [List.forall_mem_cons, List.not_mem_nil, false_imp_iff, implies_true, and_true]
  refine ⟨.array ?_, .array ?_⟩
  · intro v hv
    obtain ⟨n, -, rfl⟩ := List.mem_map.1 hv
    exact n.numberless_toJson
  · intro v hv
    obtain ⟨e, -, rfl⟩ := List.mem_map.1 hv
    exact e.numberless_toJson

/-- Whatever its texts hold and however it is indented, the text of a graph is plain ASCII and is read as
the record of its two lists, with a record of its fields for each node and each edge. So the indent does
not matter to a reader, and graphs with different records have different texts. -/
theorem graph_text_reads_back (g : Graph) (indent : Option Int) :
    (∀ c ∈ g.toText indent, c.toNat < 0x80) ∧
      Json.parse (g.toText indent) = .ok g.toJson ∧
      g.toJson = .record
        [("nodes", .array (g.nodes.map fun n => .record [("id", .string n.id),
          ("label", .string n.label), ("path", .string n.path), ("isChanged", .bool n.isChanged)])),
        ("edges", .array (g.edges.map fun e => .record [("source", .string e.source),
          ("target", .string e.target), ("kind", .orNull .text e.kind)]))] ∧
      (∀ other, Json.parse (g.toText other) = Json.parse (g.toText indent)) ∧
      ∀ (g' : Graph) (other : Option Int), g'.toJson ≠ g.toJson →
        g'.toText other ≠ g.toText indent := by
  have hread : ∀ (g : Graph) (indent : Option Int), Json.parse (g.toText indent) = .ok g.toJson :=
    fun g indent => Json.parse_render (Json.Layout.isFiller_ofIndent indent) g.numberless_toJson
  refine ⟨?_, hread g indent, rfl, ?_, ?_⟩
  · have hascii := Json.all_isAscii_print (Json.Layout.isFiller_ofIndent indent) g.numberless_toJson 0
    rw [List.all_eq_true] at hascii
    exact fun c hc => of_decide_eq_true (hascii c hc)
  · intro other
    rw [hread, hread]
  · intro g' other hne htext
    have hsame := hread g' other
    rw [htext, hread] at hsame
    exact hne (Except.ok.inj hsame).symm

/-- A node whose texts hold quotes, escapes, line breaks and characters of every width. -/
def oddGraph : Graph where
  nodes := [{ id := "\"\\".toList, label := "\n\u2028\x7f".toList, path := "/é/😀".toList }]
  edges := [{ source := "\"\\".toList, target := "],".toList, kind := none }]

theorem graph_text_reads_back_oddGraph :
    (∀ c ∈ oddGraph.toText (some (-1)), c.toNat < 0x80) ∧
      Json.parse (oddGraph.toText (some (-1))) = .ok (.record
        [("nodes", .array [.record [("id", .text "\"\\"), ("label", .text "\n\u2028\x7f"),
          ("path", .text "/é/😀"), ("isChanged", .bool false)]]),
        ("edges", .array [.record [("source", .text "\"\\"), ("target", .text "],"),
          ("kind", .null)]])]) ∧
      ({} : Graph).toJson ≠ oddGraph.toJson ∧
      ({} : Graph).toText none ≠ oddGraph.toText (some (-1)) := by
  have hne : ({} : Graph).toJson ≠ oddGraph.toJson := by
    intro h
    cases h
  obtain ⟨hascii, hread, hrecord, -, hdiffer⟩ := graph_text_reads_back oddGraph (some (-1))
  rw [hrecord] at hread
  exact ⟨hascii, hread, hne, hdiffer {} none hne⟩

end ImportAtlas
