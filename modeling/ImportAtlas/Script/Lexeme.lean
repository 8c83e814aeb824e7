/-
# ImportAtlas.Script.Lexeme -- where names, literals and comments end

For each class of texts that the grammar takes as a unit, the offset behind the one that starts at a
given offset. The character zero ends all of them and is part of none.
-/
import ImportAtlas.Script.Source

namespace ImportAtlas.Script

/-! ## Characters -/

/-- Whether a code point lies in one of some ranges, ends included. -/
def inRanges (ranges : List (Nat × Nat)) (c : Char) : Bool :=
  ranges.any fun r => r.1 ≤ c.toNat && c.toNat ≤ r.2

/-- Characters that may stand between two tokens. -/
def isGap (c : Char) : Bool :=
  if c.toNat < 0x80 then c = ' ' || c = '\n' || c = '\t' || c = '\r'
  else
    inRanges [(0xA0, 0xA0), (0x1680, 0x1680), (0x2000, 0x200B), (0x202F, 0x202F),
      (0x205F, 0x2060), (0x3000, 0x3000), (0xFEFF, 0xFEFF)] c

/-- Characters that the search for the end of a statement passes over. They are not the same as those
between tokens: blanks that forbid a line break are missing, and separators of lines are here. -/
def isLineBlank (c : Char) : Bool :=
  if c.toNat < 0x80 then c = ' ' || ('\t' ≤ c && c ≤ '\r')
  else
    inRanges [(0x1680, 0x1680), (0x2000, 0x2006), (0x2008, 0x200A), (0x2028, 0x2029),
      (0x205F, 0x205F), (0x3000, 0x3000)] c

/-- Characters of signs, which can be no part of a name. -/
def isSignChar (c : Char) : Bool :=
  c.toNat < 0x80 && ":;`\"'@#.,|^&<=>+-*/\\%?!~()[]\x7b\x7d".toList.contains c

/-- Characters that may stand in a name behind its first. -/
def isNamePart (c : Char) : Bool :=
  c.isAlphanum || (0x20 ≤ c.toNat && !isGap c && !isSignChar c)

/-- Characters that may open a name. -/
def isNameStart (c : Char) : Bool := isNamePart c && !c.isDigit

/-- Digits of base sixteen. -/
def isHexDigit (c : Char) : Bool :=
  c.isDigit || ('a' ≤ c && c ≤ 'f') || ('A' ≤ c && c ≤ 'F')

/-- Letters, digits, the underscore and the dollar sign. -/
def isTagWordPart (c : Char) : Bool := c.isAlphanum || c = '_' || c = '$'

namespace Source

/-! ## Names -/

/-- The end of the braces or four digits of a code point escape, whose `u` ends at `p`. -/
def codePointStop? (s : Source) (p : Nat) : Option Nat :=
  if s.has p '\x7b' then
    let q := s.skipWhile isHexDigit (p + 1)
    if p + 1 < q && s.has q '\x7d' then some (q + 1) else none
  else if (List.range 4).all fun i => s.test (p + i) isHexDigit then some (p + 4)
  else none

/-- The end of one character of a name, a code point escape being one. -/
def nameCharStop? (s : Source) (start : Bool) (p : Nat) : Option Nat :=
  if s.test p (if start then isNameStart else isNamePart) then some (p + 1)
  else if s.has p '\\' && s.has (p + 1) 'u' then s.codePointStop? (p + 2)
  else none

/-- The end of the longest run of name characters from `p`, at most `fuel` of them. -/
def nameRun (s : Source) : Nat → Nat → Nat
  | 0, p => p
  | fuel + 1, p =>
    match s.nameCharStop? false p with
    | some q => nameRun s fuel q
    | none => p

/-- The end of the name that starts at `p`. -/
def nameStop? (s : Source) (p : Nat) : Option Nat :=
  (s.nameCharStop? true p).map fun q => s.nameRun (s.size - q) q

/-- The end of the name behind the number sign at `p`. -/
def privateNameStop? (s : Source) (p : Nat) : Option Nat :=
  if s.has p '#' then s.nameStop? (p + 1) else none

/-- The end of the name with a hyphen at `p`. -/
def markupNameStop? (s : Source) (p : Nat) : Option Nat :=
  if s.test p (fun c => isTagWordPart c && !c.isDigit) then
    let q := s.skipWhile isTagWordPart p
    if s.has q '-' then some (s.skipWhile (fun c => isTagWordPart c || c = '-') q) else none
  else none

/-! ## Comments -/

/-- The first offset from `p` on with a line feed, nothing to read, or the end. -/
def lineStop (s : Source) (p : Nat) : Nat := s.skipWhile (fun c => c ≠ '\n' && c ≠ '\x00') p

/-- The end of a block comment from inside it. -/
def blockStop? (s : Source) : Nat → Nat → Option Nat
  | 0, _ => none
  | fuel + 1, p =>
    if s.isVoid p then none
    else if s.has p '*' && s.has (p + 1) '/' then some (p + 2)
    else blockStop? s fuel (p + 1)

/-- The end of the comment at `p`. Two markers of other languages open a comment to the end of the
line as well. -/
def commentStop? (s : Source) (p : Nat) : Option Nat :=
  match s.get? p with
  | some '/' =>
    if s.has (p + 1) '/' then some (s.lineStop (p + 2))
    else if s.has (p + 1) '*' then s.blockStop? (s.size - p) (p + 2)
    else none
  | some '<' => if s.hasAll p ['<', '!', '-', '-'] then some (s.lineStop (p + 4)) else none
  | some '-' => if s.hasAll p ['-', '-', '>'] then some (s.lineStop (p + 3)) else none
  | _ => none

/-! ## Texts -/

/-- The end of the escape whose backslash stands at `p`. -/
def escapeStop? (s : Source) (p : Nat) : Option Nat :=
  match s.get? (p + 1) with
  | none => none
  | some '\x00' => none
  | some 'x' =>
    if s.test (p + 2) isHexDigit && s.test (p + 3) isHexDigit then some (p + 4) else none
  | some 'u' => s.codePointStop? (p + 2)
  | some _ => some (p + 2)

/-- The end of a quoted text from inside it: the offset behind the closing quote. Line breaks may
stand in it. -/
def quotedStop? (s : Source) (quote : Char) : Nat → Nat → Option Nat
  | 0, _ => none
  | fuel + 1, p =>
    match s.get? p with
    | none => none
    | some c =>
      if c = quote then some (p + 1)
      else if c = '\x00' then none
      else if c = '\\' then
        match s.escapeStop? p with
        | some q => quotedStop? s quote fuel q
        | none => none
      else quotedStop? s quote fuel (p + 1)

/-- The end of the quoted text at `p`. -/
def textStop? (s : Source) (p : Nat) : Option Nat :=
  match s.get? p with
  | some '"' => s.quotedStop? '"' (s.size - p) (p + 1)
  | some '\'' => s.quotedStop? '\'' (s.size - p) (p + 1)
  | _ => none

/-- The end of the plain characters of a template from `p`: the offset of a back quote, a backslash or
a dollar sign with a brace. None if the text ends before. -/
def templateTextStop? (s : Source) : Nat → Nat → Option Nat
  | 0, _ => none
  | fuel + 1, p =>
    if s.isVoid p then none
    else if s.has p '`' || s.has p '\\' || (s.has p '$' && s.has (p + 1) '\x7b') then some p
    else templateTextStop? s fuel (p + 1)

/-- The end of the text between tags at `p`, which may be empty. -/
def markupTextStop (s : Source) (p : Nat) : Nat :=
  s.skipWhile (fun c => c ≠ '\x7b' && c ≠ '\x7d' && c ≠ '<' && c ≠ '>' && c ≠ '\x00') p

/-! ## Numbers -/

/-- The end of a run of digits at `p`, with single underscores between two; `p` if there is none. -/
def digitsStop (s : Source) (digit : Char → Bool) : Nat → Nat → Nat
  | 0, p => p
  | fuel + 1, p =>
    if s.test p digit then
      if s.has (p + 1) '_' && s.test (p + 2) digit then digitsStop s digit fuel (p + 2)
      else digitsStop s digit fuel (p + 1)
    else p

/-- The end of the exponent at `p`. -/
def exponentStop? (s : Source) (p : Nat) : Option Nat :=
  if s.test p (fun c => c = 'e' || c = 'E') then
    let q := if s.test (p + 1) (fun c => c = '+' || c = '-') then p + 2 else p + 1
    if s.test q Char.isDigit then some (s.digitsStop Char.isDigit s.size q) else none
  else none

/-- Skips the mark of a big integer at `p`. -/
def bigMarkStop (s : Source) (p : Nat) : Nat := if s.has p 'n' then p + 1 else p

/-- The end of a number of a base with a mark of its own. -/
def radixStop? (s : Source) (mark digit : Char → Bool) (p : Nat) : Option Nat :=
  if s.has p '0' && s.test (p + 1) mark && s.test (p + 2) digit then
    some (s.bigMarkStop (s.digitsStop digit s.size (p + 2)))
  else none

/-- The end of a decimal number. A zero before other digits is allowed, but a fraction or an exponent
may follow only if at most one zero leads. -/
def decimalStop? (s : Source) (p : Nat) : Option Nat :=
  if s.test p Char.isDigit then
    let q := s.digitsStop Char.isDigit s.size p
    let fraction := !s.has p '0' || q = p + 1 || s.test (p + 1) fun c => c.isDigit && c ≠ '0'
    if fraction && s.has q '.' then
      let r := s.digitsStop Char.isDigit s.size (q + 1)
      some ((s.exponentStop? r).getD r)
    else if fraction then some ((s.exponentStop? q).getD (s.bigMarkStop q))
    else some (s.bigMarkStop q)
  else if s.has p '.' && s.test (p + 1) Char.isDigit then
    let r := s.digitsStop Char.isDigit s.size (p + 1)
    some ((s.exponentStop? r).getD r)
  else none

/-- The end of the number at `p`. -/
def numberStop? (s : Source) (p : Nat) : Option Nat :=
  (s.radixStop? (fun c => c = 'x' || c = 'X') isHexDigit p).or
    ((s.radixStop? (fun c => c = 'o' || c = 'O') (fun c => '0' ≤ c && c ≤ '7') p).or
      ((s.radixStop? (fun c => c = 'b' || c = 'B') (fun c => c = '0' || c = '1') p).or
        (s.decimalStop? p)))

/-! ## Regular expressions -/

/-- The end of a class of characters from inside its brackets. -/
def classStop? (s : Source) : Nat → Nat → Option Nat
  | 0, _ => none
  | fuel + 1, p =>
    if s.isVoid p || s.has p '\n' then none
    else if s.has p ']' then some (p + 1)
    else if s.has p '\\' then
      if s.isVoid (p + 1) || s.has (p + 1) '\n' then none else classStop? s fuel (p + 2)
    else classStop? s fuel (p + 1)

/-- The end of the inside of a regular expression from `p`, which may be empty. -/
def patternStop (s : Source) : Nat → Nat → Nat
  | 0, p => p
  | fuel + 1, p =>
    if s.isVoid p || s.has p '\n' || s.has p '/' then p
    else if s.has p '[' then
      match s.classStop? s.size (p + 1) with
      | some q => patternStop s fuel q
      | none => p
    else if s.has p '\\' then
      if s.isVoid (p + 1) || s.has (p + 1) '\n' then p else patternStop s fuel (p + 2)
    else patternStop s fuel (p + 1)

/-- The end of the small letters from `p`. -/
def flagsStop (s : Source) (p : Nat) : Nat := s.skipWhile (fun c => 'a' ≤ c && c ≤ 'z') p

end Source

end ImportAtlas.Script
