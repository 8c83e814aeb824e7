/-
# ImportAtlas.Json.Parse -- reading a text

A text that is no JSON is refused at an offset, which is where the first thing stands that cannot go
on: a missing value, name, colon or comma, a control character, the beginning of an escape, the quote
of a text without an end, or what follows a complete value. A failing reader hands back what is left of
the text from there, and the offset is read off its length.

Of two fields with the same name the last one counts. `NaN` and the two infinities are taken for
numbers.
-/
import ImportAtlas.Json.Value

namespace ImportAtlas.Json

/-- What a reader gives: a result and what follows it, or the rest of the text from where it fails. -/
abbrev Read (α : Type) := Except (List Char) (α × List Char)

/-- Whether a character may stand between two parts of a value. -/
def isFiller (c : Char) : Bool := c = ' ' || c = '\t' || c = '\n' || c = '\r'

/-- What follows the filler. -/
def skipFiller (cs : List Char) : List Char := cs.dropWhile isFiller

/-! ## Texts -/

/-- The value of a digit of base sixteen. -/
def hexValue? (c : Char) : Option Nat :=
  if '0' ≤ c && c ≤ '9' then some (c.toNat - '0'.toNat)
  else if 'a' ≤ c && c ≤ 'f' then some (c.toNat - 'a'.toNat + 10)
  else if 'A' ≤ c && c ≤ 'F' then some (c.toNat - 'A'.toNat + 10)
  else none

/-- The UTF-16 unit that four digits stand for. -/
def unit? (a b c d : Char) : Option Nat := do
  return (((← hexValue? a) * 16 + (← hexValue? b)) * 16 + (← hexValue? c)) * 16 + (← hexValue? d)

/-- What a letter behind a backslash stands for. -/
def shortEscape? : Char → Option Char
  | '"' => some '"'
  | '\\' => some '\\'
  | '/' => some '/'
  | 'b' => some '\x08'
  | 'f' => some '\x0c'
  | 'n' => some '\n'
  | 'r' => some '\r'
  | 't' => some '\t'
  | _ => none

/-- Whether a unit opens a pair. -/
def isHighUnit (n : Nat) : Bool := 0xD800 ≤ n && n < 0xDC00

/-- Whether a unit closes a pair. -/
def isLowUnit (n : Nat) : Bool := 0xDC00 ≤ n && n < 0xE000

/-- The character of a unit; one half of a pair on its own has none. -/
def unitChar (n : Nat) : Char :=
  if isHighUnit n || isLowUnit n then '\ufffd' else Char.ofNat n

/-- The character of a pair of units. -/
def pairChar (high low : Nat) : Char := Char.ofNat (0x10000 + (high - 0xD800) * 0x400 + (low - 0xDC00))

/-- Reads a text from behind its opening quote; `whole` starts at that quote. An escape of four digits
is never the last thing in the text. -/
def readString (whole : List Char) : List Char → Read (List Char)
  | [] => .error whole
  | '"' :: rest => .ok ([], rest)
  | ['\\'] => .error whole
  | '\\' :: 'u' :: a :: b :: c :: d :: e :: rest =>
    match unit? a b c d with
    | none => .error ('u' :: a :: b :: c :: d :: e :: rest)
    | some n =>
      let alone := (readString whole (e :: rest)).map fun r => (unitChar n :: r.1, r.2)
      if isHighUnit n then
        match e, rest with
        | '\\', 'u' :: a' :: b' :: c' :: d' :: e' :: rest' =>
          match unit? a' b' c' d' with
          | none => .error ('u' :: a' :: b' :: c' :: d' :: e' :: rest')
          | some m =>
            if isLowUnit m then
              (readString whole (e' :: rest')).map fun r => (pairChar n m :: r.1, r.2)
            else alone
        | _, _ => alone
      else alone
  | '\\' :: 'u' :: rest => .error ('u' :: rest)
  | '\\' :: c :: rest =>
    match shortEscape? c with
    | none => .error ('\\' :: c :: rest)
    | some x => (readString whole rest).map fun r => (x :: r.1, r.2)
  | c :: rest =>
    if c.toNat < 0x20 then .error (c :: rest)
    else (readString whole rest).map fun r => (c :: r.1, r.2)
termination_by cs => cs.length
decreasing_by all_goals simp_wf; try omega

/-! ## Numbers and words -/

/-- Digits from the front, at least one. -/
def digits1? (cs : List Char) : Option (List Char × List Char) :=
  match cs.takeWhile Char.isDigit with
  | [] => none
  | ds => some (ds, cs.dropWhile Char.isDigit)

/-- The number that decimal digits stand for. -/
def digitsValue (ds : List Char) : Nat := ds.foldl (fun n d => n * 10 + (d.toNat - '0'.toNat)) 0

/-- A zero alone, or digits that start with no zero. -/
def wholePart? : List Char → Option (List Char × List Char)
  | '0' :: rest => some (['0'], rest)
  | cs => digits1? cs

/-- The fraction behind the whole part, if there is one. -/
def fractionPart : List Char → List Char × List Char
  | '.' :: rest =>
    match digits1? rest with
    | some (ds, rest) => ('.' :: ds, rest)
    | none => ([], '.' :: rest)
  | cs => ([], cs)

/-- The exponent at the end of a number, if there is one. -/
def exponentPart : List Char → List Char × List Char
  | [] => ([], [])
  | e :: rest =>
    if e = 'e' || e = 'E' then
      let (mark, more) : List Char × List Char :=
        match rest with
        | s :: more => if s = '+' || s = '-' then ([s], more) else ([], rest)
        | [] => ([], [])
      match digits1? more with
      | some (ds, left) => (e :: mark ++ ds, left)
      | none => ([], e :: rest)
    else ([], e :: rest)

/-- A number at the front of a text. -/
def number? (cs : List Char) : Option (Value × List Char) :=
  let (negative, body) : Bool × List Char :=
    match cs with
    | '-' :: rest => (true, rest)
    | _ => (false, cs)
  match wholePart? body with
  | none => none
  | some (ds, rest) =>
    let (fraction, rest) := fractionPart rest
    let (exponent, rest) := exponentPart rest
    if fraction = [] ∧ exponent = [] then
      let n : Int := digitsValue ds
      some (.number (if negative then -n else n), rest)
    else some (.decimal ((if negative then ['-'] else []) ++ ds ++ fraction ++ exponent), rest)

/-- What follows a word at the front of a text. -/
def behind? (word cs : List Char) : Option (List Char) :=
  if word.isPrefixOf cs then some (cs.drop word.length) else none

/-- The words that stand for values. -/
def words : List (List Char × Value) :=
  [("null".toList, .null), ("true".toList, .bool true), ("false".toList, .bool false),
   ("NaN".toList, .decimal "NaN".toList), ("Infinity".toList, .decimal "Infinity".toList),
   ("-Infinity".toList, .decimal "-Infinity".toList)]

/-- A word or a number at the front of a text. -/
def atom? (cs : List Char) : Option (Value × List Char) :=
  match words.findSome? fun w => (behind? w.1 cs).map fun rest => (w.2, rest) with
  | some found => some found
  | none => number? cs

/-! ## Values -/

mutual

/-- Reads a value from the front of a text. -/
def readValue : Nat → List Char → Read Value
  | 0, cs => .error cs
  | depth + 1, cs =>
    match cs with
    | '"' :: rest => (readString cs rest).map fun r => (.string r.1, r.2)
    | '[' :: rest =>
      match skipFiller rest with
      | ']' :: rest => .ok (.array [], rest)
      | rest => (readItems depth rest).map fun r => (.array r.1, r.2)
    | '\x7b' :: rest =>
      match skipFiller rest with
      | '\x7d' :: rest => .ok (.object [], rest)
      | rest => (readFields depth rest).map fun r => (.object r.1, r.2)
    | _ =>
      match atom? cs with
      | some found => .ok found
      | none => .error cs

/-- Reads the items of an array and its closing bracket. -/
def readItems : Nat → List Char → Read (List Value)
  | 0, cs => .error cs
  | depth + 1, cs =>
    match readValue depth cs with
    | .error rest => .error rest
    | .ok (v, rest) =>
      match skipFiller rest with
      | ']' :: rest => .ok ([v], rest)
      | ',' :: rest => (readItems depth (skipFiller rest)).map fun r => (v :: r.1, r.2)
      | rest => .error rest

/-- Reads the fields of an object and its closing brace. -/
def readFields : Nat → List Char → Read (List (List Char × Value))
  | 0, cs => .error cs
  | depth + 1, cs =>
    match cs with
    | '"' :: rest =>
      match readString cs rest with
      | .error rest => .error rest
      | .ok (name, rest) =>
        match skipFiller rest with
        | ':' :: rest =>
          match readValue depth (skipFiller rest) with
          | .error rest => .error rest
          | .ok (v, rest) =>
            match skipFiller rest with
            | '\x7d' :: rest => .ok ([(name, v)], rest)
            | ',' :: rest =>
              (readFields depth (skipFiller rest)).map fun r => ((name, v) :: r.1, r.2)
            | rest => .error rest
        | rest => .error rest
    | _ => .error cs

end

/-- Reads a whole text; a failure gives its offset. -/
def parse (text : List Char) : Except Nat Value :=
  match readValue (2 * text.length + 2) (skipFiller text) with
  | .error rest => .error (text.length - rest.length)
  | .ok (v, rest) =>
    match skipFiller rest with
    | [] => .ok v
    | rest => .error (text.length - rest.length)

end ImportAtlas.Json
