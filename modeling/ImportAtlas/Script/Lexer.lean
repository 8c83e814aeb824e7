/-
# ImportAtlas.Script.Lexer -- reading the next token

The next token is looked for among those the grammar expects. Of several that fit, the longest wins. A
word is a keyword only if that keyword is expected, and a name otherwise; that it could have been a
name is remembered.
-/
import ImportAtlas.Script.Automaton
import ImportAtlas.Script.LineEnd

namespace ImportAtlas.Script

/-- A token as it was read: its number, where it starts and stops, and whether it is a keyword. -/
structure Lexeme where
  token : Nat
  start : Nat
  stop : Nat
  keyword : Bool
  deriving DecidableEq, Repr, Inhabited

/-- The tokens of an automaton by what they look like. A class that the grammar does not have gets a
number that no set contains. -/
structure Vocabulary where
  text : Nat
  number : Nat
  privateName : Nat
  lineEnd : Nat
  signatureEnd : Nat
  question : Nat
  templateText : Nat
  substitution : Nat
  escape : Nat
  patternBody : Nat
  patternEnd : Nat
  patternFlags : Nat
  markupText : Nat
  markupName : Nat
  interpreterLine : Nat
  alternative : Nat
  words : Std.HashMap String Nat
  /-- Signs by the code of their first character, longer ones first. -/
  signs : Std.HashMap Nat (List (List Char × Nat))
  deriving Inhabited

namespace Vocabulary

/-- The numbers of the tokens that every grammar has. -/
def finish : Nat := 0

@[inherit_doc finish]
def comment : Nat := 1

@[inherit_doc finish]
def name : Nat := 2

/-- Puts a sign behind those that are longer. -/
def insertSign (x : List Char × Nat) : List (List Char × Nat) → List (List Char × Nat)
  | [] => [x]
  | y :: ys => if y.1.length < x.1.length then x :: y :: ys else y :: insertSign x ys

/-- The tokens of an automaton. -/
def ofAutomaton (a : Automaton) : Vocabulary :=
  let tokens := (List.range a.tokenCount).filterMap fun n => (a.token? n).map (·, n)
  let find (t : Token) : Nat := (tokens.lookup t).getD a.tokenCount
  let words := tokens.foldl (fun (m : Std.HashMap String Nat) (t, n) =>
    match t with
    | .word w => m.insert w n
    | _ => m) ∅
  let signs := tokens.foldl (fun (m : Std.HashMap Nat (List (List Char × Nat))) (t, n) =>
    match t with
    | .sign s =>
      match s.toList with
      | c :: cs => m.insert c.toNat (insertSign (c :: cs, n) (m.getD c.toNat []))
      | [] => m
    | _ => m) ∅
  { text := find .text
    number := find .number
    privateName := find .privateName
    lineEnd := find .lineEnd
    signatureEnd := find .signatureEnd
    question := find .question
    templateText := find .templateText
    substitution := find (.ofText "$\x7b")
    escape := find .escape
    patternBody := find .patternBody
    patternEnd := find .patternEnd
    patternFlags := find .patternFlags
    markupText := find .markupText
    markupName := find .markupName
    interpreterLine := find .interpreterLine
    alternative := find (.ofText "||")
    words
    signs }

/-! ## Tokens that depend on more than their own characters -/

/-- The plain characters of a template. -/
def templateLexeme? (v : Vocabulary) (s : Source) (p : Nat) : Option Lexeme :=
  match s.templateTextStop? (s.size + 1 - p) p with
  | some q => if p < q then some ⟨v.templateText, p, q, false⟩ else none
  | none => none

/-- The question mark of a conditional expression. -/
def questionLexeme? (v : Vocabulary) (s : Source) (p : Nat) : Option Lexeme :=
  (s.question? p).map fun q => ⟨v.question, q, q + 1, false⟩

/-- Tokens that are looked for before all others: the inside of a template, a place where a semicolon
is left out, and the question mark of a conditional expression. -/
def early? (v : Vocabulary) (expected : TokenSet) (s : Source) (p : Nat) : Option Lexeme :=
  if expected.has v.templateText then
    if expected.has v.lineEnd then none else v.templateLexeme? s p
  else if expected.has v.lineEnd || expected.has v.signatureEnd then
    let context : EndContext := ⟨expected.has v.alternative, expected.has v.signatureEnd⟩
    let search := s.statementEnd context p
    if search.ends then some ⟨v.lineEnd, p, p, false⟩
    else if expected.has v.question && !search.comment && s.has search.stop '?' then
      v.questionLexeme? s search.stop
    else none
  else if expected.has v.question then v.questionLexeme? s p
  else none

/-- Tokens that start exactly at `p`, without a gap before them: parts of regular expressions and
templates, and text between tags. -/
def immediate? (v : Vocabulary) (expected : TokenSet) (s : Source) (p : Nat) : Option Lexeme :=
  if expected.has v.patternEnd && s.has p '/' then some ⟨v.patternEnd, p, p + 1, false⟩
  else if expected.has v.patternFlags && p < s.flagsStop p &&
      (s.nameStop? p).getD p ≤ s.flagsStop p then
    some ⟨v.patternFlags, p, s.flagsStop p, false⟩
  else if expected.has v.escape && s.has p '\\' then
    (s.escapeStop? p).map fun q => ⟨v.escape, p, q, false⟩
  else none

/-! ## Words and signs -/

/-- The word at `q`: a keyword if it is expected, a name with a hyphen if that is expected and longer,
a name otherwise. -/
def word? (v : Vocabulary) (expected : TokenSet) (s : Source) (q : Nat) : Option Lexeme :=
  match s.nameStop? q with
  | none => none
  | some r =>
    match (if expected.has v.markupName then s.markupNameStop? q else none) with
    | some m => if r < m then some ⟨v.markupName, q, m, false⟩ else plain r
    | none => plain r
where
  /-- The word up to `r`. -/
  plain (r : Nat) : Option Lexeme :=
    match v.words.get? (String.ofList (s.slice q r)) with
    | some n => if expected.has n then some ⟨n, q, r, true⟩ else some ⟨name, q, r, false⟩
    | none => some ⟨name, q, r, false⟩

/-- The longest expected sign at `q`. -/
def sign? (v : Vocabulary) (expected : TokenSet) (s : Source) (q : Nat) : Option Lexeme :=
  match s.get? q with
  | none => none
  | some c =>
    ((v.signs.getD c.toNat []).find? fun x => expected.has x.2 && s.hasAll q x.1).map fun x =>
      ⟨x.2, q, q + x.1.length, false⟩

/-- The literal at `q`. -/
def literal? (v : Vocabulary) (expected : TokenSet) (s : Source) (q : Nat) : Option Lexeme :=
  match s.get? q with
  | none => none
  | some c =>
    if c = '"' || c = '\'' then
      if expected.has v.text then (s.textStop? q).map fun r => ⟨v.text, q, r, false⟩ else none
    else if c = '#' then
      if expected.has v.interpreterLine && s.has (q + 1) '!' then
        some ⟨v.interpreterLine, q, s.lineStop q, false⟩
      else if expected.has v.privateName then
        (s.privateNameStop? q).map fun r => ⟨v.privateName, q, r, false⟩
      else none
    else if expected.has v.number then
      (s.numberStop? q).map fun r => ⟨v.number, q, r, false⟩
    else none

/-- The longer of two tokens, the first if they are of one length. -/
def longer : Option Lexeme → Option Lexeme → Option Lexeme
  | none, b => b
  | a, none => a
  | some a, some b => if a.stop < b.stop then some b else some a

/-- The token at `q`, where no gap and no comment starts. -/
def plain? (v : Vocabulary) (expected : TokenSet) (s : Source) (q : Nat) : Option Lexeme :=
  if s.get? q = none then some ⟨finish, q, q, false⟩
  else if expected.has v.substitution && s.hasAll q ['$', '\x7b'] then
    some ⟨v.substitution, q, q + 2, false⟩
  else
    match v.word? expected s q with
    | some l => some l
    | none => longer (v.literal? expected s q) (v.sign? expected s q)

/-- The next token from `p` on; none if nothing that is expected stands there. -/
def next? (v : Vocabulary) (expected : TokenSet) (s : Source) (p : Nat) : Option Lexeme :=
  match v.early? expected s p with
  | some l => some l
  | none =>
    let q := s.skipWhile isGap p
    let remark : Option Lexeme := (s.commentStop? q).map fun r => ⟨comment, q, r, false⟩
    if expected.has v.patternBody then
      match remark with
      | some l => some l
      | none =>
        let r := s.patternStop s.size p
        if p < r then some ⟨v.patternBody, p, r, false⟩ else none
    else
      match v.immediate? expected s p with
      | some l => some l
      | none =>
        let r := if expected.has v.markupText then s.markupTextStop p else p
        let inner : Option Lexeme := if p < r then some ⟨v.markupText, p, r, false⟩ else none
        match longer inner remark with
        | some l => some l
        | none => v.plain? expected s q

end Vocabulary

end ImportAtlas.Script
