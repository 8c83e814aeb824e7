/-
# ImportAtlas.Script.Automaton -- from productions to items

An item is a production read up to some step. What is left of the production is all that matters for
going on, so items that agree in that, in the phrase they are about and in the marks of the last step
are one. Beside the items the automaton holds what is computed from the productions once:

* `first`: the tokens a symbol can begin with;
* `starts`: the items that follow when a symbol begins a production;
* `reached`: the symbols that can stand at the very beginning of another, and the tokens that can
  follow them there.
-/
import ImportAtlas.Script.Production
import Std.Data.HashMap

namespace ImportAtlas.Script

/-- A set of tokens, as the number whose binary digits are its members. -/
abbrev TokenSet := Nat

namespace TokenSet

/-- The set of one token. -/
def single (t : Nat) : TokenSet := 1 <<< t

/-- Whether a token is in a set. -/
def has (s : TokenSet) (t : Nat) : Bool := Nat.testBit s t

/-- The tokens in either of two sets. -/
def union (s t : TokenSet) : TokenSet := s ||| t

end TokenSet

/-- A production with its symbols replaced by numbers. -/
structure NumberedProduction where
  head : Nat
  weight : Int
  steps : List (Step Nat)
  deriving Inhabited

/-- What tells items apart. -/
structure ItemKey where
  head : Nat
  weight : Int
  /-- The roles of the steps taken. -/
  roles : List (Option Role)
  /-- The level of the last step taken. -/
  level : Level
  /-- The side of the last step taken. -/
  side : Option Side
  rest : List (Step Nat)
  deriving DecidableEq, Inhabited, Hashable

namespace ItemKey

/-- A production of which nothing is read yet. -/
def ofProduction (p : NumberedProduction) : ItemKey :=
  ⟨p.head, p.weight, [], .unsaid, none, p.steps⟩

/-- The item one step further on. -/
def advance? (k : ItemKey) : Option ItemKey :=
  match k.rest with
  | [] => none
  | s :: rest =>
    some { k with roles := k.roles ++ [s.role], level := s.level, side := s.side, rest := rest }

end ItemKey

/-- An item: a production read up to some step. -/
structure Item where
  head : Nat
  /-- The number of steps taken. -/
  taken : Nat
  weight : Int
  roles : List (Option Role)
  level : Level
  side : Option Side
  /-- The symbol of the next step; none at the end of the production. -/
  next : Option Nat
  /-- The symbol behind the next step. -/
  following : Option Nat
  /-- The item behind the next step. -/
  advance : Nat
  deriving Inhabited

/-- A symbol that can begin another: the tokens that can follow it there, and whether what follows the
other can follow it too. -/
structure Reached where
  symbol : Nat
  tokens : TokenSet
  through : Bool
  deriving Inhabited

/-- A grammar made ready for reading. -/
structure Automaton where
  /-- The symbols by number, tokens first. -/
  symbols : Array Symbol
  tokenCount : Nat
  first : Array TokenSet
  items : Array Item
  /-- For each symbol, the phrases it can begin with the item behind it. -/
  starts : Array (Array (Nat × Nat))
  reached : Array (Array Reached)
  ladders : List (List Rung)
  deriving Inhabited

/-! ## Numbers for symbols -/

/-- The tokens that have a number in every grammar. -/
def fixedTokens : List Token := [.finish, .comment, .name]

/-- Adds a symbol that is not listed yet. -/
def addSymbol (known : Array Symbol × Std.HashMap Symbol Nat) (s : Symbol) :
    Array Symbol × Std.HashMap Symbol Nat :=
  if known.2.contains s then known else (known.1.push s, known.2.insert s known.1.size)

/-- The tokens that occur in productions, those with a fixed number first. -/
def tokenSymbols (ps : List Production) : List Symbol :=
  fixedTokens.map .token ++
    ps.flatMap fun p => (p.body.steps.map (·.symbol)).filter fun
      | .token _ => true
      | _ => false

/-- The place of a symbol among those that productions are about. -/
def headOrder : Symbol → Nat
  | .token _ => 0
  | .phrase p => p.index
  | .run n => 1000 + n

/-- The symbols that productions are about, in the order in which they are tried. -/
def headSymbols (ps : List Production) : List Symbol :=
  (ps.map (·.head)).mergeSort fun a b => headOrder a ≤ headOrder b

/-- Whether a production comes before another: by phrase, then by weight, then by length. -/
def NumberedProduction.before (p q : NumberedProduction) : Bool :=
  if p.head ≠ q.head then p.head < q.head
  else if p.weight ≠ q.weight then p.weight < q.weight
  else p.steps.length ≤ q.steps.length

/-! ## Tokens at the beginning -/

/-- One pass over the productions: what the first step begins with, the head begins with. -/
def firstPass (ps : List NumberedProduction) (first : Array TokenSet) : Array TokenSet × Bool :=
  ps.foldl (fun (first, changed) p =>
    match p.steps with
    | [] => (first, changed)
    | s :: _ =>
      let old := first.getD p.head 0
      let new := old.union (first.getD s.symbol 0)
      if new = old then (first, changed) else (first.setIfInBounds p.head new, true)) (first, false)

/-- Passes until nothing changes. A pass without the last word adds a token to a symbol at least, and
the chain from a token to a symbol is no longer than the number of symbols. -/
def firstPasses (ps : List NumberedProduction) : Nat → Array TokenSet → Array TokenSet
  | 0, first => first
  | rounds + 1, first =>
    let (first, changed) := firstPass ps first
    if changed then firstPasses ps rounds first else first

/-! ## Symbols at the beginning -/

/-- Adds to a list of reached symbols. -/
def addReached (r : Reached) : List Reached → List Reached
  | [] => [r]
  | x :: xs =>
    if x.symbol = r.symbol then
      { x with tokens := x.tokens.union r.tokens, through := x.through || r.through } :: xs
    else x :: addReached r xs

/-- The symbols that directly begin each symbol. -/
def directlyReached (tokenCount symbolCount : Nat) (first : Array TokenSet)
    (ps : List NumberedProduction) : Array (List Reached) :=
  ps.foldl (fun (direct : Array (List Reached)) p =>
    match p.steps with
    | s :: rest =>
      if s.symbol < tokenCount then direct
      else
        let r : Reached :=
          match rest with
          | [] => ⟨s.symbol, 0, true⟩
          | t :: _ => ⟨s.symbol, first.getD t.symbol 0, false⟩
        direct.modify p.head (addReached r)
    | [] => direct) (Array.replicate symbolCount [])

/-- Follows the symbols at the beginning as long as something new comes up. Every step of the work
list but the first was put there by a change, and a symbol can change once for every token, once to
be found and once more to let through what follows. -/
def reachFrom (direct : Array (List Reached)) :
    Nat → List Nat → Std.HashMap Nat (TokenSet × Bool) → Std.HashMap Nat (TokenSet × Bool)
  | 0, _, known => known
  | _ + 1, [], known => known
  | fuel + 1, x :: work, known =>
    let (tokens, through) := known.getD x (0, false)
    let (work, known) := (direct.getD x []).foldl (fun (work, known) r =>
      let new : TokenSet × Bool :=
        (if r.through then r.tokens.union tokens else r.tokens, r.through && through)
      match known.get? r.symbol with
      | none => (r.symbol :: work, known.insert r.symbol new)
      | some old =>
        let joined := (old.1.union new.1, old.2 || new.2)
        if joined = old then (work, known)
        else (r.symbol :: work, known.insert r.symbol joined)) (work, known)
    reachFrom direct fuel work known

/-! ## Items -/

/-- Items found so far, in order, with the number of each. -/
structure ItemTable where
  keys : Array ItemKey
  numbers : Std.HashMap ItemKey Nat

namespace ItemTable

/-- Adds an item, and says whether it is new. -/
def add (t : ItemTable) (k : ItemKey) : ItemTable × Bool :=
  if t.numbers.contains k then (t, false)
  else (⟨t.keys.push k, t.numbers.insert k t.keys.size⟩, true)

/-- Adds the items one step behind the given ones, then those behind them, and so on. No production is
longer than the number of rounds. -/
def addLayers : Nat → List ItemKey → ItemTable → ItemTable
  | 0, _, t => t
  | rounds + 1, layer, t =>
    let (t, fresh) := layer.foldl (fun (t, fresh) k =>
      match k.advance? with
      | none => (t, fresh)
      | some k =>
        let (t, isNew) := ItemTable.add t k
        (t, if isNew then k :: fresh else fresh)) (t, [])
    if fresh.isEmpty then t else addLayers rounds fresh.reverse t

/-- The number of an item. -/
def number (t : ItemTable) (k : ItemKey) : Nat := t.numbers.getD k 0

/-- The item of a key. -/
def item (t : ItemTable) (k : ItemKey) : Item where
  head := k.head
  taken := k.roles.length
  weight := k.weight
  roles := k.roles
  level := k.level
  side := k.side
  next := k.rest.head?.map (·.symbol)
  following := k.rest.tail.head?.map (·.symbol)
  advance := (k.advance?.map t.number).getD 0

end ItemTable

/-- For each symbol, the items behind it at the beginning of a production. -/
def startsOf (symbolCount : Nat) (t : ItemTable) (ps : List NumberedProduction) :
    Array (Array (Nat × Nat)) :=
  ps.foldl (fun (starts : Array (Array (Nat × Nat))) p =>
    match p.steps, (ItemKey.ofProduction p).advance? with
    | s :: _, some k =>
      starts.modify s.symbol fun known =>
        let entry := (p.head, t.number k)
        if known.contains entry then known else known.push entry
    | _, _ => starts) (Array.replicate symbolCount #[])

namespace Automaton

/-- The number of the goal, which stands for a whole text and is no symbol of the grammar. -/
def goal (a : Automaton) : Nat := a.symbols.size

/-- Makes a grammar ready for reading. -/
def ofGrammar (g : Grammar) : Automaton :=
  let ps := g.productions
  let (tokens, numbers) := (tokenSymbols ps).foldl addSymbol (#[], ∅)
  let (symbols, numbers) := (headSymbols ps).foldl addSymbol (tokens, numbers)
  let numbered (p : Production) : NumberedProduction :=
    { head := numbers.getD p.head 0
      weight := p.body.weight
      steps := p.body.steps.map fun s => { s with symbol := numbers.getD s.symbol 0 } }
  let whole : NumberedProduction :=
    ⟨symbols.size, 0, [⟨numbers.getD (.phrase g.start) 0, .unsaid, none, none⟩]⟩
  let ps := whole :: (ps.map numbered).mergeSort NumberedProduction.before
  let count := symbols.size + 1
  let single : Array TokenSet :=
    (List.range count).toArray.map fun t => if t < tokens.size then TokenSet.single t else 0
  let first := firstPasses ps count single
  let direct := directlyReached tokens.size count first ps
  let reachedBy (x : Nat) : Array Reached :=
    let fuel := count * (tokens.size + 3)
    ((reachFrom direct fuel [x] (Std.HashMap.ofList [(x, (0, true))])).toList.map fun (y, r) =>
      ⟨y, r.1, r.2⟩).toArray
  let begin := ItemKey.ofProduction whole
  let longest := ps.foldl (fun n p => max n p.steps.length) 0
  let layer := ps.map ItemKey.ofProduction
  let table := ItemTable.addLayers longest layer ⟨#[begin], Std.HashMap.ofList [(begin, 0)]⟩
  { symbols
    tokenCount := tokens.size
    first
    items := table.keys.map table.item
    starts := startsOf count table ps
    reached := (List.range count).toArray.map fun x =>
      if x < tokens.size then #[] else reachedBy x
    ladders := g.ladders }

/-- The item with a number. -/
def item (a : Automaton) (n : Nat) : Item := a.items.getD n default

/-- The tokens that a symbol can begin with. -/
def firstOf (a : Automaton) (symbol : Nat) : TokenSet := a.first.getD symbol 0

/-- The phrase with a number; none for other symbols and the goal. -/
def phrase? (a : Automaton) (n : Nat) : Option Phrase :=
  match a.symbols[n]? with
  | some (.phrase p) => some p
  | _ => none

/-- The token with a number. -/
def token? (a : Automaton) (n : Nat) : Option Token :=
  match a.symbols[n]? with
  | some (.token t) => some t
  | _ => none

end Automaton

end ImportAtlas.Script
