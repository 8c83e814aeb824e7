/-
# ImportAtlas.Script.States -- where reading stands

A state is a set of items, each with the tokens that may follow its production. States are found as
reading needs them and kept, so that each is worked out once. For a state and a token, `choices` says
what can be done: end some productions here, or read the token, or both.

Competing choices are thinned out by the marks of the grammar. Among productions that can end, those
of a lower level give way. Between ending and reading on, the higher level wins; at one level the side
decides; and where nothing decides, both stay.
-/
import ImportAtlas.Script.Automaton

namespace ImportAtlas.Script

/-! ## Comparing levels -/

/-- What a reading can be compared by: the level of its last step, and the phrases it is about. -/
structure Strength where
  level : Level
  heads : List (Option Phrase)
  deriving DecidableEq, Inhabited

namespace Strength

/-- Whether a reading stands on a rung. -/
def standsOn (s : Strength) : Rung → Bool
  | .rank r => s.level = .rank r
  | .phrase p => s.heads.contains (some p)

/-- Compares by one ladder, from its top. The flags say which of the two has been met. -/
def compareOn (s t : Strength) : Bool → Bool → List Rung → Option Ordering
  | _, _, [] => none
  | sawLeft, sawRight, r :: ladder =>
    if s.standsOn r then
      if sawRight then some .lt else compareOn s t true sawRight ladder
    else if t.standsOn r then
      if sawLeft then some .gt else compareOn s t sawLeft true ladder
    else compareOn s t sawLeft sawRight ladder

/-- Compares two readings by the first ladder both stand on. -/
def compareBy (ladders : List (List Rung)) (s t : Strength) : Ordering :=
  (ladders.findSome? (s.compareOn t false false)).getD .eq

/-- Compares two readings. Numbers that are not both zero are compared as numbers, a level that is not
said counting as zero. -/
def compare (ladders : List (List Rung)) (s t : Strength) : Ordering :=
  let named := compareBy ladders s t
  match s.level, t.level with
  | .number m, .number n => if m ≠ 0 || n ≠ 0 then Ord.compare m n else named
  | .number m, .unsaid => if m ≠ 0 then Ord.compare m 0 else named
  | .unsaid, .number n => if n ≠ 0 then Ord.compare 0 n else named
  | _, _ => named

end Strength

/-! ## What can be done -/

/-- Ending a production: what it is about, how many steps it took, its weight, and the role of each
step. -/
structure Reduction where
  head : Nat
  count : Nat
  weight : Int
  roles : List (Option Role)
  deriving DecidableEq, Inhabited

/-- What can be done in a state at a token. -/
structure Choices where
  reductions : List Reduction
  shifts : Bool
  deriving DecidableEq, Inhabited

/-- The productions that can end, as far as they have been gone through. -/
structure Endings where
  reductions : List Reduction
  strength : Strength
  sides : List (Option Side)

namespace Endings

/-- No production ends. -/
def none : Endings := ⟨[], ⟨.unsaid, []⟩, []⟩

/-- Adds a production that can end, unless it gives way; those that give way to it are dropped. -/
def add (ladders : List (List Rung)) (e : Endings) (head : Option Phrase) (item : Item) :
    Endings :=
  let r : Reduction := ⟨item.head, item.taken, item.weight, item.roles⟩
  let alone : Endings := ⟨[r], ⟨item.level, [head]⟩, [item.side]⟩
  if e.reductions.isEmpty then alone
  else
    match Strength.compare ladders ⟨item.level, [head]⟩ e.strength with
    | .gt => alone
    | .lt => e
    | .eq =>
      { reductions := if e.reductions.contains r then e.reductions else e.reductions ++ [r]
        strength :=
          ⟨item.level,
            if e.strength.heads.contains head then e.strength.heads
            else e.strength.heads ++ [head]⟩
        sides := item.side :: e.sides }

/-- Settles between ending and reading on, given what those that read on are compared by. -/
def settle (ladders : List (List Rung)) (e : Endings) (onward : List Strength) : Choices :=
  let against := onward.map fun s => Strength.compare ladders s e.strength
  let more := against.contains .gt
  let less := against.contains .lt
  let both : Choices := ⟨e.reductions, true⟩
  if more && !less then ⟨[], true⟩
  else if less && !more then ⟨e.reductions, false⟩
  else if !more && !less then
    if e.sides.all (· == some .left) then ⟨e.reductions, false⟩
    else if e.sides.all (· == some .right) then ⟨[], true⟩
    else both
  else both

end Endings

/-! ## States -/

/-- The items of a state, in order, each with the tokens that may follow its production. -/
abbrev Kernel := List (Nat × TokenSet)

/-- The states found so far and what has been worked out about them. -/
structure States where
  kernels : Array Kernel
  numbers : Std.HashMap Kernel Nat
  /-- The tokens that can come next in each state. -/
  expected : Array TokenSet
  /-- For each state, the tokens that may follow each symbol that can begin there. -/
  followers : Std.HashMap Nat (Std.HashMap Nat TokenSet)
  successors : Std.HashMap (Nat × Nat) (Option Nat)
  choices : Std.HashMap (Nat × Nat) Choices
  deriving Inhabited

namespace States

/-- The tokens that can come next when the items of a kernel are all there is. -/
def expectedBy (a : Automaton) (k : Kernel) : TokenSet :=
  k.foldl (fun acc (n, follow) =>
    match (a.item n).next with
    | some x => acc.union (a.firstOf x)
    | none => acc.union follow) 0

/-- The number of the state with a kernel, which is added if it is new. -/
def number (a : Automaton) (s : States) (k : Kernel) : Nat × States :=
  match s.numbers.get? k with
  | some n => (n, s)
  | none =>
    let n := s.kernels.size
    (n, { s with
      kernels := s.kernels.push k
      numbers := s.numbers.insert k n
      expected := s.expected.push (expectedBy a k) })

/-- The states before anything is read: only the one in which reading starts, with number zero. -/
def initial (a : Automaton) : States :=
  (number a ⟨#[], ∅, #[], ∅, ∅, ∅⟩ [(0, TokenSet.single 0)]).2

/-- The items of a state. -/
def kernel (s : States) (state : Nat) : Kernel := s.kernels.getD state []

/-- The tokens that can come next in a state. -/
def expectedIn (s : States) (state : Nat) : TokenSet := s.expected.getD state 0

/-- Adds tokens to those of a number. -/
def addTokens (m : Std.HashMap Nat TokenSet) (n : Nat) (tokens : TokenSet) :
    Std.HashMap Nat TokenSet :=
  m.insert n ((m.getD n 0).union tokens)

/-- The tokens that may follow each symbol that can begin where the items of a kernel stand. -/
def followersOf (a : Automaton) (k : Kernel) : Std.HashMap Nat TokenSet :=
  k.foldl (fun m (n, follow) =>
    let item := a.item n
    match item.next with
    | none => m
    | some x =>
      let behind := match item.following with
        | some y => a.firstOf y
        | none => follow
      (a.reached.getD x #[]).foldl (fun m r =>
        addTokens m r.symbol (if r.through then r.tokens.union behind else r.tokens)) m) ∅

/-- The followers in a state, worked out once. -/
def followersIn (a : Automaton) (s : States) (state : Nat) :
    Std.HashMap Nat TokenSet × States :=
  match s.followers.get? state with
  | some m => (m, s)
  | none =>
    let m := followersOf a (s.kernel state)
    (m, { s with followers := s.followers.insert state m })

/-- The kernel behind a symbol: the items of the state that take it, and those of the productions that
can begin with it. -/
def kernelBehind (a : Automaton) (k : Kernel) (followers : Std.HashMap Nat TokenSet)
    (symbol : Nat) : Kernel :=
  let taken := k.foldl (fun m (n, follow) =>
    let item := a.item n
    if item.next = some symbol then addTokens m item.advance follow else m) ∅
  let all := (a.starts.getD symbol #[]).foldl (fun m (head, n) =>
    match followers.get? head with
    | some follow => addTokens m n follow
    | none => m) taken
  all.toList.mergeSort fun x y => x.1 ≤ y.1

/-- The state behind a symbol, worked out once; none if the symbol cannot stand there. -/
def next (a : Automaton) (s : States) (state symbol : Nat) : Option Nat × States :=
  match s.successors.get? (state, symbol) with
  | some r => (r, s)
  | none =>
    let (followers, s) := s.followersIn a state
    let k := kernelBehind a (s.kernel state) followers symbol
    if k.isEmpty then
      (none, { s with successors := s.successors.insert (state, symbol) none })
    else
      let (n, s) := s.number a k
      (some n, { s with successors := s.successors.insert (state, symbol) (some n) })

/-- What can be done with the items of a kernel at a token. -/
def choicesOf (a : Automaton) (k : Kernel) (token : Nat) : Choices :=
  let endings := k.foldl (fun (e : Endings) (n, follow) =>
    let item := a.item n
    if item.next.isNone && follow.has token then e.add a.ladders (a.phrase? item.head) item
    else e) .none
  let onward := (k.map fun x => a.item x.1).filter fun item =>
    match item.next with
    | some x => (a.firstOf x).has token
    | none => false
  if onward.isEmpty then ⟨endings.reductions, false⟩
  else if endings.reductions.isEmpty then ⟨[], true⟩
  else
    let begun := onward.filter fun item => item.taken ≠ 0
    endings.settle a.ladders (begun.map fun item => ⟨item.level, [a.phrase? item.head]⟩)

/-- What can be done in a state at a token, worked out once. -/
def choicesIn (a : Automaton) (s : States) (state token : Nat) : Choices × States :=
  match s.choices.get? (state, token) with
  | some c => (c, s)
  | none =>
    let c := choicesOf a (s.kernel state) token
    (c, { s with choices := s.choices.insert (state, token) c })

end States

end ImportAtlas.Script
