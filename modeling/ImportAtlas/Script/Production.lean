/-
# ImportAtlas.Script.Production -- rules spelled out

A rule with choices and repetitions stands for many plain bodies, each a list of steps. A repetition
becomes a symbol of its own, which is either what is repeated or itself followed by one more of it;
repetitions of the same thing share their symbol. No body is empty but that of an empty text.

Every step keeps the marks of the innermost rule around it. Where a marked rule ends before its body
does, its last step takes the marks of the rule outside, because that is where the body goes on.
-/
import ImportAtlas.Script.Grammar

namespace ImportAtlas.Script

/-- What a step of a body takes. -/
inductive Symbol where
  | token (t : Token)
  | phrase (p : Phrase)
  /-- One or more of the repeated thing with the given number. -/
  | run (n : Nat)
  deriving DecidableEq, Inhabited, Hashable

/-- One step of a body, over any names for what it takes. -/
structure Step (α : Type) where
  symbol : α
  level : Level
  side : Option Side
  role : Option Role
  deriving DecidableEq, Inhabited, Hashable

/-- A rule without choices: its steps, and its weight in a reading. -/
structure Body where
  steps : List (Step Symbol)
  weight : Int
  deriving DecidableEq, Inhabited

/-- The marks of the rules around a place. -/
structure Scope where
  level : Level
  side : Option Side
  role : Option Role

namespace Scope

/-- No marks. -/
def none : Scope := ⟨.unsaid, Option.none, Option.none⟩

/-- The body of a single symbol. -/
def body (scope : Scope) (symbol : Symbol) : Body :=
  ⟨[⟨symbol, scope.level, scope.side, scope.role⟩], 0⟩

end Scope

namespace Body

/-- The weight that counts of two: the larger one regardless of sign, the first if they are even. -/
def heavier (v w : Int) : Int := if v.natAbs < w.natAbs then w else v

/-- One body after another. -/
def append (a b : Body) : Body := ⟨a.steps ++ b.steps, heavier a.weight b.weight⟩

/-- Changes the last step. -/
def mapLast (f : Step Symbol → Step Symbol) (b : Body) : Body :=
  match b.steps.getLast? with
  | some last => { b with steps := b.steps.dropLast ++ [f last] }
  | Option.none => b

end Body

/-- The things that are repeated, by number: the bodies of each. -/
abbrev Runs := List (List Body)

namespace Runs

/-- The number of a repeated thing, which is added if it is new. -/
def number (runs : Runs) (bodies : List Body) : Nat × Runs :=
  match runs.findIdx? (· == bodies) with
  | some n => (n, runs)
  | none => (runs.length, runs ++ [bodies])

end Runs

mutual

/-- The bodies of a rule. `final` says that the body ends where the rule does. -/
def Rule.bodies (scope : Scope) (final : Bool) : Rule → Runs → List Body × Runs
  | .token t, runs => ([scope.body (.token t)], runs)
  | .phrase p, runs => ([scope.body (.phrase p)], runs)
  | .seq rules, runs => sequenceBodies scope final rules runs
  | .choice rules, runs => choiceBodies scope final rules runs
  | .repeated rule, runs =>
    let (inner, runs) := rule.bodies .none true runs
    let (n, runs) := runs.number inner
    ([scope.body (.run n)], runs)
  | .bind level side rule, runs =>
    let (inner, runs) := rule.bodies { scope with level, side := side <|> scope.side } final runs
    let leave (s : Step Symbol) : Step Symbol :=
      { s with level := scope.level, side := if side.isSome then scope.side else s.side }
    (if final then inner else inner.map (·.mapLast leave), runs)
  | .weigh weight rule, runs =>
    let (inner, runs) := rule.bodies scope final runs
    (inner.map fun b => { b with weight := Body.heavier weight b.weight }, runs)
  | .play role rule, runs => rule.bodies { scope with role } final runs

/-- The bodies of rules one after the other. -/
def sequenceBodies (scope : Scope) (final : Bool) : List Rule → Runs → List Body × Runs
  | [], runs => ([⟨[], 0⟩], runs)
  | rule :: rules, runs =>
    let (first, runs) := rule.bodies scope (final && rules.isEmpty) runs
    let (rest, runs) := sequenceBodies scope final rules runs
    (first.flatMap fun a => rest.map a.append, runs)

/-- The bodies of any of several rules. -/
def choiceBodies (scope : Scope) (final : Bool) : List Rule → Runs → List Body × Runs
  | [], runs => ([], runs)
  | rule :: rules, runs =>
    let (first, runs) := rule.bodies scope final runs
    let (rest, runs) := choiceBodies scope final rules runs
    (first ++ rest, runs)

end

/-- Bodies of phrases that are to be put in the place of the phrase. -/
abbrev Inlining := List (Phrase × List Body)

namespace Inlining

/-- A body put in the place of a step: its steps play the role of that step, and the last one takes
its marks where it has none. -/
def fit (outer : Step Symbol) (inner : Body) : Body :=
  let roles (s : Step Symbol) : Step Symbol :=
    if outer.role.isSome then { s with role := s.role <|> outer.role } else s
  let marks (s : Step Symbol) : Step Symbol :=
    { s with
      level := if s.level = .unsaid then outer.level else s.level
      side := s.side <|> outer.side }
  Body.mapLast marks { inner with steps := inner.steps.map roles }

/-- The bodies that one step stands for. -/
def ofStep (table : Inlining) (s : Step Symbol) : List Body :=
  match s.symbol with
  | .phrase p =>
    match table.lookup p with
    | some bodies => bodies.map (fit s)
    | none => [⟨[s], 0⟩]
  | _ => [⟨[s], 0⟩]

/-- The bodies that one body stands for. -/
def ofBody (table : Inlining) (b : Body) : List Body :=
  let parts := b.steps.foldr (fun s rest =>
    (table.ofStep s).flatMap fun x => rest.map x.append) [⟨[], 0⟩]
  parts.map fun x => { x with weight := Body.heavier b.weight x.weight }

end Inlining

/-- A symbol with one of its bodies. -/
structure Production where
  head : Symbol
  body : Body
  deriving DecidableEq, Inhabited

namespace Grammar

/-- The bodies of all phrases, and of all repeated things. -/
def spellOut (g : Grammar) : List (Phrase × List Body) × Runs :=
  g.rules.foldl (fun (done, runs) (p, rule) =>
    let (bodies, runs) := rule.bodies .none true runs
    (done ++ [(p, bodies)], runs)) ([], [])

/-- The bodies to put in the place of inlined phrases. -/
def inlining (g : Grammar) (phrases : List (Phrase × List Body)) : Inlining :=
  g.inlined.foldl (fun (table : Inlining) p =>
    table ++ [(p, ((phrases.lookup p).getD []).flatMap table.ofBody)]) []

/-- All productions, phrases before repeated things. -/
def productions (g : Grammar) : List Production :=
  let (phrases, runs) := g.spellOut
  let table := g.inlining phrases
  let plain := phrases.filter fun (p, _) => !g.inlined.contains p
  let ofPhrases := plain.flatMap fun (p, bodies) =>
    (bodies.flatMap table.ofBody).map (Production.mk (.phrase p))
  let ofRuns := runs.zipIdx.flatMap fun (bodies, n) =>
    let once := bodies.flatMap table.ofBody
    let again := once.map (Body.append (Scope.none.body (.run n)))
    (once ++ again).map (Production.mk (.run n))
  (ofPhrases ++ ofRuns).filter fun p => !p.body.steps.isEmpty

end Grammar

end ImportAtlas.Script
