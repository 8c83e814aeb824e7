/-
# ImportAtlas.Proofs.Provenance -- what a script imports stands in its text

The texts in a syntax tree come from the tokens, and a token is a slice of the program. Between the
lexer and the finished tree lies a machine with several stacks that splits, joins and drops readings, so
this is not seen from the tree alone. It is an invariant of the machine (`Machine.Within`): whatever
piece lies on a stack or was put aside as a result, every text in it is a part of the program. Each
operation on stacks keeps it, hence a step does, hence a whole reading.

So every specifier is found literally in the program it was read from, and an empty program imports
nothing. No grammar enters: this holds for whatever productions the machine is run with.
-/
import ImportAtlas.Script.Reading

namespace ImportAtlas.Script

/-! ## Trees -/

/-- Every text in a tree is a part of the given one. -/
inductive Node.Within (text : List Char) : Node → Prop
  | mk {kind : Kind} {role : Option Role} {named : Bool} {own : List Char} {children : List Node} :
      own <:+: text → (∀ c ∈ children, Node.Within text c) →
      Node.Within text (.mk kind role named own children)

section Trees

variable {text spec : List Char} {n : Node}

theorem Node.Within.text_infix (hn : n.Within text) : n.text <:+: text := by
  cases hn with
  | mk hown _ => exact hown

theorem Node.Within.children (hn : n.Within text) : ∀ c ∈ n.children, c.Within text := by
  cases hn with
  | mk _ hchildren => exact hchildren

theorem Node.Within.child? (hn : n.Within text) {r : Role} {c : Node} (hc : n.child? r = some c) :
    c.Within text :=
  hn.children c (List.mem_of_find?_eq_some hc)

theorem Node.Within.quoted? (hn : n.Within text) (hspec : n.quoted? = some spec) :
    spec <:+: text := by
  unfold Node.quoted? at hspec
  split at hspec
  · obtain rfl := Option.some.inj hspec
    have hinner : (n.text.drop 1).dropLast <:+: n.text :=
      (List.dropLast_prefix _).isInfix.trans (List.drop_suffix _ _).isInfix
    exact hinner.trans hn.text_infix
  · cases hspec

theorem Node.Within.dynamicSpecifier? (hn : n.Within text)
    (hspec : n.dynamicSpecifier? = some spec) : spec <:+: text := by
  unfold Node.dynamicSpecifier? at hspec
  split at hspec
  · next f args _ hargs =>
    split at hspec
    · split at hspec
      · next a hsingle =>
        have ha : a ∈ args.argumentNodes := by rw [hsingle]; exact List.mem_cons_self
        have hchild : a ∈ args.children := (List.mem_filter.1 ha).1
        exact ((hn.child? hargs).children a hchild).quoted? hspec
      · cases hspec
    · cases hspec
  · cases hspec

theorem Node.Within.specifier? (hn : n.Within text) (hspec : n.specifier? = some spec) :
    spec <:+: text := by
  unfold Node.specifier? at hspec
  split at hspec
  · obtain ⟨c, hc, hquoted⟩ := Option.bind_eq_some_iff.1 hspec
    exact (hn.child? hc).quoted? hquoted
  · exact hn.dynamicSpecifier? hspec
  · cases hspec

/-- A specifier that names a file and stands in the given text. -/
def Stands (text spec : List Char) : Prop := isFileSpecifier spec = true ∧ spec <:+: text

theorem Node.Within.ownImports (hn : n.Within text) : ∀ s ∈ n.ownImports, Stands text s := by
  intro s hs
  obtain ⟨hfound, hfile⟩ := List.mem_filter.1 hs
  exact ⟨hfile, hn.specifier? (Option.mem_toList.1 hfound)⟩

theorem stands_of_mem_collectImports {found : List (List Char)} {pending : List Node}
    (hfound : ∀ s ∈ found, Stands text s) (hpending : ∀ n ∈ pending, n.Within text) :
    ∀ s ∈ collectImports found pending, Stands text s := by
  fun_induction collectImports found pending with
  | case1 found => exact fun s hs => hfound s (List.mem_reverse.1 hs)
  | case2 found n pending ih =>
    have hn : n.Within text := hpending n List.mem_cons_self
    apply ih
    · intro s hs
      rcases List.mem_append.1 hs with hs | hs
      · exact hn.ownImports s (List.mem_reverse.1 hs)
      · exact hfound s hs
    · intro c hc
      rcases List.mem_append.1 hc with hc | hc
      · exact hn.children c hc
      · exact hpending c (List.mem_cons_of_mem _ hc)

theorem Node.Within.fileImports (hn : n.Within text) : ∀ s ∈ n.fileImports, Stands text s := by
  apply stands_of_mem_collectImports
  · exact fun s hs => nomatch hs
  · intro c hc
    rw [List.mem_singleton.1 hc]
    exact hn

end Trees

/-! ## Pieces -/

/-- Every text in a forest is a part of the given one. -/
def Forest.Within (text : List Char) : Forest → Prop
  | .empty => True
  | .leaf n => n.Within text
  | .join a b => a.Within text ∧ b.Within text

/-- Every text in a piece is a part of the given one. -/
def Piece.Within (text : List Char) (p : Piece) : Prop := p.forest.Within text

section Pieces

variable {text : List Char}

theorem Forest.Within.toListBefore {f : Forest} (hf : f.Within text) {rest : List Node}
    (hrest : ∀ n ∈ rest, n.Within text) : ∀ n ∈ f.toListBefore rest, n.Within text := by
  induction f generalizing rest with
  | empty => exact hrest
  | leaf => exact List.forall_mem_cons.2 ⟨hf, hrest⟩
  | join a b iha ihb => exact iha hf.1 (ihb hf.2 hrest)

theorem Forest.Within.toList {f : Forest} (hf : f.Within text) : ∀ n ∈ f.toList, n.Within text :=
  hf.toListBefore fun _ hn => nomatch hn

theorem Forest.Within.play {f : Forest} (hf : f.Within text) (role : Role) :
    (f.play role).Within text := by
  induction f with
  | empty => trivial
  | leaf n =>
    obtain ⟨kind, r, named, own, children⟩ := n
    exact .mk hf.text_infix hf.children
  | join a b iha ihb => exact ⟨iha hf.1, ihb hf.2⟩

theorem Source.slice_ofText_infix (text : List Char) (p q : Nat) :
    (Source.ofText text).slice p q <:+: text := by
  unfold Source.slice Source.ofText
  rw [Array.toList_extract, List.extract_eq_take_drop]
  exact (List.take_prefix _ _).isInfix.trans (List.drop_suffix _ _).isInfix

theorem Piece.within_ofLexeme (a : Automaton) (l : Lexeme) :
    (Piece.ofLexeme a (.ofText text) l).Within text := by
  unfold Piece.ofLexeme Piece.Within
  dsimp only
  split
  · trivial
  · split
    · trivial
    · exact .mk (Source.slice_ofText_infix text l.start l.stop) fun c hc => nomatch hc

theorem Piece.within_forestOf (roles : List (Option Role)) {ps : List Piece}
    (hps : ∀ p ∈ ps, p.Within text) : (Piece.forestOf roles ps).Within text := by
  induction ps generalizing roles with
  | nil => trivial
  | cons p ps ih =>
    obtain ⟨hp, hps⟩ := List.forall_mem_cons.1 hps
    rw [Piece.forestOf]
    split
    · exact ⟨hp, ih roles hps⟩
    · have hjoin : ∀ f : Forest, f.Within text →
          (if ps.isEmpty then f else f.join (Piece.forestOf roles.tail ps)).Within text := by
        intro f hf
        split
        · exact hf
        · exact ⟨hf, ih roles.tail hps⟩
      dsimp only
      refine hjoin _ ?_
      split
      · exact Forest.Within.play hp _
      · exact hp

theorem Piece.within_ofReduction (a : Automaton) (r : Reduction) {ps : List Piece}
    (hps : ∀ p ∈ ps, p.Within text) : (Piece.ofReduction a r ps).Within text := by
  have hinner : (Piece.forestOf r.roles ps).Within text := Piece.within_forestOf _ hps
  unfold Piece.ofReduction Piece.Within
  dsimp only
  split
  · exact .mk List.nil_infix hinner.toList
  · exact hinner

theorem Piece.within_splitComments {ps : List Piece} (hps : ∀ p ∈ ps, p.Within text) :
    (∀ p ∈ (Piece.splitComments ps).1, p.Within text) ∧
      ∀ p ∈ (Piece.splitComments ps).2, p.Within text := by
  unfold Piece.splitComments
  constructor
  · exact fun p hp => hps p (List.mem_of_mem_take hp)
  · intro p hp
    have hmem : p ∈ ps.reverse := (List.takeWhile_sublist _).mem (List.mem_reverse.1 hp)
    exact hps p (List.mem_reverse.1 hmem)

theorem Piece.within_heaviest {ways : List (List Piece)}
    (hways : ∀ way ∈ ways, ∀ p ∈ way, p.Within text) : ∀ p ∈ Piece.heaviest ways, p.Within text := by
  unfold Piece.heaviest
  split
  · exact fun p hp => nomatch hp
  · next first rest =>
    refine List.foldlRecOn (motive := fun best : List Piece => ∀ p ∈ best, p.Within text) _ _
      (hways first List.mem_cons_self) fun best hbest way hway => ?_
    split
    · exact hways way hway
    · exact hbest

end Pieces

/-! ## Stacks -/

/-- Every piece on a stack is within the given text. -/
def Stack.Within (text : List Char) (s : Stack) : Prop :=
  ∀ n, ∀ l ∈ (s.node n).links, l.piece.Within text

namespace Stack

variable {text : List Char} {s : Stack}

theorem node_push (s : Stack) (below state : Nat) (piece : Piece) (k : Nat) :
    (s.push below state piece).node k = s.node k ∨
      ((s.push below state piece).node k).links = [⟨below, piece⟩] := by
  unfold push node
  dsimp only
  simp only [Array.getD_eq_getD_getElem?, Array.getElem?_push]
  split
  · exact Or.inr rfl
  · exact Or.inl rfl

theorem node_setIfInBounds (s : Stack) (n : Nat) (x : StackNode) (k : Nat) :
    node ⟨s.nodes.setIfInBounds n x⟩ k = s.node k ∨ node ⟨s.nodes.setIfInBounds n x⟩ k = x := by
  unfold node
  dsimp only
  rw [Array.getD_eq_getD_getElem?, Array.getD_eq_getD_getElem?, Array.getElem?_setIfInBounds]
  split
  · split
    · exact Or.inr rfl
    · next hbound => exact Or.inl (by rw [Array.getElem?_eq_none (by omega)])
  · exact Or.inl rfl

theorem links_raise (s : Stack) (n : Nat) (weight : Int) (k : Nat) :
    ((s.raise n weight).node k).links = (s.node k).links := by
  unfold raise node
  dsimp only
  rw [Array.getD_eq_getD_getElem?, Array.getD_eq_getD_getElem?, Array.getElem?_modify]
  split
  · cases s.nodes[k]? with
    | none => rfl
    | some x =>
      dsimp only [Option.map_some, Option.getD_some]
      split <;> rfl
  · rfl

theorem Within.push (hs : s.Within text) (below state : Nat) {piece : Piece}
    (hpiece : piece.Within text) : (s.push below state piece).Within text := by
  intro k l hl
  rcases node_push s below state piece k with hold | hnew
  · rw [hold] at hl
    exact hs k l hl
  · rw [hnew, List.mem_singleton] at hl
    rw [hl]
    exact hpiece

theorem Within.pushAll (hs : s.Within text) (state below : Nat) {ps : List Piece}
    (hps : ∀ p ∈ ps, p.Within text) : (s.pushAll state below ps).2.Within text := by
  induction ps generalizing s below with
  | nil => exact hs
  | cons p ps ih =>
    obtain ⟨hp, hps⟩ := List.forall_mem_cons.1 hps
    exact ih (hs.push below state hp) s.size hps

theorem Within.set (hs : s.Within text) (n : Nat) {x : StackNode}
    (hx : ∀ l ∈ x.links, l.piece.Within text) :
    Within text ⟨s.nodes.setIfInBounds n x⟩ := by
  intro k l hl
  rcases node_setIfInBounds s n x k with hold | hnew
  · rw [hold] at hl
    exact hs k l hl
  · rw [hnew] at hl
    exact hx l hl

/-- Joining stacks moves links around and makes no new pieces. -/
theorem Within.addLink (depth : Nat) (hs : s.Within text) (n : Nat) {link : Link}
    (hlink : link.piece.Within text) : (s.addLink depth n link).Within text := by
  induction depth generalizing s n link with
  | zero => exact hs
  | succ depth ih =>
    rw [Stack.addLink]
    split
    · exact hs
    dsimp only
    split
    · next i _ =>
      split
      · -- The same two nodes: the heavier of two pieces stays, and both are within the text.
        split
        · refine hs.set n fun l hl => ?_
          rcases List.mem_or_eq_of_mem_set hl with hold | hnew
          · exact hs n l hold
          · rw [hnew]
            exact hlink
        · exact hs
      · -- Different nodes below: their links are joined one by one, further down the stack.
        intro k l hl
        rw [links_raise] at hl
        refine List.foldlRecOn (motive := fun s : Stack => s.Within text) _ _ hs ?_ k l hl
        intro s' hs' m hm
        exact ih hs' _ (hs link.below m hm)
    · split
      · refine hs.set n fun l hl => ?_
        rcases List.mem_append.1 hl with hold | hnew
        · exact hs n l hold
        · rw [List.mem_singleton.1 hnew]
          exact hlink
      · exact hs

theorem Within.merge (hs : s.Within text) (into other : Nat) : (s.merge into other).Within text := by
  refine List.foldlRecOn (motive := fun s : Stack => s.Within text) _ _ hs ?_
  intro s' hs' l hl
  exact hs'.addLink _ into (hs other l hl)

theorem Within.routes (hs : s.Within text) (count depth : Nat) {active done : List Route}
    (hactive : ∀ r ∈ active, ∀ p ∈ r.pieces, p.Within text)
    (hdone : ∀ r ∈ done, ∀ p ∈ r.pieces, p.Within text) :
    ∀ r ∈ s.routes count depth active done, ∀ p ∈ r.pieces, p.Within text := by
  induction depth generalizing active done with
  | zero => exact hdone
  | succ depth ih =>
    cases active with
    | nil => exact hdone
    | cons r rs =>
      -- A way goes on by a link of the stack, whose piece is within the text.
      have hextend : ∀ q ∈ r :: rs, ∀ l ∈ (s.node q.node).links, ∀ p ∈ (q.extend l).pieces,
          p.Within text := by
        intro q hq l hl p hp
        rcases List.mem_cons.1 hp with rfl | hp
        · exact hs q.node l hl
        · exact hactive q hq p hp
      rw [Stack.routes]
      apply ih
      · intro q hq
        rcases List.mem_append.1 (List.mem_of_mem_take hq) with hq | hq
        · obtain ⟨o, ho, hq⟩ := List.mem_filterMap.1 hq
          obtain ⟨l, hl, rfl⟩ := Option.map_eq_some_iff.1 hq
          exact hextend o (List.mem_filter.1 ho).1 l (List.mem_of_head? hl)
        · obtain ⟨o, ho, hq⟩ := List.mem_flatMap.1 hq
          obtain ⟨l, hl, rfl⟩ := List.mem_map.1 hq
          exact hextend o (List.mem_filter.1 ho).1 l (List.mem_of_mem_tail hl)
      · intro q hq
        rcases List.mem_append.1 hq with hq | hq
        · exact hdone q hq
        · exact hactive q (List.mem_filter.1 hq).1

theorem Within.routesFrom (hs : s.Within text) (n count : Nat) :
    ∀ r ∈ s.routesFrom n count, ∀ p ∈ r.pieces, p.Within text := by
  apply hs.routes
  · intro r hr p hp
    rw [List.mem_singleton.1 hr] at hp
    cases hp
  · exact fun r hr => nomatch hr

theorem within_groupRoutes {rs : List Route} (hrs : ∀ r ∈ rs, ∀ p ∈ r.pieces, p.Within text) :
    ∀ g ∈ groupRoutes rs, ∀ way ∈ g.2, ∀ p ∈ way, p.Within text := by
  refine List.foldlRecOn (motive := fun groups : List (Nat × List (List Piece)) =>
    ∀ g ∈ groups, ∀ way ∈ g.2, ∀ p ∈ way, p.Within text) _ _ (fun g hg => nomatch hg) ?_
  intro groups hgroups r hr
  split
  · intro g hg way hway
    obtain ⟨⟨n, ways⟩, hold, rfl⟩ := List.mem_map.1 hg
    dsimp only at hway
    split at hway
    · rcases List.mem_append.1 hway with hway | hway
      · exact hgroups _ hold way hway
      · rw [List.mem_singleton.1 hway]
        exact hrs r hr
    · exact hgroups _ hold way hway
  · intro g hg way hway
    rcases List.mem_append.1 hg with hg | hg
    · exact hgroups g hg way hway
    · rw [List.mem_singleton.1 hg] at hway
      rw [List.mem_singleton.1 hway]
      exact hrs r hr

end Stack

/-! ## The machine -/

/-- Every piece that a machine holds is within the given text. -/
structure Machine.Within (text : List Char) (m : Machine) : Prop where
  stack : m.stack.Within text
  result : ∀ piece, m.result = some piece → piece.Within text

namespace Machine

variable {text : List Char} {m : Machine}

theorem within_initial (lang : Language) : (initial lang).Within text := by
  refine ⟨fun n l hl => ?_, fun piece hpiece => nomatch hpiece⟩
  have hlinks : ((initial lang).stack.node n).links = [] := by
    unfold Stack.node initial
    dsimp only
    rw [Array.getD_eq_getD_getElem?]
    cases n <;> rfl
  rw [hlinks] at hl
  cases hl

theorem Within.giveUp (hm : m.Within text) : m.giveUp.Within text := ⟨hm.stack, hm.result⟩

theorem Within.goto (hm : m.Within text) (a : Automaton) (state symbol : Nat) :
    (m.goto a state symbol).2.Within text := ⟨hm.stack, hm.result⟩

theorem Within.choicesAt (hm : m.Within text) (a : Automaton) (state token : Nat) :
    (m.choicesAt a state token).2.Within text := ⟨hm.stack, hm.result⟩

theorem Within.pushAll (hm : m.Within text) (below state : Nat) {ps : List Piece}
    (hps : ∀ p ∈ ps, p.Within text) : (m.pushAll below state ps).2.Within text :=
  ⟨hm.stack.pushAll state below hps, hm.result⟩

theorem Within.take (hm : m.Within text) (top state : Nat) {piece : Piece}
    (hpiece : piece.Within text) : (m.take top state piece).Within text := by
  unfold Machine.take
  dsimp only
  split <;> exact ⟨hm.stack.push top state hpiece, hm.result⟩

theorem Within.addReading (hm : m.Within text) (source top : Nat) :
    (m.addReading source top).Within text := by
  unfold Machine.addReading
  dsimp only
  split
  · exact ⟨hm.stack.merge _ top, hm.result⟩
  · exact ⟨hm.stack, hm.result⟩

theorem Within.reduceTo (lang : Language) (source : Nat) (r : Reduction) (hm : m.Within text)
    (base : Nat) {ways : List (List Piece)} (hways : ∀ way ∈ ways, ∀ p ∈ way, p.Within text) :
    (m.reduceTo lang source r base ways).Within text := by
  obtain ⟨hinner, hcomments⟩ := Piece.within_splitComments (Piece.within_heaviest hways)
  have hpiece := Piece.within_ofReduction lang.automaton r hinner
  unfold Machine.reduceTo
  split
  · exact hm
  dsimp only
  split
  · exact hm.goto _ _ _
  · apply Within.addReading
    exact (hm.goto _ _ _).pushAll base _ (List.forall_mem_cons.2 ⟨hpiece, hcomments⟩)

theorem Within.reduce (lang : Language) (hm : m.Within text) (top : Nat) (r : Reduction) :
    (m.reduce lang top r).1.Within text := by
  have hgroups := Stack.within_groupRoutes (hm.stack.routesFrom top r.count)
  refine List.foldlRecOn (motive := fun m : Machine => m.Within text) _ _ hm ?_
  rintro m' hm' ⟨base, ways⟩ hg
  exact hm'.reduceTo lang _ r base (hgroups _ hg)

theorem Within.reduceAll (lang : Language) (hm : m.Within text) (top : Nat) (rs : List Reduction) :
    (m.reduceAll lang top rs).1.Within text := by
  refine List.foldlRecOn (motive := fun x : Machine × Option Nat => x.1.Within text) _ _ hm ?_
  rintro ⟨m', last⟩ hm' r _
  exact Within.reduce lang hm' top r

theorem Within.complete (hm : m.Within text) {piece : Piece} (hpiece : piece.Within text) :
    (m.complete piece).Within text := by
  have hnew : Within text { m with result := some piece } := by
    refine ⟨hm.stack, ?_⟩
    rintro p ⟨⟩
    exact hpiece
  unfold Machine.complete
  split
  · exact hnew
  · split
    · exact hnew
    · exact hm

theorem within_topPieces {s : Stack} (hs : s.Within text) (depth n : Nat) :
    ∀ p ∈ topPieces s depth n, p.Within text := by
  induction depth generalizing n with
  | zero => exact fun p hp => nomatch hp
  | succ depth ih =>
    rw [topPieces]
    split
    · exact fun p hp => nomatch hp
    · next l rest hlinks =>
      split
      · exact ih l.below
      · intro p hp
        obtain ⟨k, hk, rfl⟩ := List.mem_map.1 hp
        exact hs n k (hlinks ▸ hk)

theorem Within.retry (hm : m.Within text) (state : Nat) (l : Lexeme) :
    (m.retry state l).Within text := by
  unfold Machine.retry
  split
  · exact ⟨hm.stack, hm.result⟩
  · exact hm.giveUp

theorem Within.act (lang : Language) (hm : m.Within text) (top : Nat) (l : Lexeme) :
    (m.act lang (.ofText text) top l).Within text := by
  unfold Machine.act
  dsimp only
  split
  · -- An empty program is read as a single node.
    refine (hm.complete ?_).giveUp
    exact Node.Within.mk List.nil_infix fun c hc => nomatch hc
  have hchoices := hm.choicesAt lang.automaton (m.stack.node top).state l.token
  split
  · -- The text is complete: what lies on top of the stack are the candidates for the result.
    apply Within.giveUp
    refine List.foldlRecOn (motive := fun m : Machine => m.Within text) _ _ hchoices ?_
    intro m' hm' piece hpiece
    exact hm'.complete (within_topPieces hchoices.stack _ top piece hpiece)
  have hreduced := hchoices.reduceAll lang top
    (m.choicesAt lang.automaton (m.stack.node top).state l.token).1.reductions
  split
  · split
    · exact (hreduced.goto _ _ _).take top _ (Piece.within_ofLexeme lang.automaton l)
    · exact (hreduced.goto _ _ _).giveUp
  · split
    · exact ⟨hreduced.stack, hreduced.result⟩
    · exact hreduced.retry _ l

theorem within_place {s : Stack} (hs : s.Within text) (weight : Int) (kept : List Nat) (n : Nat) :
    (place s weight kept n).2.Within text := by
  induction kept generalizing n with
  | nil => exact hs
  | cons x xs ih =>
    rw [place]
    split
    · exact hs.merge x n
    · split
      · exact ih x
      · exact ih n

theorem Within.condense (hm : m.Within text) : m.condense.Within text := by
  refine ⟨?_, hm.result⟩
  refine List.foldlRecOn (motive := fun x : List Nat × Stack => x.2.Within text) _ _ hm.stack ?_
  rintro ⟨kept, s⟩ hs n _
  exact within_place hs _ kept n

theorem Within.step (lang : Language) (hm : m.Within text) :
    (m.step lang (.ofText text)).Within text := by
  unfold Machine.step
  split
  · exact hm.condense
  split
  · exact ⟨hm.stack, hm.result⟩
  split
  · exact hm.act lang _ _
  · dsimp only
    split
    · exact hm.giveUp
    · split
      · exact hm.take _ _ (Piece.within_ofLexeme lang.automaton _)
      · exact ⟨hm.stack, hm.result⟩

theorem Within.run (lang : Language) (fuel : Nat) (hm : m.Within text) :
    (m.run lang (.ofText text) fuel).Within text := by
  induction fuel generalizing m with
  | zero => exact hm
  | succ fuel ih =>
    rw [Machine.run]
    split
    · exact hm
    · exact ih (hm.step lang)

end Machine

/-! ## Scripts -/

theorem within_of_parse? {lang : Language} {text : List Char} {root : Node}
    (hroot : parse? lang text = some root) : root.Within text := by
  have hm : ((Machine.initial lang).run lang (.ofText text)
      (Machine.stepsFor (Source.ofText text).size)).Within text :=
    (Machine.within_initial lang).run lang _
  unfold parse? at hroot
  dsimp only at hroot
  split at hroot
  · next piece hpiece =>
    have hforest : piece.forest.Within text := hm.result piece hpiece
    exact hforest.toList root (List.mem_of_head? hroot)
  · cases hroot

/-- A script imports only what is written in it. -/
theorem stands_of_mem_imports {flavor : Flavor} {text spec : List Char}
    (hspec : spec ∈ (readTree flavor text).imports) : Stands text spec := by
  unfold readTree at hspec
  split at hspec
  · next root hroot => exact (within_of_parse? hroot).fileImports spec hspec
  · cases hspec

theorem imports_readTree_nil (flavor : Flavor) : (readTree flavor []).imports = [] := by
  apply List.eq_nil_iff_forall_not_mem.2
  intro spec hspec
  obtain ⟨hfile, hinfix⟩ := stands_of_mem_imports hspec
  rw [List.eq_nil_of_infix_nil hinfix] at hfile
  cases hfile

end ImportAtlas.Script
