/-
# ImportAtlas.Proofs.Preorder -- imports in the order of the document

The imports of a script are collected by a walk that keeps a list of pending nodes. A turn of the walk
takes the first of them, looks at it, and puts its children in its place (`Walk.turn`). What makes the
finds come out in the order of the document is an invariant of one turn (`Walk.outcome_turn`): what was
found, followed by what all nodes below the pending ones ask for, a node before its children. A turn uses
up exactly one node, so a walk over a tree ends after as many turns as the tree has nodes.

What one node asks for is said without the walk (`Node.AsksFor`): the text between the quotes of the
source of an import statement, or of the only argument of a dynamic import.
-/
import Mathlib.Logic.Function.Iterate
import ImportAtlas.Resolve

namespace ImportAtlas.Script

/-! ## The order of the document -/

mutual

/-- A node and all nodes below it, each before its children. -/
def Node.preorder : Node → List Node
  | .mk kind role named text children =>
    .mk kind role named text children :: preorderAll children

/-- The nodes of several trees, one tree after the other. -/
def preorderAll : List Node → List Node
  | [] => []
  | n :: ns => n.preorder ++ preorderAll ns

end

theorem Node.preorder_eq (n : Node) : n.preorder = n :: preorderAll n.children := by
  cases n
  rfl

theorem preorderAll_append (ns ms : List Node) :
    preorderAll (ns ++ ms) = preorderAll ns ++ preorderAll ms := by
  induction ns with
  | nil => rfl
  | cons n ns ih => rw [List.cons_append, preorderAll, preorderAll, ih, List.append_assoc]

/-- The first node stands before those below it, and these before all others. -/
theorem preorderAll_cons (n : Node) (ns : List Node) :
    preorderAll (n :: ns) = n :: preorderAll (n.children ++ ns) := by
  rw [preorderAll, Node.preorder_eq, preorderAll_append, List.cons_append]

theorem preorderAll_eq_nil_iff {ns : List Node} : preorderAll ns = [] ↔ ns = [] := by
  cases ns with
  | nil => exact ⟨fun _ => rfl, fun _ => rfl⟩
  | cons n ns =>
    rw [preorderAll_cons]
    exact ⟨nofun, nofun⟩

/-! ## The walk -/

/-- A walk on its way: what was found, newest first, and the nodes still to visit. -/
structure Walk where
  found : List (List Char)
  pending : List Node

namespace Walk

/-- One turn: the first pending node is looked at and gives way to its children. -/
def turn : Walk → Walk
  | ⟨found, []⟩ => ⟨found, []⟩
  | ⟨found, n :: pending⟩ => ⟨n.ownImports.reverse ++ found, n.children ++ pending⟩

/-- What will have been found in the end. -/
def outcome (w : Walk) : List (List Char) :=
  w.found.reverse ++ (preorderAll w.pending).flatMap Node.ownImports

theorem outcome_turn (w : Walk) : w.turn.outcome = w.outcome := by
  obtain ⟨found, pending⟩ := w
  cases pending with
  | nil => rfl
  | cons n pending =>
    show (n.ownImports.reverse ++ found).reverse ++ _ = found.reverse ++ _
    rw [preorderAll_cons, List.flatMap_cons, List.reverse_append, List.reverse_reverse,
      List.append_assoc]
    rfl

/-- A turn uses up one node. -/
theorem length_preorderAll_turn (w : Walk) :
    (preorderAll w.turn.pending).length = (preorderAll w.pending).length - 1 := by
  obtain ⟨found, pending⟩ := w
  cases pending with
  | nil => rfl
  | cons n pending =>
    rw [preorderAll_cons, List.length_cons, Nat.add_sub_cancel]
    rfl

theorem outcome_iterate (w : Walk) (k : Nat) : (turn^[k] w).outcome = w.outcome := by
  induction k generalizing w with
  | zero => rfl
  | succ k ih => rw [Function.iterate_succ_apply, ih, outcome_turn]

theorem length_preorderAll_iterate (w : Walk) (k : Nat) :
    (preorderAll (turn^[k] w).pending).length = (preorderAll w.pending).length - k := by
  induction k generalizing w with
  | zero => rfl
  | succ k ih =>
    rw [Function.iterate_succ_apply, ih, length_preorderAll_turn]
    omega

theorem pending_iterate_eq_nil_iff (w : Walk) (k : Nat) :
    (turn^[k] w).pending = [] ↔ (preorderAll w.pending).length ≤ k := by
  have hlength := length_preorderAll_iterate w k
  rw [← preorderAll_eq_nil_iff, ← List.length_eq_zero_iff]
  omega

theorem collectImports_eq_outcome (found : List (List Char)) (pending : List Node) :
    collectImports found pending = outcome ⟨found, pending⟩ := by
  fun_induction collectImports found pending with
  | case1 found => exact (List.append_nil _).symm
  | case2 found n pending ih =>
    rw [ih]
    exact outcome_turn ⟨found, n :: pending⟩

/-- The walk over a tree, from the outset. -/
def start (root : Node) : Walk := ⟨[], [root]⟩

theorem preorderAll_start (root : Node) : preorderAll (start root).pending = root.preorder :=
  List.append_nil root.preorder

theorem outcome_start (root : Node) : (start root).outcome = root.fileImports :=
  (collectImports_eq_outcome [] [root]).symm

theorem outcome_of_pending_eq_nil {w : Walk} (hw : w.pending = []) : w.outcome = w.found.reverse := by
  rw [outcome, hw]
  exact List.append_nil _

end Walk

theorem fileImports_eq_flatMap (root : Node) :
    root.fileImports = root.preorder.flatMap Node.ownImports := by
  rw [← Walk.outcome_start, ← Walk.preorderAll_start]
  rfl

/-! ## What a node asks for -/

/-- A text without its first and its last character. -/
def withinQuotes (text : List Char) : List Char := text.extract 1 (text.length - 1)

/-- What a node itself asks for, whatever stands below it. -/
inductive Node.AsksFor : Node → List Char → Prop
  /-- An import statement asks for its source. -/
  | statement {n source : Node} :
      n.kind = .importStatement → n.child? .source = some source → source.kind = .string →
      n.AsksFor (withinQuotes source.text)
  /-- A call of `import` asks for its argument, if it is the only one. -/
  | call {n callee arguments argument : Node} :
      n.kind = .call → n.child? .function = some callee → callee.kind = .importKeyword →
      n.child? .arguments = some arguments →
      arguments.children.filter (fun c => c.named && c.kind ≠ .comment) = [argument] →
      argument.kind = .string → n.AsksFor (withinQuotes argument.text)

theorem Node.quoted?_eq_some_iff {n : Node} {s : List Char} :
    n.quoted? = some s ↔ n.kind = .string ∧ withinQuotes n.text = s := by
  have hquotes : (n.text.drop 1).dropLast = withinQuotes n.text := by
    rw [withinQuotes, List.extract_eq_take_drop, List.dropLast_eq_take, List.length_drop]
  unfold Node.quoted?
  rw [hquotes]
  split
  · next hkind => simp [hkind]
  · next hkind => simp [hkind]

theorem Node.dynamicSpecifier?_eq_some_iff {n : Node} {s : List Char} :
    n.dynamicSpecifier? = some s ↔
      ∃ callee arguments argument, n.child? .function = some callee ∧ callee.kind = .importKeyword ∧
        n.child? .arguments = some arguments ∧ arguments.argumentNodes = [argument] ∧
        argument.quoted? = some s := by
  unfold Node.dynamicSpecifier?
  split
  · next callee arguments hcallee harguments =>
    rw [hcallee, harguments]
    split
    · next hkind =>
      split
      · next argument hargument =>
        constructor
        · intro hs
          exact ⟨callee, arguments, argument, rfl, hkind, rfl, hargument, hs⟩
        · rintro ⟨_, _, other, ⟨⟩, -, ⟨⟩, hother, hs⟩
          rw [hargument, List.cons.injEq] at hother
          rwa [hother.1]
      · next hmany =>
        refine ⟨nofun, ?_⟩
        rintro ⟨_, _, argument, ⟨⟩, -, ⟨⟩, hargument, -⟩
        exact absurd hargument (hmany argument)
    · next hkind =>
      refine ⟨nofun, ?_⟩
      rintro ⟨_, _, _, ⟨⟩, hkind', -⟩
      exact absurd hkind' hkind
  · next hnone =>
    refine ⟨nofun, ?_⟩
    rintro ⟨callee, arguments, _, hcallee, -, harguments, -⟩
    exact absurd harguments (hnone callee arguments hcallee)

theorem Node.specifier?_eq_some_iff {n : Node} {s : List Char} :
    n.specifier? = some s ↔ n.AsksFor s := by
  constructor
  · intro hs
    unfold Node.specifier? at hs
    split at hs
    · next hkind =>
      obtain ⟨source, hsource, hquoted⟩ := Option.bind_eq_some_iff.1 hs
      obtain ⟨hstring, rfl⟩ := quoted?_eq_some_iff.1 hquoted
      exact .statement hkind hsource hstring
    · next hkind =>
      obtain ⟨callee, arguments, argument, hcallee, himport, harguments, hargument, hquoted⟩ :=
        dynamicSpecifier?_eq_some_iff.1 hs
      obtain ⟨hstring, rfl⟩ := quoted?_eq_some_iff.1 hquoted
      exact .call hkind hcallee himport harguments hargument hstring
    · cases hs
  · intro hs
    unfold Node.specifier?
    cases hs with
    | statement hkind hsource hstring =>
      rw [hkind]
      exact Option.bind_eq_some_iff.2 ⟨_, hsource, quoted?_eq_some_iff.2 ⟨hstring, rfl⟩⟩
    | call hkind hcallee himport harguments hargument hstring =>
      rw [hkind]
      exact dynamicSpecifier?_eq_some_iff.2 ⟨_, _, _, hcallee, himport, harguments, hargument,
        quoted?_eq_some_iff.2 ⟨hstring, rfl⟩⟩

/-! ## What a script asks for -/

/-- A text that begins with a dot or a slash. -/
def NamesFile (s : List Char) : Prop := s.head? = some '.' ∨ s.head? = some '/'

theorem isFileSpecifier_iff {s : List Char} : isFileSpecifier s = true ↔ NamesFile s := by
  cases s with
  | nil => simp [isFileSpecifier, NamesFile]
  | cons c s => simp [isFileSpecifier, NamesFile]

/-- The files that some nodes ask for, in the order of the nodes. -/
inductive AskedFiles : List Node → List (List Char) → Prop
  | nil : AskedFiles [] []
  | file {n : Node} {ns : List Node} {s : List Char} {ss : List (List Char)} :
      n.AsksFor s → NamesFile s → AskedFiles ns ss → AskedFiles (n :: ns) (s :: ss)
  | pass {n : Node} {ns : List Node} {ss : List (List Char)} :
      (∀ s, n.AsksFor s → ¬ NamesFile s) → AskedFiles ns ss → AskedFiles (n :: ns) ss

theorem Node.ownImports_of_asksFor {n : Node} {s : List Char} (hs : n.AsksFor s) (hfile : NamesFile s) :
    n.ownImports = [s] := by
  rw [ownImports, specifier?_eq_some_iff.2 hs]
  simp [isFileSpecifier_iff.2 hfile]

theorem Node.ownImports_eq_nil {n : Node} (hn : ∀ s, n.AsksFor s → ¬ NamesFile s) :
    n.ownImports = [] := by
  rw [ownImports, List.filter_eq_nil_iff]
  intro s hs
  rw [isFileSpecifier_iff]
  exact hn s (specifier?_eq_some_iff.1 (Option.mem_toList.1 hs))

/-- A node asks for one thing at most, so that the files are determined by the nodes. -/
theorem askedFiles_iff {ns : List Node} {ss : List (List Char)} :
    AskedFiles ns ss ↔ ns.flatMap Node.ownImports = ss := by
  constructor
  · intro h
    induction h with
    | nil => rfl
    | file hs hfile _ ih =>
      rw [List.flatMap_cons, Node.ownImports_of_asksFor hs hfile, ih]
      rfl
    | pass hn _ ih =>
      rw [List.flatMap_cons, Node.ownImports_eq_nil hn, ih]
      rfl
  · rintro rfl
    induction ns with
    | nil => exact .nil
    | cons n ns ih =>
      rw [List.flatMap_cons]
      by_cases hn : ∃ s, n.AsksFor s ∧ NamesFile s
      · obtain ⟨s, hs, hfile⟩ := hn
        rw [Node.ownImports_of_asksFor hs hfile]
        exact .file hs hfile ih
      · have hpass : ∀ s, n.AsksFor s → ¬ NamesFile s := fun s hs hfile => hn ⟨s, hs, hfile⟩
        rw [Node.ownImports_eq_nil hpass]
        exact .pass hpass ih

theorem extract_of_tree {h : Host} {file : Path} {text : List Char} {root : Node}
    (hread : readFile h.readTree file text = .tree root) :
    (Reference.extract h .script file text).1 = root.fileImports.map .script := by
  simp only [Reference.extract, hread]
  rfl

/-- The references of a script that can be read are the files which its nodes ask for, in the order of
the document and with none left out. The walk that collects them makes as many turns as there are nodes,
and what it has found then is what comes out. A script that is malformed, or whose reader fails, has no
references. -/
theorem script_imports_follow_document (h : Host) (file : Path) (text : List Char) :
    (∀ root, readFile h.readTree file text = .tree root →
      (∀ specifiers, (Reference.extract h .script file text).1 = specifiers.map .script ↔
        AskedFiles root.preorder specifiers) ∧
      ∀ k, ((Walk.turn^[k] (.start root)).pending = [] ↔ root.preorder.length ≤ k) ∧
        (root.preorder.length ≤ k → (Reference.extract h .script file text).1 =
          (Walk.turn^[k] (.start root)).found.reverse.map .script)) ∧
    (readFile h.readTree file text = .malformed → (Reference.extract h .script file text).1 = []) ∧
    ∀ kind, readFile h.readTree file text = .failed kind →
      (Reference.extract h .script file text).1 = [] := by
  refine ⟨?_, ?_, ?_⟩
  · intro root hread
    have hextract := extract_of_tree hread
    refine ⟨?_, ?_⟩
    · intro specifiers
      rw [hextract, askedFiles_iff, ← fileImports_eq_flatMap]
      exact List.map_inj_right fun _ _ => Reference.script.inj
    · intro k
      have hend := Walk.pending_iterate_eq_nil_iff (.start root) k
      rw [Walk.preorderAll_start] at hend
      refine ⟨hend, ?_⟩
      intro hk
      rw [hextract, ← Walk.outcome_start, ← Walk.outcome_iterate _ k,
        Walk.outcome_of_pending_eq_nil (hend.2 hk)]
  · intro hread
    simp only [Reference.extract, hread]
    rfl
  · intro kind hread
    simp only [Reference.extract, hread]
    rfl

/-- A sign of punctuation. -/
def sign (text : String) : Node := .mk .other none false text.toList []

/-- A call of `import`. -/
def dynamicImport (arguments : List Node) : Node :=
  .mk .call none true []
    [.mk .importKeyword (some .function) true [] [.mk .other none true "import".toList []],
      .mk .arguments (some .arguments) true [] (sign "(" :: arguments ++ [sign ")"])]

/-- A script with a comment behind the argument of one import, and with an import that is an argument,
though not the only one, of another. -/
def nestedText : List Char :=
  "import('./a' /* b */);\nimport(import('./b'), './c');\nimport 'react';\n".toList

/-- The syntax tree of `nestedText`. -/
def nested : Node :=
  .mk .other none true []
    [.mk .other none true []
        [dynamicImport
            [.mk .string none true "'./a'".toList [], .mk .comment none true "/* b */".toList []],
          sign ";"],
      .mk .other none true []
        [dynamicImport
            [dynamicImport [.mk .string none true "'./b'".toList []], sign ",",
              .mk .string none true "'./c'".toList []],
          sign ";"],
      .mk .importStatement none true []
        [.mk .other none true "import".toList [], .mk .string (some .source) true "'react'".toList [],
          sign ";"]]

/-- A reader that knows the one script. -/
def nestedReader : TreeReader := fun _ text => if text = nestedText then .tree nested else .malformed

theorem script_imports_follow_document_nested :
    let h := Host.ofTree nestedReader { home := [], entries := [] }
    let file := "/w/a.ts".toList
    -- The leaves of the tree, one after the other, are the text up to blanks.
    (nested.preorder.flatMap Node.text).filter (! Text.isBlank ·) =
        nestedText.filter (! Text.isBlank ·) ∧
      readFile h.readTree file nestedText = .tree nested ∧
      AskedFiles nested.preorder ["./a".toList, "./b".toList] ∧
      (Reference.extract h .script file nestedText).1 =
        [.script "./a".toList, .script "./b".toList] := by
  intro h file
  have hread : nestedReader (.ofPath file) nestedText = .tree nested := if_pos rfl
  have hasked : AskedFiles nested.preorder ["./a".toList, "./b".toList] := askedFiles_iff.2 (by decide)
  have hextract := (((script_imports_follow_document h file nestedText).1 nested hread).1 _).2 hasked
  exact ⟨by decide, hread, hasked, hextract⟩

end ImportAtlas.Script
