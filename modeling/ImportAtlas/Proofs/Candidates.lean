/-
# ImportAtlas.Proofs.Candidates -- the first candidate that is a file

What a reference means is looked for in up to three searches, of which a later one is made only if those
before were in vain. They are one search among a single list of candidates (`Reference.search_eq`): a
path that is asked about is never empty, so that finding one always ends the search, and a search in
vain leaves nothing but the questions it asked.

If every question is answered, such a search finds the first candidate that is a file, and asks about
the candidates up to that one and about no other (`Search.TakesFirst`).
-/
import ImportAtlas.Resolve

namespace ImportAtlas

/-! ## Searches one after the other -/

namespace Search

variable {s : Search}

theorem orElse_of_isVain (hs : s.isVain = true) (t : Search) :
    (s <|> t) = ⟨s.asked ++ t.asked, t.outcome⟩ := by
  show s.orElse (fun _ => t) = _
  rw [orElse, if_pos hs]

theorem orElse_of_not_isVain (hs : s.isVain = false) (t : Search) : (s <|> t) = s := by
  show s.orElse (fun _ => t) = _
  rw [orElse, if_neg (by simp [hs])]

/-- A search with one question more in front goes on in the same way. -/
theorem orElse_cons (c : Path) (s t : Search) :
    ((⟨c :: s.asked, s.outcome⟩ : Search) <|> t) = ⟨c :: (s <|> t).asked, (s <|> t).outcome⟩ := by
  have hvain : isVain ⟨c :: s.asked, s.outcome⟩ = s.isVain := rfl
  cases hs : s.isVain with
  | true =>
    rw [hs] at hvain
    rw [orElse_of_isVain hs, orElse_of_isVain hvain, List.cons_append]
  | false =>
    rw [hs] at hvain
    rw [orElse_of_not_isVain hs, orElse_of_not_isVain hvain]

end Search

/-- Two searches, the second one made if the first is in vain, are one search. The empty path cannot be
among the candidates of the first: to find it is to find nothing. -/
theorem Probe.search_append (probe : Probe) {as : List Path} (has : [] ∉ as) (bs : List Path) :
    probe.search (as ++ bs) = (probe.search as <|> probe.search bs) := by
  induction as with
  | nil => rfl
  | cons c cs ih =>
    rw [List.mem_cons, not_or] at has
    rw [List.cons_append, search, search]
    cases hc : probe c with
    | none => rfl
    | some answer =>
      cases answer with
      | true =>
        have hfound : Search.isVain ⟨[c], some (some c)⟩ = false := by
          simp [Search.isVain, Ne.symm has.1]
        rw [Search.orElse_of_not_isVain hfound]
      | false =>
        dsimp only
        rw [ih has.2, Search.orElse_cons]

/-! ## The searches for a reference -/

theorem Path.normalize_ne_nil (p : Path) : normalize p ≠ [] := by
  unfold normalize
  dsimp only
  split
  · exact List.cons_ne_nil _ _
  · assumption

theorem pathFrom_ne_nil (h : Host) (file text : Path) : pathFrom h file text ≠ [] :=
  Path.normalize_ne_nil _

/-- The searches for the path, for the path with an extension and for an index file are one search. -/
theorem searchScript_eq (probe : Probe) {p : Path} (hp : p ≠ []) :
    searchScript probe p = probe.search (scriptCandidates p) := by
  have hpath : [] ∉ [p] := by simpa using hp.symm
  have hendings : [] ∉ p.withEndings Dialect.scriptExtensions := by simp [Path.withEndings, hp]
  unfold searchScript scriptCandidates
  rw [← probe.search_append hendings, ← probe.search_append hpath]
  rfl

/-- What a reference means is looked for in one search among its candidates. -/
theorem Reference.search_eq (h : Host) (root : Option Path) (file : Path) (ref : Reference) :
    ref.search h root file = h.probe.search (ref.candidates h root file) := by
  cases ref with
  | script specifier => exact searchScript_eq h.probe (pathFrom_ne_nil h file specifier)
  | crate i => rfl
  | document name => rfl

/-! ## Answered searches -/

/-- A search that takes the first candidate that is a file. -/
structure Search.TakesFirst (isFile : Path → Bool) (candidates : List Path) (s : Search) : Prop where
  outcome : s.outcome = some (candidates.find? isFile)
  none_iff : s.outcome = some none ↔ ∀ c ∈ candidates, isFile c = false
  /-- The questions are the candidates up to the first that is a file, and all of them if none is. -/
  asked : s.asked = candidates.take (candidates.findIdx isFile + 1)

theorem Probe.search_of_answers (isFile : Path → Bool) (cs : List Path) :
    Probe.search (fun p => some (isFile p)) cs =
      ⟨cs.take (cs.findIdx isFile + 1), some (cs.find? isFile)⟩ := by
  induction cs with
  | nil => rfl
  | cons c cs ih =>
    rw [search]
    cases hc : isFile c with
    | true => simp [hc, List.findIdx_cons]
    | false => simp [hc, ih, List.findIdx_cons]

theorem Probe.takesFirst_search (isFile : Path → Bool) (cs : List Path) :
    (Probe.search (fun p => some (isFile p)) cs).TakesFirst isFile cs := by
  rw [search_of_answers]
  refine ⟨rfl, ?_, rfl⟩
  simp

/-- If every question is answered, what a reference means is the first of its candidates that is a
file. -/
theorem Reference.takesFirst_search (h : Host) (isFile : Path → Bool) (root : Option Path)
    (file : Path) (ref : Reference) :
    (ref.search (h.withProbe fun p => some (isFile p)) root file).TakesFirst isFile
      (ref.candidates h root file) := by
  rw [search_eq]
  exact Probe.takesFirst_search isFile _

theorem documentCandidates_eq (p : Path) :
    documentCandidates p = [p, p ++ Dialect.graphqlExtension] := by
  simp [documentCandidates, Path.withEndings]

/-- Whatever is a file, a specifier means the first file among the path it gives, that path with each
extension, and the index files of the directory there. A name in a document means the first among the path
it gives and that path with the extension of documents, and a module is looked for in the file of its name
and then in the directory of its name. Each time the candidates up to that file are asked about, in this
order, and nothing else. -/
theorem references_mean_first_candidate (h : Host) (isFile : Path → Bool) (workspace : Path)
    (roots : Crate.Roots) (file : Path) :
    let host := h.withProbe fun p => some (isFile p)
    let place := fun text => Path.absolute h.home
      (Path.join (Path.parent (Path.absolute h.home file)) text)
    (∀ specifier, ((Reference.script specifier).resolve host workspace roots file).TakesFirst isFile
      (place specifier :: Dialect.scriptExtensions.map (place specifier ++ ·) ++
        Dialect.scriptExtensions.map (Path.join (place specifier) "index".toList ++ ·))) ∧
    (∀ name, ((Reference.document name).resolve host workspace roots file).TakesFirst isFile
      [place name, place name ++ ".graphql".toList]) ∧
    ∀ dir name, (host.probe.search (Path.moduleFiles dir name)).TakesFirst isFile
      [Path.join dir (name ++ ".rs".toList), Path.join (Path.join dir name) "mod.rs".toList] := by
  intro host place
  refine ⟨fun specifier => ?_, fun name => ?_, fun dir name => ?_⟩
  · exact Reference.takesFirst_search h isFile none file (.script specifier)
  · have hcandidates : (Reference.document name).candidates h none file =
        [place name, place name ++ Dialect.graphqlExtension] := documentCandidates_eq _
    have hfirst := Reference.takesFirst_search h isFile none file (.document name)
    rw [hcandidates] at hfirst
    exact hfirst
  · exact Probe.takesFirst_search isFile _

end ImportAtlas
