/-
# ImportAtlas.Proofs.Statuses -- what the status board of a pipeline tells

The board of a pipeline is written to by name, but stages have positions, and names may repeat. Adding
stages and executing them are each a list of writes (`StatusBoard.setEach`), of which the last to a name
stays. An execution writes to the name of every stage, in order, that it is running and then how it came
out (`outcomes`), so of two stages with one name the later one is told about.

`Operation` is what can be done with a pipeline. `Keyed` and `Fresh` are kept by every operation: the
board has the names of the stages and no others, no stage is running, and it says pending exactly for
what was added since the last execution. Without a single attempt allowed the second one fails: the
first stage is left running although none was executed.
-/
import Mathlib.Data.List.Induction
import ImportAtlas.Proofs.Attempts

namespace ImportAtlas

open Pipeline (Datum Stage StageResult)

/-! ## Boards -/

namespace StatusBoard

variable {board : StatusBoard} {name other : String} {status : Status}
  {writes : List (String × Status)}

/-- The names on a board. -/
def names (board : StatusBoard) : List String := board.map (·.1)

theorem any_iff_mem_names : board.any (·.1 = name) = true ↔ name ∈ board.names := by
  simp [names]

theorem names_set (board : StatusBoard) (name : String) (status : Status) :
    (board.set name status).names =
      if name ∈ board.names then board.names else board.names ++ [name] := by
  unfold set
  by_cases hname : name ∈ board.names
  · rw [if_pos (any_iff_mem_names.2 hname), if_pos hname, names, List.map_map]
    refine List.map_congr_left fun entry _ => ?_
    by_cases hentry : entry.1 = name <;> simp [hentry]
  · rw [if_neg fun h => hname (any_iff_mem_names.1 h), if_neg hname, names, List.map_append]
    rfl

theorem mem_names_set :
    other ∈ (board.set name status).names ↔ other ∈ board.names ∨ other = name := by
  rw [names_set]
  split
  · next hname =>
    constructor
    · exact Or.inl
    · rintro (h | rfl)
      · exact h
      · exact hname
  · rw [List.mem_append, List.mem_singleton]

theorem nodup_names_set (hboard : board.names.Nodup) : (board.set name status).names.Nodup := by
  rw [names_set]
  split
  · exact hboard
  · next hname =>
    rw [List.nodup_append]
    refine ⟨hboard, List.pairwise_singleton _ _, ?_⟩
    rintro a ha b hb rfl
    exact hname (List.mem_singleton.1 hb ▸ ha)

theorem get?_cons (entry : String × Status) (board : StatusBoard) (name : String) :
    get? (entry :: board) name = if entry.1 = name then some entry.2 else board.get? name := by
  unfold get?
  by_cases hentry : entry.1 = name <;> simp [hentry]

theorem get?_append (board later : StatusBoard) (name : String) :
    get? (board ++ later) name = (board.get? name).or (later.get? name) := by
  unfold get?
  rw [List.find?_append, Option.map_or]

theorem isSome_get? (board : StatusBoard) (name : String) :
    (board.get? name).isSome ↔ name ∈ board.names := by
  simp [get?, names]

theorem get?_map_overwrite (board : StatusBoard) (name other : String) (status : Status) :
    get? (board.map fun s => if s.1 = name then (name, status) else s) other =
      if other = name then (board.get? name).map fun _ => status else board.get? other := by
  induction board with
  | nil => simp [get?]
  | cons entry board ih =>
    rw [List.map_cons, get?_cons, get?_cons, get?_cons, ih]
    by_cases hentry : entry.1 = name <;> by_cases hother : other = name <;> grind

theorem get?_set (board : StatusBoard) (name other : String) (status : Status) :
    (board.set name status).get? other = if other = name then some status else board.get? other := by
  unfold set
  split
  · next hany =>
    obtain ⟨old, hold⟩ := Option.isSome_iff_exists.1
      ((isSome_get? board name).2 (any_iff_mem_names.1 hany))
    rw [get?_map_overwrite, hold]
    rfl
  · next hany =>
    have hnone : board.get? name = none := by
      rw [← Option.not_isSome_iff_eq_none, isSome_get?]
      exact fun h => hany (any_iff_mem_names.2 h)
    rw [get?_append, get?_cons]
    by_cases hother : other = name
    · rw [if_pos hother, if_pos hother.symm, hother, hnone]
      rfl
    · rw [if_neg hother, if_neg (Ne.symm hother)]
      exact Option.or_none

theorem mem_set {entry : String × Status} (h : entry ∈ board.set name status) :
    entry ∈ board ∨ entry = (name, status) := by
  unfold set at h
  split at h
  · obtain ⟨old, hold, rfl⟩ := List.mem_map.1 h
    split
    · exact Or.inr rfl
    · exact Or.inl hold
  · rcases List.mem_append.1 h with h | h
    · exact Or.inl h
    · exact Or.inr (List.mem_singleton.1 h)

/-- A second write to a name takes the place of the first. -/
theorem set_set (board : StatusBoard) (name : String) (first second : Status) :
    (board.set name first).set name second = board.set name second := by
  have hany : (board.set name first).any (·.1 = name) = true :=
    any_iff_mem_names.2 (mem_names_set.2 (Or.inr rfl))
  rw [set, if_pos hany]
  unfold set
  split
  · rw [List.map_map]
    refine List.map_congr_left fun entry _ => ?_
    by_cases hentry : entry.1 = name <;> simp [hentry]
  · next hnot =>
    have hkeep : (board.map fun s => if s.1 = name then (name, second) else s) = board := by
      refine (List.map_congr_left fun entry hentry => if_neg fun heq => ?_).trans (List.map_id' board)
      exact hnot (List.any_eq_true.2 ⟨entry, hentry, decide_eq_true heq⟩)
    rw [List.map_append, hkeep]
    simp

/-! ## Writes one after the other -/

/-- Sets statuses in order. -/
def setEach (board : StatusBoard) (writes : List (String × Status)) : StatusBoard :=
  writes.foldl (fun board w => board.set w.1 w.2) board

theorem setEach_cons (board : StatusBoard) (w : String × Status) (writes : List (String × Status)) :
    board.setEach (w :: writes) = (board.set w.1 w.2).setEach writes := rfl

theorem setAll_eq_setEach (board : StatusBoard) (names : List String) (status : Status) :
    board.setAll names status = board.setEach (names.map fun name => (name, status)) := by
  unfold setAll setEach
  rw [List.foldl_map]

theorem mem_names_setEach :
    other ∈ (board.setEach writes).names ↔ other ∈ board.names ∨ ∃ w ∈ writes, w.1 = other := by
  induction writes generalizing board with
  | nil => simp [setEach]
  | cons w writes ih =>
    rw [setEach_cons, ih, mem_names_set, or_assoc, @eq_comm _ other]
    simp only [List.mem_cons, exists_eq_or_imp]

theorem nodup_names_setEach (hboard : board.names.Nodup) : (board.setEach writes).names.Nodup := by
  induction writes generalizing board with
  | nil => exact hboard
  | cons w writes ih => exact ih (nodup_names_set hboard)

theorem mem_setEach {entry : String × Status} (h : entry ∈ board.setEach writes) :
    entry ∈ board ∨ entry ∈ writes := by
  induction writes generalizing board with
  | nil => exact Or.inl h
  | cons w writes ih =>
    rcases ih h with hset | hlater
    · rcases mem_set hset with hold | rfl
      · exact Or.inl hold
      · exact Or.inr List.mem_cons_self
    · exact Or.inr (List.mem_cons_of_mem _ hlater)

theorem get?_setEach_of_notMem (hnot : ∀ w ∈ writes, w.1 ≠ name) :
    (board.setEach writes).get? name = board.get? name := by
  induction writes generalizing board with
  | nil => rfl
  | cons w writes ih =>
    rw [setEach_cons, ih fun v hv => hnot v (List.mem_cons_of_mem _ hv), get?_set,
      if_neg (hnot w List.mem_cons_self).symm]

/-- The last write to a name stays. -/
theorem get?_setEach_of_last {i : Nat} (hat : writes[i]? = some (name, status))
    (hlast : ∀ (j : Nat) (w : String × Status), i < j → writes[j]? = some w → w.1 ≠ name) :
    (board.setEach writes).get? name = some status := by
  induction writes generalizing board i with
  | nil => cases hat
  | cons w writes ih =>
    rw [setEach_cons]
    cases i with
    | zero =>
      -- No later write goes to the name.
      obtain rfl := Option.some.inj hat
      rw [get?_setEach_of_notMem, get?_set, if_pos rfl]
      intro v hv
      obtain ⟨j, hj⟩ := List.getElem?_of_mem hv
      exact hlast (j + 1) v (Nat.succ_pos j) hj
    | succ i => exact ih hat fun j v hj hv => hlast (j + 1) v (Nat.succ_lt_succ hj) hv

/-- What a name is set to by some writes was written there, if anything was. -/
theorem exists_get?_setEach (board : StatusBoard) (hmem : ∃ w ∈ writes, w.1 = name) :
    ∃ w ∈ writes, w.1 = name ∧ (board.setEach writes).get? name = some w.2 := by
  induction writes generalizing board with
  | nil => simp at hmem
  | cons w writes ih =>
    -- The first write counts only if no other one goes to the name.
    by_cases hlater : ∃ v ∈ writes, v.1 = name
    · obtain ⟨v, hv, hname, hget⟩ := ih (board.set w.1 w.2) hlater
      exact ⟨v, List.mem_cons_of_mem _ hv, hname, hget⟩
    · have hnot : ∀ v ∈ writes, v.1 ≠ name := fun v hv hname => hlater ⟨v, hv, hname⟩
      have hw : w.1 = name := by
        obtain ⟨v, hv, hname⟩ := hmem
        rcases List.mem_cons.1 hv with rfl | hv
        · exact hname
        · exact absurd hname (hnot v hv)
      refine ⟨w, List.mem_cons_self, hw, ?_⟩
      rw [setEach_cons, get?_setEach_of_notMem hnot, get?_set, if_pos hw.symm]

end StatusBoard

/-! ## What one operation writes -/

/-- How a stage came out. One that has no result was skipped. -/
def Status.ofResult : Option StageResult → Status
  | none => .skipped
  | some result => if result.success then .completed else .failed

theorem Status.ofResult_ne (result : Option StageResult) :
    Status.ofResult result ≠ .pending ∧ Status.ofResult result ≠ .running := by
  cases result with
  | none => exact ⟨nofun, nofun⟩
  | some result => cases hok : result.success <;> simp [Status.ofResult, hok]

namespace Pipeline

variable {σ : Type}

/-- How stages came out that have the given results, by name. -/
def outcomes : List (Stage σ) → List StageResult → List (String × Status)
  | [], _ => []
  | stage :: later, results =>
    (stage.name, Status.ofResult results.head?) :: outcomes later results.tail

theorem getElem?_outcomes (stages : List (Stage σ)) (results : List StageResult) (i : Nat) :
    (outcomes stages results)[i]? =
      stages[i]?.map fun stage => (stage.name, Status.ofResult results[i]?) := by
  induction stages generalizing results i with
  | nil => rfl
  | cons stage later ih =>
    cases i with
    | zero => simp [outcomes, List.head?_eq_getElem?]
    | succ i => simp [outcomes, ih]

theorem outcomes_nil (stages : List (Stage σ)) :
    outcomes stages [] = stages.map fun stage => (stage.name, .skipped) := by
  induction stages with
  | nil => rfl
  | cons stage later ih => rw [outcomes, List.map_cons, List.tail_nil, ih]; rfl

theorem exists_of_mem_outcomes {stages : List (Stage σ)} {results : List StageResult}
    {w : String × Status} (hw : w ∈ outcomes stages results) :
    ∃ stage ∈ stages, ∃ result, w = (stage.name, Status.ofResult result) := by
  obtain ⟨i, hi⟩ := List.getElem?_of_mem hw
  rw [getElem?_outcomes] at hi
  obtain ⟨stage, hstage, rfl⟩ := Option.map_eq_some_iff.1 hi
  exact ⟨stage, List.mem_of_getElem? hstage, _, rfl⟩

theorem exists_mem_outcomes {stages : List (Stage σ)} {stage : Stage σ} (hstage : stage ∈ stages)
    (results : List StageResult) : ∃ w ∈ outcomes stages results, w.1 = stage.name := by
  obtain ⟨i, hi⟩ := List.getElem?_of_mem hstage
  refine ⟨(stage.name, Status.ofResult results[i]?), List.mem_of_getElem? (i := i) ?_, rfl⟩
  rw [getElem?_outcomes, hi]
  rfl

/-- Running stages writes to the name of each how it came out. That it was running is written over. -/
theorem status_runStages (p : Pipeline σ) (retries : Nat) (stages : List (Stage σ)) (data : Datum)
    (status : StatusBoard) (world : σ) :
    (p.runStages (retries + 1) stages data status world).status =
      status.setEach (outcomes stages (p.runStages (retries + 1) stages data status world).results) := by
  induction stages generalizing data status world with
  | nil => rfl
  | cons stage later ih =>
    obtain ⟨result, world', -, hattempt, -⟩ := stage.attempt_watched 0 data retries none world []
    rw [runStages, hattempt]
    dsimp only
    rw [StatusBoard.set_set, StatusBoard.set_set]
    cases hok : result.success with
    | true =>
      rw [if_pos rfl]
      dsimp only
      rw [ih, outcomes, StatusBoard.setEach_cons, List.head?_cons, Status.ofResult, hok]
      rfl
    | false =>
      rw [if_neg Bool.false_ne_true]
      split
      · dsimp only
        rw [ih, outcomes, StatusBoard.setEach_cons, List.head?_cons, Status.ofResult, hok]
        rfl
      · -- The stages that are left have no results.
        rw [outcomes, StatusBoard.setEach_cons, List.head?_cons, Status.ofResult, hok,
          List.tail_cons, outcomes_nil, StatusBoard.setAll_eq_setEach, List.map_map]
        rfl

theorem addStages_eq (p : Pipeline σ) (stages : List (Stage σ)) :
    p.addStages stages =
      { p with
        stages := p.stages ++ stages
        status := p.status.setEach (stages.map fun stage => (stage.name, .pending)) } := by
  induction stages generalizing p with
  | nil => rw [List.append_nil]; rfl
  | cons stage later ih =>
    change (p.addStage stage).addStages later = _
    rw [ih, addStage, List.append_assoc]
    rfl

/-- Without a single attempt allowed, an execution ends at the first stage, which is running already. -/
theorem execute_of_neg {p : Pipeline σ} (hretries : p.maxRetries < 0) {first : Stage σ}
    {later : List (Stage σ)} (hstages : p.stages = first :: later) (data : Datum) (world : σ) :
    p.execute data world =
      (.error {}, { p with status := p.status.set first.name .running }, world) := by
  have hattempts : p.attempts = 0 := by
    rw [attempts]
    omega
  rw [execute, hattempts, hstages]
  rfl

theorem execute_of_nil {p : Pipeline σ} (hstages : p.stages = []) (data : Datum) (world : σ) :
    (p.execute data world).2 = (p, world) := by
  obtain ⟨id, continueOnFailure, maxRetries, stages, status⟩ := p
  obtain rfl : stages = [] := hstages
  rfl

/-! ## Operations -/

/-- What can be done with a pipeline. -/
inductive Operation (σ : Type) where
  | add (stages : List (Stage σ))
  | execute (data : Datum)

namespace Operation

/-- Does something with a pipeline. Whether an execution returned or not does not matter here. -/
def perform (state : Pipeline σ × σ) : Operation σ → Pipeline σ × σ
  | add stages => (state.1.addStages stages, state.2)
  | execute data => (state.1.execute data state.2).2

/-- The stages that an operation adds. -/
def added : Operation σ → List (Stage σ)
  | add stages => stages
  | execute _ => []

/-- The stages that were added since the last execution, after one more operation. -/
def fresh (recent : List (Stage σ)) : Operation σ → List (Stage σ)
  | add stages => recent ++ stages
  | execute _ => []

/-- An operation adds stages and writes to the names of stages, among them all that it adds. -/
theorem perform_eq (op : Operation σ) (state : Pipeline σ × σ) :
    ∃ writes, (op.perform state).1 =
        { state.1 with
          stages := state.1.stages ++ op.added
          status := state.1.status.setEach writes } ∧
      (∀ stage ∈ op.added, ∃ w ∈ writes, w.1 = stage.name) ∧
      ∀ w ∈ writes, ∃ stage ∈ state.1.stages ++ op.added, stage.name = w.1 := by
  cases op with
  | add stages =>
    refine ⟨_, addStages_eq state.1 stages, ?_, ?_⟩
    · exact fun stage hstage => ⟨_, List.mem_map_of_mem hstage, rfl⟩
    · intro w hw
      obtain ⟨stage, hstage, rfl⟩ := List.mem_map.1 hw
      exact ⟨stage, List.mem_append_right _ hstage, rfl⟩
  | execute data =>
    obtain ⟨p, world⟩ := state
    simp only [added, List.append_nil]
    rcases Int.lt_or_le p.maxRetries 0 with hneg | hretries
    · cases hstages : p.stages with
      | nil =>
        refine ⟨[], ?_, nofun, nofun⟩
        rw [perform, execute_of_nil hstages, ← hstages]
        rfl
      | cons first later =>
        -- The one write that is not about an outcome.
        refine ⟨[(first.name, .running)], ?_, nofun, ?_⟩
        · rw [perform, execute_of_neg hneg hstages, ← hstages]
          rfl
        · intro w hw
          obtain rfl := List.mem_singleton.1 hw
          exact ⟨first, List.mem_cons_self, rfl⟩
    · refine ⟨outcomes p.stages
        (p.runStages (p.maxRetries.toNat + 1) p.stages data p.status world).results, ?_, nofun, ?_⟩
      · rw [perform, p.execute_eq hretries, status_runStages]
      · intro w hw
        obtain ⟨stage, hstage, result, rfl⟩ := exists_of_mem_outcomes hw
        exact ⟨stage, hstage, rfl⟩

end Operation

/-- Does several things with a pipeline, one after the other. -/
def performAll (p : Pipeline σ) (world : σ) (ops : List (Operation σ)) : Pipeline σ × σ :=
  ops.foldl Operation.perform (p, world)

/-- The stages that operations add. -/
def addedStages (ops : List (Operation σ)) : List (Stage σ) := ops.flatMap Operation.added

/-- The stages that operations add after their last execution. -/
def recentStages (ops : List (Operation σ)) : List (Stage σ) := ops.foldl Operation.fresh []

theorem performAll_concat (p : Pipeline σ) (world : σ) (ops : List (Operation σ))
    (op : Operation σ) :
    p.performAll world (ops ++ [op]) = op.perform (p.performAll world ops) := by
  unfold performAll
  rw [List.foldl_append]
  rfl

/-- A board with the names of some stages and no others, each of them once. -/
structure Keyed (stages : List (Stage σ)) (board : StatusBoard) : Prop where
  nodup : board.names.Nodup
  mem_names : ∀ name, name ∈ board.names ↔ ∃ stage ∈ stages, stage.name = name

/-- A board on which no stage is running, and pending are those of the given stages. -/
structure Fresh (recent : List (Stage σ)) (board : StatusBoard) : Prop where
  not_running : ∀ entry ∈ board, entry.2 ≠ .running
  pending : ∀ name, board.get? name = some .pending ↔ ∃ stage ∈ recent, stage.name = name

/-- Writing to names of stages, among them those that are new, keeps a board keyed. -/
theorem Keyed.setEach {stages added : List (Stage σ)} {board : StatusBoard}
    {writes : List (String × Status)} (hboard : Keyed stages board)
    (hadded : ∀ stage ∈ added, ∃ w ∈ writes, w.1 = stage.name)
    (hwrites : ∀ w ∈ writes, ∃ stage ∈ stages ++ added, stage.name = w.1) :
    Keyed (stages ++ added) (board.setEach writes) := by
  refine ⟨StatusBoard.nodup_names_setEach hboard.nodup, fun name => ?_⟩
  rw [StatusBoard.mem_names_setEach, hboard.mem_names]
  constructor
  · rintro (⟨stage, hstage, hname⟩ | ⟨w, hw, rfl⟩)
    · exact ⟨stage, List.mem_append_left _ hstage, hname⟩
    · exact hwrites w hw
  · rintro ⟨stage, hstage, rfl⟩
    rcases List.mem_append.1 hstage with hold | hnew
    · exact Or.inl ⟨stage, hold, rfl⟩
    · exact Or.inr (hadded stage hnew)

theorem Fresh.add {recent : List (Stage σ)} {board : StatusBoard} (hboard : Fresh recent board)
    (stages : List (Stage σ)) :
    Fresh (recent ++ stages)
      (board.setEach (stages.map fun stage => (stage.name, .pending))) := by
  constructor
  · intro entry hentry
    rcases StatusBoard.mem_setEach hentry with hold | hnew
    · exact hboard.not_running entry hold
    · obtain ⟨stage, _, rfl⟩ := List.mem_map.1 hnew
      exact nofun
  · intro name
    -- An added stage makes its name pending even if an earlier stage with it has run.
    by_cases hnew : ∃ stage ∈ stages, stage.name = name
    · obtain ⟨stage, hstage, hname⟩ := hnew
      obtain ⟨w, hw, _, hget⟩ := StatusBoard.exists_get?_setEach board
        ⟨_, List.mem_map_of_mem (f := fun stage : Stage σ => (stage.name, Status.pending)) hstage,
          hname⟩
      obtain ⟨_, _, rfl⟩ := List.mem_map.1 hw
      exact ⟨fun _ => ⟨stage, List.mem_append_right _ hstage, hname⟩, fun _ => hget⟩
    · rw [StatusBoard.get?_setEach_of_notMem, hboard.pending]
      · constructor
        · rintro ⟨stage, hstage, hname⟩
          exact ⟨stage, List.mem_append_left _ hstage, hname⟩
        · rintro ⟨stage, hstage, hname⟩
          rcases List.mem_append.1 hstage with hold | hstage
          · exact ⟨stage, hold, hname⟩
          · exact absurd ⟨stage, hstage, hname⟩ hnew
      · intro w hw hname
        obtain ⟨stage, hstage, rfl⟩ := List.mem_map.1 hw
        exact hnew ⟨stage, hstage, hname⟩

/-- An execution writes to all names, so nothing is left to run. -/
theorem Fresh.outcomes {recent stages : List (Stage σ)} {board : StatusBoard}
    (hboard : Fresh recent board) (hkeyed : Keyed stages board) (results : List StageResult) :
    Fresh ([] : List (Stage σ)) (board.setEach (outcomes stages results)) := by
  constructor
  · intro entry hentry
    rcases StatusBoard.mem_setEach hentry with hold | hnew
    · exact hboard.not_running entry hold
    · obtain ⟨_, _, result, rfl⟩ := exists_of_mem_outcomes hnew
      exact (Status.ofResult_ne result).2
  · intro name
    refine ⟨fun hpending => ?_, nofun⟩
    exfalso
    by_cases hname : ∃ stage ∈ stages, stage.name = name
    · obtain ⟨stage, hstage, rfl⟩ := hname
      obtain ⟨w, hw, _, hget⟩ := StatusBoard.exists_get?_setEach board
        (exists_mem_outcomes hstage results)
      obtain ⟨_, _, result, rfl⟩ := exists_of_mem_outcomes hw
      rw [hget] at hpending
      exact (Status.ofResult_ne result).1 (Option.some.inj hpending)
    · -- A name that no stage has is not on the board at all.
      rw [StatusBoard.get?_setEach_of_notMem] at hpending
      · have hsome : (board.get? name).isSome := by rw [hpending]; rfl
        exact hname ((hkeyed.mem_names name).1 ((StatusBoard.isSome_get? board name).1 hsome))
      · intro w hw heq
        obtain ⟨stage, hstage, _, rfl⟩ := exists_of_mem_outcomes hw
        exact hname ⟨stage, hstage, heq⟩

/-- However it was used, a new pipeline keeps its configuration, and its board has the names of the
stages that were added. -/
theorem keyed_performAll {p : Pipeline σ} (hstages : p.stages = []) (hstatus : p.status = [])
    (world : σ) (ops : List (Operation σ)) :
    (p.performAll world ops).1 =
        { p with
          stages := addedStages ops
          status := (p.performAll world ops).1.status } ∧
      Keyed (addedStages ops) (p.performAll world ops).1.status := by
  -- From the end: the last operation works on the pipeline that the others left.
  induction ops using List.reverseRecOn with
  | nil =>
    obtain ⟨id, continueOnFailure, maxRetries, stages, status⟩ := p
    obtain rfl : stages = [] := hstages
    obtain rfl : status = [] := hstatus
    exact ⟨rfl, List.nodup_nil, fun name => ⟨nofun, nofun⟩⟩
  | append_singleton ops op ih =>
    obtain ⟨hconfig, hkeyed⟩ := ih
    obtain ⟨writes, hop, hadded, hwrites⟩ := op.perform_eq (p.performAll world ops)
    have hnow : (p.performAll world ops).1.stages = addedStages ops := by rw [hconfig]
    have hall : addedStages (ops ++ [op]) = addedStages ops ++ op.added := by simp [addedStages]
    rw [hnow] at hop hwrites
    rw [performAll_concat, hall, hop]
    refine ⟨?_, hkeyed.setEach hadded hwrites⟩
    rw [hconfig]

/-- With attempts allowed, pending is what was added since the last execution, and nothing runs. -/
theorem fresh_performAll {p : Pipeline σ} (hstages : p.stages = []) (hstatus : p.status = [])
    (hretries : 0 ≤ p.maxRetries) (world : σ) (ops : List (Operation σ)) :
    Fresh (recentStages ops) (p.performAll world ops).1.status := by
  induction ops using List.reverseRecOn with
  | nil =>
    change Fresh [] p.status
    rw [hstatus]
    exact ⟨nofun, fun name => ⟨nofun, nofun⟩⟩
  | append_singleton ops op ih =>
    obtain ⟨hconfig, hkeyed⟩ := keyed_performAll hstages hstatus world ops
    have hrecent : recentStages (ops ++ [op]) = op.fresh (recentStages ops) := by
      unfold recentStages
      rw [List.foldl_append]
      rfl
    rw [performAll_concat, hrecent]
    cases op with
    | add stages =>
      rw [Operation.perform, addStages_eq]
      exact ih.add stages
    | execute data =>
      have hallowed : 0 ≤ (p.performAll world ops).1.maxRetries := by
        rw [hconfig]
        exact hretries
      rw [Operation.perform, execute_eq _ hallowed, status_runStages]
      refine ih.outcomes ?_ _
      rw [hconfig]
      exact hkeyed

/-! ## Right after an execution -/

/-- A board that tells what came of an execution. -/
structure Settled (p : Pipeline σ) (calls : List Call) (r : PipelineResult) (board : StatusBoard) :
    Prop where
  reported : board = r.status
  /-- Of the stages with one name, the board tells about the last. -/
  outcome : ∀ (i : Nat) (stage : Stage σ), p.stages[i]? = some stage →
    (∀ (j : Nat) (other : Stage σ), i < j → p.stages[j]? = some other → other.name ≠ stage.name) →
    board.get? stage.name = some (Status.ofResult r.results[i]?)
  /-- The stages that were executed are those with a result. -/
  executed : ∀ i < p.stages.length, (∃ c ∈ calls, c.stage = i) ↔ i < r.results.length
  /-- A stage without a result comes after the failure that stopped the pipeline. -/
  stopped : r.results.length < p.stages.length →
    p.continueOnFailure = false ∧
      ∃ last, r.results.getLast? = some last ∧ last.success = false

/-- An execution that never got to a stage, and left the first one running. -/
structure Unattempted (p : Pipeline σ) (first : Stage σ) (data : Datum) (world : σ) : Prop where
  raises : (p.execute data world).1 = .error {}
  executes_none : (p.watched.execute data (world, [])).2.2 = (world, [])
  names : (p.execute data world).2.1.status.names = p.status.names
  status : ∀ name, (p.execute data world).2.1.status.get? name =
    if name = first.name then some .running else p.status.get? name

namespace Executes

variable {continueOnFailure : Bool} {retries i : Nat} {stages : List (Stage σ)} {data : Datum}
  {calls : List Call} {results : List StageResult}

/-- A stage was executed exactly if it has a result. -/
theorem exists_call_iff (hrun : Executes continueOnFailure retries 0 stages data calls results)
    (hi : i < stages.length) : (∃ c ∈ calls, c.stage = i) ↔ i < results.length := by
  constructor
  · rintro ⟨c, hc, rfl⟩
    have hbound := (hrun.position_bounds c hc).2
    rwa [Nat.zero_add] at hbound
  · intro hresult
    have hattempted := hrun.attempted (List.getElem?_eq_getElem hi)
      (List.getElem?_eq_getElem hresult)
    -- There is no result without a last attempt.
    obtain ⟨earlier, last, hcalls, _, _⟩ := hattempted.last
    have hlast : last ∈ calls.filter (·.stage = 0 + i) := by
      rw [hcalls]
      exact List.mem_append_right _ List.mem_cons_self
    obtain ⟨hmem, hstage⟩ := List.mem_filter.1 hlast
    exact ⟨last, hmem, by simpa using hstage⟩

/-- If stages are left, the last result is the failure that stopped the pipeline. -/
theorem getLast?_of_lt (hrun : Executes continueOnFailure retries i stages data calls results)
    (hlt : results.length < stages.length) :
    continueOnFailure = false ∧ ∃ last, results.getLast? = some last ∧ last.success = false := by
  induction hrun with
  | done => exact absurd hlt (Nat.lt_irrefl _)
  | @next i stage later data calls calls' result results _ _ _ ih =>
    rw [List.length_cons, List.length_cons] at hlt
    obtain ⟨hstop, last, hlast, hfail⟩ := ih (Nat.lt_of_succ_lt_succ hlt)
    refine ⟨hstop, last, ?_, hfail⟩
    rw [List.getLast?_cons, hlast]
    rfl
  | @stop i stage later data calls result _ hfail hstop => exact ⟨hstop, result, rfl, hfail⟩

end Executes

theorem settled_execute {p : Pipeline σ} (hretries : 0 ≤ p.maxRetries) (data : Datum) (world : σ) :
    ∃ r calls, (p.execute data world).1 = .ok r ∧
      (p.watched.execute data (world, [])).1 = .ok r ∧
      (p.watched.execute data (world, [])).2.2 = ((p.execute data world).2.2, calls) ∧
      p.Settled calls r (p.execute data world).2.1.status := by
  obtain ⟨calls, hsame, hworld, hexecutes⟩ := p.execute_watched hretries data world
  rw [hsame, hworld, p.execute_eq hretries]
  refine ⟨_, calls, rfl, rfl, rfl, rfl, ?_, ?_, ?_⟩
  · intro i stage hstage hlast
    rw [status_runStages]
    refine StatusBoard.get?_setEach_of_last (i := i) ?_ ?_
    · rw [getElem?_outcomes, hstage]
      rfl
    · intro j w hj hw
      rw [getElem?_outcomes] at hw
      obtain ⟨other, hother, rfl⟩ := Option.map_eq_some_iff.1 hw
      exact hlast j other hj hother
  · exact fun i hi => hexecutes.exists_call_iff hi
  · exact hexecutes.getLast?_of_lt

theorem unattempted_execute {p : Pipeline σ} (hretries : p.maxRetries < 0) {first : Stage σ}
    {later : List (Stage σ)} (hstages : p.stages = first :: later)
    (hkeyed : Keyed p.stages p.status) (data : Datum) (world : σ) :
    p.Unattempted first data world := by
  -- Setting a name that is on the board adds none.
  have hfirst : first.name ∈ p.status.names :=
    (hkeyed.mem_names _).2 ⟨first, hstages ▸ List.mem_cons_self, rfl⟩
  have hwatched : p.watched.stages = first.watched 0 :: watchAll 1 later := by
    rw [watched, hstages, watchAll_cons]
  constructor
  · rw [execute_of_neg hretries hstages]
  · rw [execute_of_neg (p := p.watched) hretries hwatched]
  · rw [execute_of_neg hretries hstages, StatusBoard.names_set, if_pos hfirst]
  · intro name
    rw [execute_of_neg hretries hstages, StatusBoard.get?_set]

/-- However a new pipeline was used, its board has the names of the stages that were added. If attempts
are allowed, no stage is running, those are pending that were added since the last execution, and right
after an execution every name tells how the last stage with it came out. Otherwise an execution only sets
the first stage running. -/
theorem board_tells_latest_outcomes (id : String) (continueOnFailure : Bool) (maxRetries : Int)
    (world : σ) (ops : List (Operation σ)) :
    let now := performAll { id, continueOnFailure, maxRetries } world ops
    now.1.stages = addedStages ops ∧ Keyed (addedStages ops) now.1.status ∧
      (0 ≤ maxRetries → Fresh (recentStages ops) now.1.status ∧
        ∀ data, ∃ r calls, (now.1.execute data now.2).1 = .ok r ∧
          (now.1.watched.execute data (now.2, [])).1 = .ok r ∧
          (now.1.watched.execute data (now.2, [])).2.2 = ((now.1.execute data now.2).2.2, calls) ∧
          now.1.Settled calls r (now.1.execute data now.2).2.1.status) ∧
      (maxRetries < 0 → ∀ first later, addedStages ops = first :: later →
        ∀ data, now.1.Unattempted first data now.2) := by
  intro now
  obtain ⟨hconfig, hkeyed⟩ :=
    keyed_performAll (p := { id, continueOnFailure, maxRetries }) rfl rfl world ops
  have hstages : now.1.stages = addedStages ops := congrArg Pipeline.stages hconfig
  have hsame : now.1.maxRetries = maxRetries := congrArg Pipeline.maxRetries hconfig
  refine ⟨hstages, hkeyed, fun hretries => ⟨?_, fun data => ?_⟩, ?_⟩
  · exact fresh_performAll rfl rfl hretries world ops
  · exact settled_execute (hsame ▸ hretries) data now.2
  · intro hretries first later hadded data
    exact unattempted_execute (hsame ▸ hretries) (hstages.trans hadded) (hstages ▸ hkeyed) data
      now.2

/-- Two stages share a name, and one name is used again after an execution. -/
def repeatedNames : List (Operation Tape) :=
  [.add [replay "load" true, replay "save" true, replay "load" true],
    .execute (.value (.array [])), .add [replay "save" true]]

theorem board_tells_latest_outcomes_repeatedNames :
    (0 ≤ (1 : Int) ∧ Fresh [replay "save" true]
      (performAll ⟨"names", false, 1, [], []⟩ faultyTape repeatedNames).1.status) ∧
    (-1 : Int) < 0 ∧
      addedStages repeatedNames =
        replay "load" true :: [replay "save" true, replay "load" true, replay "save" true] ∧
      (performAll ⟨"names", false, -1, [], []⟩ faultyTape repeatedNames).1.Unattempted
        (replay "load" true) .null
        (performAll ⟨"names", false, -1, [], []⟩ faultyTape repeatedNames).2 :=
  ⟨⟨by decide, ((board_tells_latest_outcomes "names" false 1 faultyTape repeatedNames).2.2.1
      (by decide)).1⟩,
    by decide, rfl, (board_tells_latest_outcomes "names" false (-1) faultyTape
      repeatedNames).2.2.2 (by decide) _ _ rfl .null⟩

end Pipeline

end ImportAtlas
