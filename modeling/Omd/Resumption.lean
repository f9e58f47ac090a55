import Omd.Collection
import Omd.Effects.Attempt

/-!
# A task that is taken up again

The gate of `finish`, `commit` and `connect` asks that every write orbit of the task is held by the
caller.  It goes by all rows that carry the task: one that ended under an earlier owner fails the
gate of the next, for as long as the row is not archived, and the rows of a task that has not ended
are not.
-/

namespace Omd

open Lib

variable {s : Store} {now : Time} {task : TaskId} {agent : AgentId} {fence : ℕ}

/-- The write orbits of the task that the agent holds and that have not expired. -/
def Store.ownWrites (s : Store) (now : Time) (task : TaskId) (agent : AgentId) : List Orbit :=
  (s.writesForTask task).filter fun o =>
    o.agentId = agent && o.state = .HELD && !reached o.expiresAt now

/-- The agent of a task that was started presents the largest fence of what it holds. -/
structure Store.Resumes (s : Store) (now : Time) (task : TaskId) (agent : AgentId) (fence : ℕ) :
    Prop where
  owner : ∃ t, s.getTask task = some t ∧ t.agentId = some agent
  fence : maxFence (s.ownWrites now task agent) = some fence

/-- The refusal of the gate of Phase A. -/
def fencedOut : Reply := .fenceOut "stale fence: lease expired/released during work"

/-- The gates of `finish` and `commit` and of Phase A pass the caller on. -/
def Store.PassesFence (s : Store) (task : TaskId) (agent : AgentId) (fence : ℕ) : Prop :=
  checkTaskWriteFence s task (some agent) (some fence) = none ∧
    ∀ git t, s.getTask task = some t →
      connectGates git s t (some agent) (some fence) ≠ .inl fencedOut

theorem maxFence_eq {rows : List Orbit} : maxFence rows = some fence ↔
    (∃ o ∈ rows, o.fence = some fence) ∧ ∀ o ∈ rows, ∀ g, o.fence = some g → g ≤ fence := by
  rw [maxFence, List.max?_eq_some_iff]
  simp only [List.mem_filterMap]
  constructor
  · rintro ⟨⟨o, ho, same⟩, bound⟩
    exact ⟨⟨o, ho, same⟩, fun r hr g hg => bound g ⟨r, hr, hg⟩⟩
  · rintro ⟨⟨o, ho, same⟩, bound⟩
    refine ⟨⟨o, ho, same⟩, ?_⟩
    rintro g ⟨r, hr, hg⟩
    exact bound r hr g hg

/-- The rows pass the gate exactly if all are held by the caller, with its fence the largest. -/
theorem staleWrites_eq_nil {writes : List Orbit} (some_ : writes ≠ []) :
    staleWrites writes (some agent) (some fence) = [] ↔
      (∀ o ∈ writes, o.state = .HELD ∧ o.agentId = agent) ∧ maxFence writes = some fence := by
  have foreign : (writes.filter fun o => (some agent : Option AgentId) ≠ none &&
      some agent ≠ some o.agentId).map Orbit.orbitId = [] ↔ ∀ o ∈ writes, o.agentId = agent := by
    rw [List.map_eq_nil_iff, List.filter_eq_nil_iff]
    refine forall₂_congr fun o _ => ?_
    simp only [ne_eq, reduceCtorEq, not_false_eq_true, decide_true, Bool.true_and,
      decide_eq_true_eq, not_not, Option.some.injEq]
    exact eq_comm
  constructor
  · intro h
    have held := held_of_staleWrites h
    have lapsed : (writes.filter fun o => o.state ≠ .HELD).map Orbit.orbitId = [] := by
      rw [List.map_eq_nil_iff, List.filter_eq_nil_iff]
      intro o ho
      simpa using held o ho
    rw [staleWrites, lapsed, if_neg (not_not.mpr rfl)] at h
    split at h
    · -- a fence that is not the largest leaves every row stale
      obtain ⟨none_, rest⟩ := List.append_eq_nil_iff.mp h
      rw [none_, List.filter_eq_nil_iff] at rest
      obtain ⟨o, ho⟩ := List.exists_mem_of_ne_nil writes some_
      exact absurd (by simp) (rest o.orbitId (List.mem_map_of_mem ho))
    · rename_i largest
      rw [not_and, not_not] at largest
      exact ⟨fun o ho => ⟨held o ho, foreign.mp h o ho⟩, (largest (by simp)).symm⟩
  · rintro ⟨own, largest⟩
    have lapsed : (writes.filter fun o => o.state ≠ .HELD).map Orbit.orbitId = [] := by
      rw [List.map_eq_nil_iff, List.filter_eq_nil_iff]
      intro o ho
      simpa using (own o ho).1
    rw [staleWrites, lapsed, if_neg (not_not.mpr rfl), largest, if_neg (by simp)]
    exact foreign.mpr fun o ho => (own o ho).2

theorem refuse_ne_fencedOut (reason : String) : Reply.refuse reason ≠ fencedOut := by
  intro h
  cases congrArg Reply.fencedOut h

/-- Both gates go by the same rows. -/
theorem passesFence_iff {t : Task} (found : s.getTask task = some t)
    (owner : t.agentId = some agent) (some_ : s.writesForTask task ≠ []) :
    s.PassesFence task agent fence ↔
      staleWrites (s.writesForTask task) (some agent) (some fence) = [] := by
  have id : t.taskId = task := Table.key_of_get found
  have gate : checkTaskWriteFence s task (some agent) (some fence) = none ↔
      staleWrites (s.writesForTask task) (some agent) (some fence) = [] := by
    rw [checkTaskWriteFence, if_neg (by simp), found]
    dsimp only
    rw [owner, if_neg (by simp)]
    split
    · rename_i none_
      simp [none_]
    · rename_i stale
      simp [stale]
  rw [Store.PassesFence, gate, and_iff_left_iff_imp]
  rintro fresh git t' found' refused
  cases found.symm.trans found'
  rw [connectGates, id, if_neg some_, if_neg (not_not.mpr fresh)] at refused
  dsimp only at refused
  split at refused
  · exact refuse_ne_fencedOut _ (Sum.inl.inj refused)
  split at refused
  · exact refuse_ne_fencedOut _ (Sum.inl.inj refused)
  · cases refused

/-- The collector keeps the rows of a task that has not ended. -/
theorem keeps_of_live {o : Orbit} {t : Task} {retention : ℚ} (found : s.getTask task = some t)
    (live : t.state.terminal = false) (of : o.taskId = some task) :
    s.archivesOrbit now retention o = false := by
  have id : t.taskId = task := Table.key_of_get found
  have stays : t.collected now ∈ (s.withoutArchived now retention).tasks := by
    refine List.mem_filter.mpr ⟨List.mem_map_of_mem (Table.mem_of_get found), ?_⟩
    rw [Bool.not_eq_true', ← Bool.not_eq_true]
    intro archived
    have ended := archivesTask_terminal archived
    rw [live] at ended
    cases ended
  rw [← Bool.not_eq_true]
  intro archived
  rw [Store.archivesOrbit, Store.orbitArchivable, Bool.and_eq_true, List.all_eq_true] at archived
  have unused := archived.2 _ stays
  rw [Task.collected_state, live, Task.collected_taskId, id, (o.collected_sameRow now).taskId, of]
    at unused
  simp at unused

/-- An agent that takes a task up again passes the gates if and only if every write orbit of the
task in the live table is its own, is held, and has no larger fence than it presents.  The rows of
a task that has not ended stay in the live table. -/
theorem resumes_iff (h : s.Resumes now task agent fence) :
    (s.PassesFence task agent fence ↔ ∀ o ∈ s.writesForTask task,
      o.state = .HELD ∧ o.agentId = agent ∧ ∀ g, o.fence = some g → g ≤ fence) ∧
    ∀ later retention t, s.getTask task = some t → t.state.terminal = false →
      ∀ o ∈ s.writesForTask task, ∃ o' ∈ (s.gcTerminal later retention).writesForTask task,
        o'.orbitId = o.orbitId ∧ o'.state = o.state ∧ o'.agentId = o.agentId := by
  obtain ⟨⟨t, found, owner⟩, largest⟩ := h
  obtain ⟨⟨own, mem, same⟩, -⟩ := maxFence_eq.mp largest
  have mem : own ∈ s.writesForTask task := List.mem_of_mem_filter mem
  constructor
  · rw [passesFence_iff found owner (List.ne_nil_of_mem mem),
      staleWrites_eq_nil (List.ne_nil_of_mem mem), maxFence_eq]
    constructor
    · rintro ⟨rows, -, bound⟩ o ho
      exact ⟨(rows o ho).1, (rows o ho).2, bound o ho⟩
    · intro rows
      exact ⟨fun o ho => ⟨(rows o ho).1, (rows o ho).2.1⟩, ⟨own, mem, same⟩,
        fun o ho => (rows o ho).2.2⟩
  · intro later retention t' found' live o ho
    have orbit : o ∈ s.orbits ∧ o.taskId = some task := by
      rw [Store.writesForTask, Store.orbitsForTask, List.mem_filter, List.mem_filter] at ho
      exact ⟨ho.1.1, of_decide_eq_true (Bool.and_eq_true_iff.mp ho.1.2).1⟩
    have row := o.collected_sameRow later
    refine ⟨o.collected later, ?_, row.orbitId, o.collected_state, row.agentId⟩
    have stays : s.archivesOrbit later retention o = false := keeps_of_live found' live orbit.2
    rw [Store.writesForTask, Store.orbitsForTask, List.mem_filter, List.mem_filter] at ho ⊢
    rw [row.taskId, row.kind, row.mode]
    exact ⟨⟨mem_gcTerminal_orbits.mpr ⟨o, orbit.1, stays, rfl⟩, ho.1.2⟩, ho.2⟩

/-- The cuts of a begin, from its call to its last read. -/
def beginBy (agent : AgentId) (i : ℕ) (now : Time) : List (Env × Action) :=
  (Action.begin { taskId := "T", agentId := agent, writes := ["a"] }).at now ::
    List.replicate 7 ((Action.resume i {}).at now)

/-- An agent starts a task and bails; the task waits again, and another agent starts it. -/
def takenUpAgain : List (Env × Action) :=
  beginBy "A" 0 1 ++
  [ (Action.bail "A" none).at 2, (Action.resume 1 {}).at 2, (Action.resume 1 {}).at 2 ] ++
  beginBy "B" 2 3

instance : Decidable (s.Resumes now task agent fence) :=
  decidable_of_iff ((s.getTask task).any (fun t => t.agentId = some agent) = true ∧
    maxFence (s.ownWrites now task agent) = some fence)
    ⟨fun h => ⟨by simpa [Option.any_eq_true] using h.1, h.2⟩,
      fun h => ⟨by simpa [Option.any_eq_true] using h.owner, h.fence⟩⟩

/-- Who starts the task first passes the gates. -/
theorem resumes_iff_first : ∃ σ, Reachable {} σ ∧ σ.store.Resumes 1 "T" "A" 1 ∧
    σ.store.PassesFence "T" "A" 1 := by
  obtain ⟨σ, reach, resumes, rows⟩ : ∃ σ, Reachable {} σ ∧ σ.store.Resumes 1 "T" "A" 1 ∧
      ∀ o ∈ σ.store.writesForTask "T", o.state = .HELD ∧ o.agentId = "A" ∧ o.fence = some 1 :=
    exists_reachable (beginBy "A" 0 1) (by decide +kernel)
  refine ⟨σ, reach, resumes, (resumes_iff resumes).1.mpr fun o ho => ?_⟩
  obtain ⟨held, own, same⟩ := rows o ho
  refine ⟨held, own, fun g hg => ?_⟩
  cases same.symm.trans hg
  exact le_rfl

/-- Who takes it up again is refused: by the gates, and by `finish`. -/
theorem takenUpAgain_refused : ∃ σ, Reachable {} σ ∧ σ.store.Resumes 3 "T" "B" 2 ∧
    (∃ o ∈ σ.store.writesForTask "T", o.agentId = "A" ∧ o.state = .EXPIRED) ∧
    ¬ σ.store.PassesFence "T" "B" 2 ∧
    ∃ s r, finish 3 σ.store "T" (some "B") (some 2) none none = .ok (s, r) ∧ r.ok = some false ∧
      r.fencedOut = true := by
  obtain ⟨σ, reach, resumes, ended, refused, finished⟩ : ∃ σ, Reachable {} σ ∧
      σ.store.Resumes 3 "T" "B" 2 ∧
      (∃ o ∈ σ.store.writesForTask "T", o.agentId = "A" ∧ o.state = .EXPIRED) ∧
      (checkTaskWriteFence σ.store "T" (some "B") (some 2)).isSome = true ∧
      ((finish 3 σ.store "T" (some "B") (some 2) none none).toOption.any fun left =>
        left.2.ok = some false ∧ left.2.fencedOut = true) = true :=
    exists_reachable takenUpAgain (by decide +kernel)
  refine ⟨σ, reach, resumes, ended, fun passes => ?_, ?_⟩
  · rw [passes.1] at refused
    cases refused
  · cases h : finish 3 σ.store "T" (some "B") (some 2) none none with
    | error e =>
        rw [h] at finished
        cases finished
    | ok left =>
        rw [h] at finished
        exact ⟨left.1, left.2, rfl, of_decide_eq_true finished⟩

end Omd
