import Omd.Deadlines
import Omd.Generations

/-!
# What the collector hides

The collector moves rows that have ended to the archive, where nobody looks for them.  A
task that is merged stays merged, but to a barrier the archived party is dead, and to a
task that depends on it the archived dependency is not merged; and a request whose rows are
all archived starts again at the first generation.  So the collector goes unseen exactly
when it leaves these rows where they are.
-/

namespace Omd

open Lib

variable {cfg : Cfg} {now : Time} {retention : ℚ} {s s' : Store} {c : Scope} {t : Task} {o : Orbit}
  {id : TaskId} {b : Barrier}

/-! ## The rows that stay -/

/-- A task as the collector stamps it. -/
def Task.collected (t : Task) (now : Time) : Task :=
  if !t.state.terminal then { t with terminalAt := none }
  else if t.terminalAt = none then
    { t with terminalAt := some (if t.state = .MERGED then t.mergedAt.getD now else now) }
  else t

/-- An orbit as the collector stamps it. -/
def Orbit.collected (o : Orbit) (now : Time) : Orbit :=
  if o.state.terminal ∧ o.terminalAt = none then
    { o with terminalAt := some (o.releasedAt.getD now) }
  else o

/-- The task leaves the table. -/
def Store.archivesTask (s : Store) (now : Time) (retention : ℚ) (t : Task) : Bool :=
  (s.stampTerminal now).taskArchivable (now - retention) (t.collected now)

/-- The table of tasks that decides about the orbits. -/
def Store.withoutArchived (s : Store) (now : Time) (retention : ℚ) : Store :=
  { s.stampTerminal now with
    tasksArchive := s.tasksArchive ++
      (s.stampTerminal now).tasks.filter ((s.stampTerminal now).taskArchivable (now - retention))
    tasks := (s.stampTerminal now).tasks.filter fun t =>
      !(s.stampTerminal now).taskArchivable (now - retention) t }

/-- The orbit leaves the table. -/
def Store.archivesOrbit (s : Store) (now : Time) (retention : ℚ) (o : Orbit) : Bool :=
  (s.withoutArchived now retention).orbitArchivable (now - retention) (o.collected now)

theorem Orbit.collected_sameRow (o : Orbit) (now : Time) : o.SameRow (o.collected now) := by
  rw [Orbit.collected]
  split <;> rfl

@[simp] theorem Orbit.collected_state : (o.collected now).state = o.state := by
  simp only [Orbit.collected]
  split_ifs <;> rfl

@[simp] theorem Orbit.collected_fence : (o.collected now).fence = o.fence := by
  simp only [Orbit.collected]
  split_ifs <;> rfl

@[simp] theorem Task.collected_taskId : (t.collected now).taskId = t.taskId := by
  simp only [Task.collected]
  split_ifs <;> rfl

@[simp] theorem Task.collected_state : (t.collected now).state = t.state := by
  simp only [Task.collected]
  split_ifs <;> rfl

@[simp] theorem Task.collected_deps : (t.collected now).deps = t.deps := by
  simp only [Task.collected]
  split_ifs <;> rfl

theorem gcTerminal_tasks : (s.gcTerminal now retention).tasks =
    (s.tasks.filter fun t => !s.archivesTask now retention t).map fun t => t.collected now :=
  List.filter_map

theorem gcTerminal_orbits : (s.gcTerminal now retention).orbits =
    (s.orbits.filter fun o => !s.archivesOrbit now retention o).map fun o => o.collected now :=
  List.filter_map

theorem mem_gcTerminal_tasks : t ∈ (s.gcTerminal now retention).tasks ↔
    ∃ t₀ ∈ s.tasks, s.archivesTask now retention t₀ = false ∧ t₀.collected now = t := by
  rw [gcTerminal_tasks]
  simp [and_assoc]

theorem mem_gcTerminal_orbits : o ∈ (s.gcTerminal now retention).orbits ↔
    ∃ o₀ ∈ s.orbits, s.archivesOrbit now retention o₀ = false ∧ o₀.collected now = o := by
  rw [gcTerminal_orbits]
  simp [and_assoc]

theorem mem_gcTerminal_archive : o ∈ (s.gcTerminal now retention).orbitsArchive ↔
    o ∈ s.orbitsArchive ∨
      ∃ o₀ ∈ s.orbits, s.archivesOrbit now retention o₀ = true ∧ o₀.collected now = o := by
  have archive : (s.gcTerminal now retention).orbitsArchive = s.orbitsArchive ++
      (s.orbits.filter fun o => s.archivesOrbit now retention o).map fun o => o.collected now :=
    congrArg _ List.filter_map
  rw [archive]
  simp [and_assoc]

theorem gcTerminal_moves (s : Store) (now : Time) (retention : ℚ) (ok : s.Ok) :
    Micros ⟨{ terminalRetention := some retention }, now, fun _ => True⟩ nobody s
      (s.gcTerminal now retention) :=
  gcTerminal_does (c := ⟨_, now, _⟩) ⟨trivial, fun _ => trivial⟩ rfl ok

theorem gcTerminal_ok (ok : s.Ok) : (s.gcTerminal now retention).Ok :=
  ok.micros (gcTerminal_moves s now retention ok)

theorem archivesTask_terminal (h : s.archivesTask now retention t = true) :
    t.state.terminal = true := by
  simp only [Store.archivesTask, Store.taskArchivable, Bool.and_eq_true] at h
  simpa using h.1.1

theorem archivesOrbit_terminal (h : s.archivesOrbit now retention o = true) :
    o.state.terminal = true := by
  simp only [Store.archivesOrbit, Store.orbitArchivable, Bool.and_eq_true] at h
  simpa using h.1.1

/-! ## What the readers of the tables see -/

theorem gcTerminal_getTask (ok : s.Ok) (h : s.getTask id = some t) :
    (s.gcTerminal now retention).getTask id =
      if s.archivesTask now retention t then none else some (t.collected now) := by
  obtain ⟨ht, rfl⟩ := ok.getTask.mp h
  split
  · rename_i archived
    refine Table.get_eq_none.mpr fun r hr same => ?_
    obtain ⟨t₀, ht₀, stays, rfl⟩ := mem_gcTerminal_tasks.mp hr
    have eq : t₀ = t := ok.task_eq ht₀ ht (Task.collected_taskId.symm.trans same)
    rw [eq, archived] at stays
    cases stays
  · rename_i stays
    refine (gcTerminal_ok ok).getTask.mpr ⟨mem_gcTerminal_tasks.mpr ?_, Task.collected_taskId⟩
    exact ⟨t, ht, Bool.eq_false_iff.mpr stays, rfl⟩

theorem gcTerminal_getTask_none (h : s.getTask id = none) :
    (s.gcTerminal now retention).getTask id = none := by
  refine Table.get_eq_none.mpr fun r hr same => ?_
  obtain ⟨t₀, ht₀, -, rfl⟩ := mem_gcTerminal_tasks.mp hr
  exact Table.get_eq_none.mp h t₀ ht₀ (Task.collected_taskId.symm.trans same)

/-- No orbit that is held leaves the table, so fences stay. -/
theorem gcTerminal_partyWriteFence (task : TaskId) :
    partyWriteFence (s.gcTerminal now retention) task = partyWriteFence s task := by
  simp only [partyWriteFence, maxFence, Store.writesForTask, Store.orbitsForTask,
    gcTerminal_orbits, List.filter_map, List.filter_filter, List.filterMap_map]
  refine congrArg List.max? ?_
  refine (List.filterMap_congr (g := Orbit.fence) fun o _ => Orbit.collected_fence).trans ?_
  refine congrArg (List.filterMap Orbit.fence) (List.filter_congr fun o _ => ?_)
  have row : o.SameRow (o.collected now) := o.collected_sameRow now
  simp only [Function.comp, Orbit.collected_state, row.mode, row.taskId, row.kind]
  by_cases held : o.state = .HELD
  · have stays : s.archivesOrbit now retention o = false := by
      by_contra archived
      have ended := archivesOrbit_terminal (Bool.eq_true_of_not_eq_false archived)
      rw [held] at ended
      cases ended
    simp [held, stays]
  · simp [held]

/-! ## The verdict of a barrier -/

/-- The barriers and their parties. -/
def Store.board (s : Store) : List Barrier × List BarrierParty := (s.barriers, s.barrierParties)

/-- What `_barrier_eval` decides: the barriers and their parties after it, and its plan. -/
def barrierVerdict (now : Time) (canTrip : Bool) (s : Store) (id : BarrierId) :
    Except Fault ((List Barrier × List BarrierParty) × Option (List TripStep)) :=
  (barrierEval now s id canTrip).map fun r => (r.1.board, r.2)

/-- Two stores that look the same to a barrier. -/
structure Alike (s s' : Store) : Prop where
  board : s'.board = s.board
  alive : ∀ p, partyAlive s' p = partyAlive s p
  merged : ∀ id, (s'.getTask id).map Task.state = some .MERGED ↔
    (s.getTask id).map Task.state = some .MERGED

namespace Alike

theorem barriers (h : Alike s s') : s'.barriers = s.barriers := congrArg Prod.fst h.board

theorem parties (h : Alike s s') : s'.barrierParties = s.barrierParties := congrArg Prod.snd h.board

theorem partiesOf (h : Alike s s') (id : BarrierId) (generation : ℕ) :
    s'.partiesOf id generation = s.partiesOf id generation := by
  rw [Store.partiesOf, Store.partiesOf, h.parties]

theorem deadParties (h : Alike s s') (b : Barrier) :
    Omd.deadParties s' b = Omd.deadParties s b := by
  rw [Omd.deadParties, Omd.deadParties, h.partiesOf]
  exact List.filter_congr fun p _ => by rw [h.alive]

theorem liveParties (h : Alike s s') (b : Barrier) :
    Omd.liveParties s' b = Omd.liveParties s b := by
  rw [Omd.liveParties, Omd.liveParties, h.partiesOf]
  exact List.filter_congr fun p _ => h.alive p

theorem shrinkBarrier (h : Alike s s') (b : Barrier) :
    Alike (Omd.shrinkBarrier s b) (Omd.shrinkBarrier s' b) where
  board := by
    simp only [Omd.shrinkBarrier, Store.board, Store.setBarrier, h.barriers, h.parties,
      h.deadParties, h.liveParties]
  alive := h.alive
  merged := h.merged

theorem breakBarrier (h : Alike s s') (b : Barrier) (reason : String) :
    (Omd.breakBarrier s' b reason).map Store.board =
      (Omd.breakBarrier s b reason).map Store.board := by
  simp only [Omd.breakBarrier]
  split
  · exact congrArg Except.ok h.board
  · cases advanceBarrier b.state .break_ with
    | error e => rfl
    | ok state =>
        refine congrArg Except.ok ?_
        simp only [Store.board, Store.setBarrier, h.barriers, h.parties]

/-- A break answers without a plan. -/
theorem broken (h : Alike s s') (b : Barrier) (reason : String) :
    ((Omd.breakBarrier s' b reason >>= fun s => .ok (s, none) :
        Except Fault (Store × Option (List TripStep))).map fun r => (r.1.board, r.2)) =
      (Omd.breakBarrier s b reason >>= fun s => .ok (s, none) :
        Except Fault (Store × Option (List TripStep))).map fun r => (r.1.board, r.2) := by
  have same := h.breakBarrier b reason
  cases h₁ : Omd.breakBarrier s' b reason with
  | error e =>
      cases h₂ : Omd.breakBarrier s b reason with
      | error e' =>
          rw [h₁, h₂] at same
          cases same
          rfl
      | ok s₂ =>
          rw [h₁, h₂] at same
          cases same
  | ok s₁ =>
      cases h₂ : Omd.breakBarrier s b reason with
      | error e' =>
          rw [h₁, h₂] at same
          cases same
      | ok s₂ =>
          rw [h₁, h₂] at same
          have board : s₁.board = s₂.board := Except.ok.inj same
          exact congrArg (fun b => Except.ok (b, none)) board

theorem barrierEvalLive (h : Alike s s') (now : Time) (canTrip : Bool) (b : Barrier) :
    ((Omd.barrierEvalLive now canTrip s' b).map fun r => (r.1.board, r.2)) =
      (Omd.barrierEvalLive now canTrip s b).map fun r => (r.1.board, r.2) := by
  simp only [Omd.barrierEvalLive, h.liveParties]
  split
  · exact h.broken b "timeout"
  split
  · cases advanceBarrier .ARMED .fill with
    | error e => rfl
    | ok state =>
        refine congrArg Except.ok (Prod.ext ?_ (congrArg some ?_))
        · simp only [Store.board, Store.setBarrier, h.barriers, h.parties]
        · refine congrArg _ (List.filter_congr fun p _ => ?_)
          have merged := h.merged p.taskId
          simp only [ne_eq, decide_eq_decide, not_iff_not]
          exact merged
  · exact congrArg (fun b => Except.ok (b, none)) h.board

end Alike

theorem taskDependents_eq_nil :
    taskDependents s id = [] ↔ ∀ r ∈ s.tasks, r.taskId ≠ id → id ∉ r.deps := by
  simp [taskDependents, List.filter_eq_nil_iff]

/-- All of the parties can be shed: no task depends on them. -/
def shedsAll (s : Store) (dead : List BarrierParty) : Bool :=
  dead.all fun d => (taskDependents s d.taskId).isEmpty

theorem shedsAll_iff {dead : List BarrierParty} : shedsAll s dead = true ↔
    ∀ d ∈ dead, ∀ r ∈ s.tasks, r.taskId ≠ d.taskId → d.taskId ∉ r.deps := by
  simp [shedsAll, taskDependents_eq_nil]

/-- Stores that look the same to a barrier, and shed its dead alike, give it one verdict. -/
theorem Alike.verdict (h : Alike s s') (found : s.getBarrier b.barrierId = some b)
    (shed : b.policy = .shrink →
      shedsAll s' (Omd.deadParties s b) = shedsAll s (Omd.deadParties s b))
    (now : Time) (canTrip : Bool) :
    barrierVerdict now canTrip s' b.barrierId = barrierVerdict now canTrip s b.barrierId := by
  have found' : s'.getBarrier b.barrierId = some b := by
    rw [Store.getBarrier, h.barriers]
    exact found
  rw [barrierVerdict, barrierVerdict, barrierEval, barrierEval, found, found']
  dsimp only
  split
  · exact congrArg (fun b => Except.ok (b, none)) h.board
  simp only [h.deadParties]
  split
  · exact h.barrierEvalLive now canTrip b
  by_cases policy : b.policy = .shrink
  · have shed := shed policy
    rw [shedsAll, shedsAll] at shed
    rw [shed]
    split
    · exact (h.shrinkBarrier b).barrierEvalLive now canTrip b
    · exact h.broken b "participant_dead"
  · simp only [policy, false_and, if_false]
    exact h.broken b "participant_dead"

/-- A time before the deadline. -/
theorem exists_not_reached (deadline : Option Time) : ∃ now, reached deadline now = false := by
  cases deadline with
  | none => exact ⟨0, rfl⟩
  | some t => exact ⟨t - 1, by simp [reached]⟩

/-- Before its deadline a barrier whose dead are kept breaks, and one that sheds them does
not: a verdict tells which. -/
theorem shedsAll_of_verdict (h : Alike s s') (found : s.getBarrier b.barrierId = some b)
    (armed : b.state = .ARMED) (policy : b.policy = .shrink)
    (same : ∀ now canTrip,
      barrierVerdict now canTrip s' b.barrierId = barrierVerdict now canTrip s b.barrierId)
    (shed : shedsAll s' (deadParties s b) = true) : shedsAll s (deadParties s b) = true := by
  by_contra kept
  have dead : deadParties s b ≠ [] := by
    intro none
    rw [none] at kept
    exact kept rfl
  have found' : s'.getBarrier b.barrierId = some b := by
    rw [Store.getBarrier, h.barriers]
    exact found
  obtain ⟨now, early⟩ := exists_not_reached b.deadlineAt
  have same := same now false
  rw [barrierVerdict, barrierVerdict, barrierEval, barrierEval, found, found'] at same
  dsimp only at same
  rw [shedsAll] at shed kept
  simp only [armed, ne_eq, not_true_eq_false, if_false, h.deadParties, dead, policy, true_and, shed,
    if_true, kept, barrierEvalLive, early, Bool.false_eq_true, false_and] at same
  cases hbreak : breakBarrier s b "participant_dead" with
  | error e =>
      rw [hbreak] at same
      cases same
  | ok s₁ =>
      rw [hbreak] at same
      have board : (shrinkBarrier s' b).barriers = s₁.barriers :=
        congrArg (fun r => r.1.1) (Except.ok.inj same)
      have broken := breakBarrier_broken armed found hbreak
      have stays := getBarrier_shrinkBarrier (s := s') (b := b)
      rw [found', Store.getBarrier, board] at stays
      have state : (s₁.getBarrier b.barrierId).map Barrier.state = some b.state :=
        congrArg (Option.map Barrier.state) stays
      rw [broken, armed] at state
      cases state

/-! ## What goes unseen -/

/-- The collector is not seen: the armed barriers get the verdicts they got, what was
merged is merged, and no request is given a generation that is archived. -/
structure GcInvisible (s s' : Store) : Prop where
  verdict : ∀ b ∈ s.barriers, b.state = .ARMED → ∀ now canTrip,
    barrierVerdict now canTrip s' b.barrierId = barrierVerdict now canTrip s b.barrierId
  deps : ∀ deps, depsMerged s' deps = depsMerged s deps
  generations : ∀ id, ∀ o ∈ s'.orbitsArchive, o.requestId = some id →
    o.kind = .orbit → o.requestGeneration ≠ s'.nextRequestGeneration id

/-- The collector leaves what is looked for: merged tasks, a task that keeps the dead of a
barrier from being shed, and a last row of each request. -/
structure GcQuiet (s : Store) (now : Time) (retention : ℚ) : Prop where
  merged : ∀ t ∈ s.tasks, t.state = .MERGED → s.archivesTask now retention t = false
  dependents : ∀ b ∈ s.barriers, b.state = .ARMED → b.policy = .shrink →
    (∃ d ∈ deadParties s b, ∃ r ∈ s.tasks, r.taskId ≠ d.taskId ∧ d.taskId ∈ r.deps) →
      ∃ d ∈ deadParties s b, ∃ r ∈ s.tasks, r.taskId ≠ d.taskId ∧ d.taskId ∈ r.deps ∧
        s.archivesTask now retention r = false
  generations : ∀ id o,
    o ∈ s.orbitsArchive ∨ o ∈ s.orbits ∧ s.archivesOrbit now retention o = true →
    o.requestId = some id → o.kind = .orbit →
      ∃ r ∈ s.orbitsOfRequest id, s.archivesOrbit now retention r = false ∧
        o.requestGeneration ≤ r.requestGeneration

theorem gcTerminal_merged (ok : s.Ok)
    (kept : ∀ t ∈ s.tasks, t.state = .MERGED → s.archivesTask now retention t = false)
    (id : TaskId) : ((s.gcTerminal now retention).getTask id).map Task.state = some .MERGED ↔
      (s.getTask id).map Task.state = some .MERGED := by
  cases h : s.getTask id with
  | none => rw [gcTerminal_getTask_none h]
  | some t =>
      rw [gcTerminal_getTask ok h]
      split
      · rename_i archived
        refine iff_of_false (by simp) fun merged => ?_
        rw [kept t (ok.getTask.mp h).1 (Option.some.inj merged)] at archived
        cases archived
      · rw [Option.map_some, Option.map_some, Task.collected_state]

/-- When no merged task is archived, barriers see the same parties. -/
theorem gcTerminal_alike (ok : s.Ok)
    (kept : ∀ t ∈ s.tasks, t.state = .MERGED → s.archivesTask now retention t = false) :
    Alike s (s.gcTerminal now retention) where
  board := rfl
  merged := gcTerminal_merged ok kept
  alive := by
    intro p
    rw [partyAlive, partyAlive, gcTerminal_partyWriteFence]
    cases h : s.getTask p.taskId with
    | none => rw [gcTerminal_getTask_none h]
    | some t =>
        rw [gcTerminal_getTask ok h]
        by_cases archived : s.archivesTask now retention t = true
        · -- an archived party was dead before: it has ended, and is not merged
          rw [if_pos archived]
          have ended := archivesTask_terminal archived
          have unmerged : t.state ≠ .MERGED := by
            intro merged
            rw [kept t (ok.getTask.mp h).1 merged] at archived
            cases archived
          have dead : t.state = .ABORTED ∨ t.state = .POISONED := by
            cases hstate : t.state <;> simp [hstate, TaskState.terminal] at ended unmerged ⊢
          exact (if_pos dead).symm
        · rw [if_neg archived]
          simp only [Task.collected_state]

theorem shedsAll_gcTerminal {dead : List BarrierParty} :
    shedsAll (s.gcTerminal now retention) dead = true ↔
      ∀ d ∈ dead, ∀ r ∈ s.tasks, s.archivesTask now retention r = false →
        r.taskId ≠ d.taskId → d.taskId ∉ r.deps := by
  rw [shedsAll_iff]
  constructor
  · intro h d hd r hr stays ne
    have := h d hd (r.collected now) (mem_gcTerminal_tasks.mpr ⟨r, hr, stays, rfl⟩)
    simpa [ne] using this
  · intro h d hd r hr ne
    obtain ⟨t, ht, stays, rfl⟩ := mem_gcTerminal_tasks.mp hr
    simpa using h d hd t ht stays (by simpa using ne)

/-- The next generation of a request after the collector. -/
theorem mem_gcTerminal_request {id : RequestId} :
    o ∈ (s.gcTerminal now retention).orbitsOfRequest id ↔
      ∃ r ∈ s.orbitsOfRequest id, s.archivesOrbit now retention r = false ∧
        r.collected now = o := by
  simp only [mem_orbitsOfRequest, mem_gcTerminal_orbits]
  constructor
  · rintro ⟨⟨r, hr, stays, rfl⟩, request, kind⟩
    have row : r.SameRow (r.collected now) := r.collected_sameRow now
    exact ⟨r, ⟨hr, row.requestId ▸ request, row.kind ▸ kind⟩, stays, rfl⟩
  · rintro ⟨r, ⟨hr, request, kind⟩, stays, rfl⟩
    have row : r.SameRow (r.collected now) := r.collected_sameRow now
    exact ⟨⟨r, hr, stays, rfl⟩, row.requestId.trans request, row.kind.trans kind⟩

theorem GcQuiet.invisible (h : GcQuiet s now retention) (ok : s.Ok) :
    GcInvisible s (s.gcTerminal now retention) where
  verdict := by
    intro b hb armed now' canTrip
    have found : s.getBarrier b.barrierId = some b := ok.barrierIds.get_of_mem hb
    refine (gcTerminal_alike ok h.merged).verdict found (fun policy => ?_) now' canTrip
    rw [Bool.eq_iff_iff, shedsAll_gcTerminal, shedsAll_iff]
    constructor
    · intro free d hd r hr ne dep
      obtain ⟨d', hd', r', hr', ne', dep', stays⟩ :=
        h.dependents b hb armed policy ⟨d, hd, r, hr, ne, dep⟩
      exact free d' hd' r' hr' stays ne' dep'
    · exact fun free d hd r hr _ => free d hd r hr
  deps := by
    intro deps
    simp only [depsMerged, gcTerminal_merged ok h.merged]
  generations := by
    intro id o ho request kind same
    obtain ⟨r, hr, stays, above⟩ : ∃ r ∈ s.orbitsOfRequest id,
        s.archivesOrbit now retention r = false ∧ o.requestGeneration ≤ r.requestGeneration := by
      rcases mem_gcTerminal_archive.mp ho with ho | ⟨o₀, ho₀, archived, rfl⟩
      · exact h.generations id o (Or.inl ho) request kind
      · have row : o₀.SameRow (o₀.collected now) := o₀.collected_sameRow now
        rw [row.requestGeneration]
        exact h.generations id o₀ (Or.inr ⟨ho₀, archived⟩) (row.requestId ▸ request)
          (row.kind ▸ kind)
    have mem := mem_gcTerminal_request.mpr ⟨r, hr, stays, rfl⟩
    have below := lt_nextRequestGeneration mem
    rw [(r.collected_sameRow now).requestGeneration, ← same] at below
    exact absurd below above.not_gt

theorem GcInvisible.quiet (h : GcInvisible s (s.gcTerminal now retention)) (ok : s.Ok)
    (dense : ∀ id, s.Dense id) : GcQuiet s now retention := by
  have merged : ∀ t ∈ s.tasks, t.state = .MERGED → s.archivesTask now retention t = false := by
    intro t ht merged
    by_contra archived
    have found : s.getTask t.taskId = some t := ok.getTask.mpr ⟨ht, rfl⟩
    have gone : (s.gcTerminal now retention).getTask t.taskId = _ := gcTerminal_getTask ok found
    rw [if_pos (Bool.eq_true_of_not_eq_false archived)] at gone
    have same := h.deps [t.taskId]
    simp [depsMerged, found, gone, merged] at same
  refine ⟨merged, ?_, ?_⟩
  · intro b hb armed policy kept
    have found : s.getBarrier b.barrierId = some b := ok.barrierIds.get_of_mem hb
    by_contra none
    push Not at none
    obtain ⟨d, hd, r, hr, ne, dep⟩ := kept
    have shed : shedsAll (s.gcTerminal now retention) (deadParties s b) = true := by
      refine shedsAll_gcTerminal.mpr fun d hd r hr stays ne dep => ?_
      exact none d hd r hr ne dep stays
    have all := shedsAll_of_verdict (gcTerminal_alike ok merged) found armed policy
      (h.verdict b hb armed) shed
    exact shedsAll_iff.mp all d hd r hr ne dep
  · -- below an archived row the next generation would be one that is archived
    intro id o ho request kind
    by_contra none
    push Not at none
    have dense' : (s.gcTerminal now retention).Dense id := by
      refine (Micros.invariant (I := fun s => s.Dense id) ?_
        (gcTerminal_moves s now retention ok) ok (dense id)).2
      exact fun s₁ s₂ ok₁ dense step => dense.micro ok₁ step
    obtain ⟨o', ho', row⟩ : ∃ o' ∈ (s.gcTerminal now retention).orbitsArchive, o.SameRow o' := by
      rcases ho with ho | ⟨ho, archived⟩
      · exact ⟨o, mem_gcTerminal_archive.mpr (Or.inl ho), .refl o⟩
      · exact ⟨_, mem_gcTerminal_archive.mpr (Or.inr ⟨o, ho, archived, rfl⟩),
          o.collected_sameRow now⟩
    have history : o' ∈ (s.gcTerminal now retention).historyOf id :=
      mem_historyOf.mpr ⟨Or.inr ho', row.requestId.trans request, row.kind.trans kind⟩
    have below : (s.gcTerminal now retention).nextRequestGeneration id ≤
        o'.requestGeneration := by
      by_contra above
      obtain ⟨r', hr', le⟩ := exists_of_lt_nextRequestGeneration (not_le.mp above)
      obtain ⟨r, hr, stays, rfl⟩ := mem_gcTerminal_request.mp hr'
      rw [row.requestGeneration, (r.collected_sameRow now).requestGeneration] at le
      exact absurd le (none r hr stays).not_ge
    obtain ⟨q, hq, gen⟩ : ∃ q ∈ (s.gcTerminal now retention).historyOf id,
        q.requestGeneration =
          (s.gcTerminal now retention).nextRequestGeneration id := by
      rcases below.lt_or_eq with lower | equal
      · exact dense' o' history _ lower
      · exact ⟨o', history, equal.symm⟩
    obtain ⟨mem, request', kind'⟩ := mem_historyOf.mp hq
    rcases mem with mem | mem
    · have lower := lt_nextRequestGeneration (mem_orbitsOfRequest.mpr ⟨mem, request', kind'⟩)
      exact absurd gen lower.ne
    · exact h.generations id q mem request' kind' gen

/-- In a state that a run reaches, the collector goes unseen exactly when it is quiet. -/
theorem gcTerminal_invisible_iff {σ : Sys} (h : Reachable cfg σ) (now : Time) (retention : ℚ) :
    GcInvisible σ.store (σ.store.gcTerminal now retention) ↔ GcQuiet σ.store now retention := by
  have ok : σ.store.Ok := (ReachableBy.ok h).store
  constructor
  · exact fun unseen => unseen.quiet ok (ReachableBy.dense h)
  · exact fun quiet => quiet.invisible ok

/-! ## A collector that goes unseen, and one that is seen -/

/-- A task is merged under a request, and is a party of a barrier with one that waits. -/
def mergedParty : List (Env × Action) :=
  [ (Action.call (.declare { taskId := "T", writes := ["a"] })).at 1,
    (Action.call .nextTask).at 1,
    (Action.call (.claim { agentId := "A", pathspec := ["a"], taskId := some "T",
                           requestId := some "R" })).at 2,
    (Action.call (.start "T" "A" none none)).at 3,
    (Action.call (.finish "T" (some "A") (some 1) none none)).at 3,
    (Action.connect { taskId := "T", agentId := some "A", fence := some 1 }).at 4,
    (Action.resume 0 {}).at 4, (Action.resume 0 {}).at 4, (Action.resume 0 {}).at 4,
    (Action.resume 0 {}).at 4, (Action.resume 0 {}).at 4,
    (Action.call (.declare { taskId := "U", writes := ["b"] })).at 5,
    (Action.call (.claim { agentId := "B", pathspec := ["b"], taskId := some "U" })).at 5,
    (Action.call (.barrierDeclare "x" ["T", "U"] .break_ none)).at 6 ]

/-- A task is cancelled and a request rolled over, and later a party of a barrier is merged. -/
def cancelledEarlier : List (Env × Action) :=
  [ (Action.call (.declare { taskId := "V", writes := ["c"] })).at 1,
    (Action.call (.claim { agentId := "A", pathspec := ["c"], requestId := some "Q" })).at 1,
    (Action.call (.release 0 "A" (some 1) none none)).at 2,
    (Action.call (.cancel "V" none)).at 3,
    (Action.call .sweep).at 5,
    (Action.call (.rolloverClaim 0 "A" 0 0 "x")).at 6,
    (Action.call (.declare { taskId := "T", writes := ["a"] })).at 31,
    (Action.call .nextTask).at 31,
    (Action.call (.claim { agentId := "A", pathspec := ["a"], taskId := some "T",
                           requestId := some "R" })).at 32,
    (Action.call (.start "T" "A" none none)).at 33,
    (Action.call (.finish "T" (some "A") (some 3) none none)).at 33,
    (Action.connect { taskId := "T", agentId := some "A", fence := some 3 }).at 34,
    (Action.resume 0 {}).at 34, (Action.resume 0 {}).at 34, (Action.resume 0 {}).at 34,
    (Action.resume 0 {}).at 34, (Action.resume 0 {}).at 34,
    (Action.call (.declare { taskId := "U", writes := ["b"] })).at 35,
    (Action.call (.claim { agentId := "B", pathspec := ["b"], taskId := some "U" })).at 35,
    (Action.call (.barrierDeclare "x" ["T", "U"] .break_ none)).at 36 ]

/-- What is archived is the cancelled task and the first row of the request that goes on. -/
theorem mergedParty_kept : ∃ σ, Reachable { terminalRetention := some 50 } σ ∧
    (∃ b ∈ σ.store.barriers, b.state = .ARMED) ∧
    (∃ t ∈ σ.store.tasks, t.state = .MERGED) ∧
    (∃ t ∈ σ.store.tasks, σ.store.archivesTask 60 50 t = true) ∧
    (∃ o ∈ σ.store.orbits, o.requestId = some "Q" ∧ σ.store.archivesOrbit 60 50 o = true) ∧
    GcInvisible σ.store (σ.store.gcTerminal 60 50) := by
  have run : ∃ σ, Reachable { terminalRetention := some 50 } σ ∧
      (∃ b ∈ σ.store.barriers, b.state = .ARMED) ∧
      (∃ t ∈ σ.store.tasks, t.state = .MERGED) ∧
      (∃ t ∈ σ.store.tasks, σ.store.archivesTask 60 50 t = true) ∧
      (∃ o ∈ σ.store.orbits, o.requestId = some "Q" ∧ σ.store.archivesOrbit 60 50 o = true) ∧
      (∀ t ∈ σ.store.tasks, t.state = .MERGED → σ.store.archivesTask 60 50 t = false) ∧
      (∀ b ∈ σ.store.barriers, b.policy ≠ .shrink) ∧
      (∀ o ∈ σ.store.orbits, σ.store.archivesOrbit 60 50 o = true →
        ∃ r ∈ σ.store.orbits, r.requestId = o.requestId ∧ r.kind = .orbit ∧
          σ.store.archivesOrbit 60 50 r = false ∧ o.requestGeneration ≤ r.requestGeneration) ∧
      σ.store.orbitsArchive.length = 0 :=
    exists_reachable cancelledEarlier (by decide +kernel)
  obtain ⟨σ, reachable, armed, merged, task, orbit, kept, policies, above, archive⟩ := run
  refine ⟨σ, reachable, armed, merged, task, orbit,
    (gcTerminal_invisible_iff reachable 60 50).mpr ⟨kept, ?_, ?_⟩⟩
  · exact fun b hb _ policy => absurd policy (policies b hb)
  · rintro id o (ho | ⟨ho, archived⟩) request -
    · rw [List.length_eq_zero_iff.mp archive] at ho
      cases ho
    · obtain ⟨r, hr, same, kind, stays, le⟩ := above o ho archived
      exact ⟨r, mem_orbitsOfRequest.mpr ⟨hr, same.trans request, kind⟩, stays, le⟩

/-- The states of the barriers after `_barrier_eval`. -/
def evaluated (now : Time) (s : Store) (id : BarrierId) : Option (List BarrierState) :=
  (barrierVerdict now false s id).toOption.map fun r => r.1.1.map Barrier.state

/-- After it the barrier breaks, the merged task is no dependency that is met, and the
request starts again at a generation that is archived. -/
theorem mergedParty_archived : ∃ σ, Reachable {} σ ∧
    ¬ GcInvisible σ.store (σ.store.gcTerminal 100 50) ∧
    evaluated 100 σ.store ("x", 0) = some [.ARMED] ∧
    evaluated 100 (σ.store.gcTerminal 100 50) ("x", 0) = some [.BROKEN] ∧
    depsMerged σ.store ["T"] = true ∧ depsMerged (σ.store.gcTerminal 100 50) ["T"] = false ∧
    ∃ o ∈ (σ.store.gcTerminal 100 50).orbitsArchive, o.requestId = some "R" ∧
      o.requestGeneration =
        (σ.store.gcTerminal 100 50).nextRequestGeneration "R" := by
  have run : ∃ σ, Reachable {} σ ∧ evaluated 100 σ.store ("x", 0) = some [.ARMED] ∧
      evaluated 100 (σ.store.gcTerminal 100 50) ("x", 0) = some [.BROKEN] ∧
      depsMerged σ.store ["T"] = true ∧ depsMerged (σ.store.gcTerminal 100 50) ["T"] = false ∧
      ∃ o ∈ (σ.store.gcTerminal 100 50).orbitsArchive, o.requestId = some "R" ∧
        o.requestGeneration =
          (σ.store.gcTerminal 100 50).nextRequestGeneration "R" :=
    exists_reachable mergedParty (by decide +kernel)
  obtain ⟨σ, reachable, armed, broken, merged, unmet, again⟩ := run
  refine ⟨σ, reachable, fun unseen => ?_, armed, broken, merged, unmet, again⟩
  rw [unseen.deps, merged] at unmet
  cases unmet

end Omd
