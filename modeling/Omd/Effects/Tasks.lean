import Omd.Effects.Claim

/-!
# The effect of the verbs of a task

Declaring, starting, finishing and cancelling a task each write one row of `tasks`, by a
transition of the task machine; cancelling also closes the orbits of the task, which is
aborted by then.
-/

namespace Omd

open Lib

variable {c : Scope} {E : TaskId → Prop} {s s' : Store}

/-! ## Declaring -/

theorem addTask_does {t : Task} (may : c.may (.declare t.taskId t.deps t.reads))
    (state : t.state = .PENDING) (synced : t.readSyncedGen = none)
    (token : t.connectTokenId = none) (attempt : t.connectAttemptId = none) (marked : t.Marked) :
    Does c E s (s.addTask t) := by
  rw [Store.addTask]
  split
  · rename_i hnone
    exact .micro fun _ => .declare t ⟨Or.inl may, hnone, state, synced, token, attempt, marked⟩
      (.refl _)
  · refine Does.setTask fun r _ hid => ?_
    exact ⟨rfl, .declare (hid ▸ may), Or.inl rfl, fun _ task h => hid.trans (marked task h),
      .keep rfl rfl rfl rfl⟩

/-- A declaration is refused, or inserts the task or writes over what it declared. -/
theorem declare_takes {now : Time} (d : DeclareArgs)
    (may : c.may (.declare d.taskId (d.deps.getD []) d.reads)) :
    Takes c s (declare now s d).1 := by
  rw [declare]
  split
  · exact .refl s
  · split
    · exact .refl s
    · exact (addTask_does may rfl rfl rfl rfl fun _ h => by cases h).takes

/-- A new dependency is appended, unless it closes a cycle. -/
theorem depend_takes (task after : TaskId)
    (may : ∀ t ∈ s.tasks, t.taskId = task → c.may (.declare task (t.deps ++ [after]) t.reads)) :
    Takes c s (depend s task after).1 := by
  rw [depend]
  split
  · exact .refl s
  rename_i t hget
  split
  · exact .refl s
  split
  · exact .refl s
  · refine Does.takes fun ok => Does.setTask (fun r hr hid => ?_) ok
    obtain ⟨ht, hid'⟩ := ok.getTask.mp hget
    cases ok.task_eq hr ht (hid.trans hid'.symm)
    exact ⟨rfl, .declare (hid ▸ may t hr hid), Or.inl rfl, fun marked => marked,
      .keep rfl rfl rfl rfl⟩

/-! ## Handing out and starting -/

theorem advanceTask_eq {state state' : TaskState} {trigger : TaskTrigger}
    (h : advanceTask state trigger = .ok state') : taskTransition state trigger = some state' :=
  legal_eq_ok.mp h

/-- Only a task that waits becomes ready. -/
theorem ready_cases {state state' : TaskState} (h : advanceTask state .ready = .ok state') :
    (state = .PENDING ∨ state = .BLOCKED) ∧ state' = .READY := by
  have h := advanceTask_eq h
  cases state <;> cases h <;> simp

/-- Only a task that is ready or claimed is started. -/
theorem startedState_cases {state state' : TaskState} (h : startedState state = .ok state') :
    (state = .READY ∨ state = .CLAIMED) ∧ state' = .IN_ORBIT := by
  cases state <;> cases h <;> simp

theorem finish_cases {state state' : TaskState} (h : advanceTask state .finish = .ok state') :
    state = .IN_ORBIT ∧ state' = .DONE := by
  have h := advanceTask_eq h
  cases state <;> cases h
  exact ⟨rfl, rfl⟩

theorem abort_eq {state state' : TaskState} (h : advanceTask state .abort = .ok state') :
    state' = .ABORTED := by
  have h := advanceTask_eq h
  cases state <;> cases h <;> rfl

/-- The write of a row that was read in the same section. -/
theorem Does.setTask_of_get {id : TaskId} {t : Task} {f : Task → Task}
    (get : s.getTask id = some t) (step : TaskStep c E s t (f t)) :
    Does c E s (s.setTask id f) := by
  intro ok
  refine Does.setTask (fun r hr hid => ?_) ok
  obtain ⟨ht, hid'⟩ := ok.getTask.mp get
  rwa [ok.task_eq hr ht (hid.trans hid'.symm)]

/-- The sweep may archive and reclaim; the choice of a task then makes one ready whose dependencies
are merged. -/
theorem nextTask_takes {r : Reply} (agents : c.may .agents)
    (archive : Collecting c.may)
    (may : ∀ a, s.Stale c.cfg c.now a → c.may (.zombie a))
    (h : nextTask c.cfg c.now s = .ok (s', r)) : Takes c s s' := by
  rw [nextTask, Outcome.bind_eq_ok] at h
  obtain ⟨s₁, h₁, h⟩ := h
  refine (sweepInline_takes agents archive may h₁).trans ?_
  split at h
  · cases h
    exact .refl _
  · rename_i t hpick
    split at h
    · cases h
      exact .refl _
    · rw [Outcome.bind_eq_ok] at h
      obtain ⟨state, hstate, h⟩ := h
      cases h
      obtain ⟨waiting, rfl⟩ := ready_cases hstate
      have hmem : t ∈ s₁.tasks := by
        have := List.mem_of_find?_eq_some hpick
        rw [Store.tasksByState, List.mem_insertionSort] at this
        exact List.mem_of_mem_filter this
      have merged : depsMerged s₁ t.deps = true := by
        have admissible := List.find?_some hpick
        rw [taskAdmissible, Bool.and_eq_true, Bool.and_eq_true] at admissible
        exact admissible.1.1
      refine Does.takes fun ok => Does.setTask (fun r hr hid => ?_) ok
      rw [ok.task_eq hr hmem hid]
      exact ⟨rfl, .same rfl rfl, Or.inl rfl, id,
        .ready (waiting.imp_right Or.inl) (Or.inl merged) rfl rfl rfl rfl⟩

/-- A start writes over one admitted task, for an agent that is alive. -/
theorem startBody_takes {env : Env} {task : TaskId} {agent : AgentId} {epoch : Option ℕ}
    {r : Result} (agents : c.may .agents) (may : c.may (.start task))
    (h : startBody env s task agent epoch = .ok (s', r)) : Takes c s s' := by
  rw [startBody] at h
  split at h
  · cases h
    exact .refl _
  rename_i halive
  split at h
  · cases h
  rename_i t hget
  split at h
  · cases h
    exact .refl _
  · rw [Outcome.bind_eq_ok] at h
    obtain ⟨state, hstate, h⟩ := h
    obtain ⟨admitted, rfl⟩ := startedState_cases hstate
    have hid : t.taskId = task := Table.key_of_get hget
    intro ok
    have alive := ok.alive halive
    refine ((upsertAgent_keeps agents alive env.now).takes.trans ?_) ok
    have owner := alive.upsertAgent agent env.now
    have hget' : (s.upsertAgent agent env.now).getTask task = some t := by
      rw [← hget, Store.getTask, Store.getTask, Store.upsertAgent]
      split <;> rfl
    split at h
    · cases h
      exact (Does.setTask_of_get hget' ⟨rfl, .same rfl rfl, Or.inl rfl, id,
        .start (hid ▸ may) admitted rfl ⟨agent, rfl, owner⟩ rfl rfl⟩).takes
    · split at h
      · cases h
      · cases h
        exact (Does.setTask_of_get hget' ⟨rfl, .same rfl rfl, Or.inl rfl, id,
          .start (hid ▸ may) admitted rfl ⟨agent, rfl, owner⟩ rfl rfl⟩).takes

theorem startBody_plain {env : Env} {task : TaskId} {agent : AgentId} {epoch : Option ℕ} :
    Plain (startBody env s task agent epoch) := by
  rw [startBody]
  split
  · exact .set _ _
  split
  · exact .fault _
  split
  · exact .set _ _
  · refine .bind fun _ => ?_
    dsimp only
    split
    · exact .set _ _
    · split
      · exact .fault _
      · exact .set _ _

theorem start_takes {env : Env} {task : TaskId} {agent : AgentId} {requestId : Option RequestId}
    {epoch : Option ℕ} {r : Reply} (agents : c.may .agents) (may : c.may (.start task))
    (clock : env.now = c.now)
    (answer : ∀ id, requestId = some id → r.isSuccess = true →
      c.may (.answer id (.start task) r))
    (h : start env s task agent requestId epoch = .ok (s', r)) : Takes c s s' := by
  rw [start, clock, Outcome.bind_eq_ok] at h
  obtain ⟨⟨s₁, r₁⟩, h₁, h⟩ := h
  cases h
  exact withIdem_takes_plain (fun _ => startBody_plain)
    (fun s₂ s₃ r₂ _ h => startBody_takes agents may h) answer h₁

/-! ## Committing, finishing, refreshing -/

theorem touchAgent_takes (agents : c.may .agents) {agent : Option AgentId} {epoch : Option ℕ}
    (alive : checkAlive s agent epoch = none) (now : Time) :
    Takes c s (touchAgent s agent now) := by
  intro ok
  unfold touchAgent
  split
  · exact .refl
  · split
    · exact .refl
    · exact (upsertAgent_keeps agents (ok.alive alive) now).takes ok

/-- A commit changes no row but that of its agent, whatever the repository answers. -/
theorem commitBody_takes {now : Time} {task : TaskId} {agent : Option AgentId}
    {fence epoch : Option ℕ} {outcome : CommitOutcome} {r : Result} (agents : c.may .agents)
    (h : commitBody now s task agent fence epoch outcome = .ok (s', r)) : Takes c s s' := by
  rw [commitBody] at h
  split at h
  · cases h
    exact .refl _
  rename_i halive
  refine (touchAgent_takes agents halive now).trans ?_
  dsimp only at h
  split at h
  · cases h
    exact .refl _
  split at h
  · cases h
    exact .refl _
  split at h
  · cases h
    exact .refl _
  split at h <;> cases h <;> exact .refl _

theorem commitBody_plain {now : Time} {task : TaskId} {agent : Option AgentId}
    {fence epoch : Option ℕ} {outcome : CommitOutcome} :
    Plain (commitBody now s task agent fence epoch outcome) := by
  rw [commitBody]
  split
  · exact .set _ _
  dsimp only
  split
  · exact .set _ _
  split
  · exact .set _ _
  split
  · exact .set _ _
  split
  · exact .set _ _
  · exact .set _ _
  · exact .fault _

theorem commit_takes {env : Env} {task : TaskId} {msg : String} {agent : Option AgentId}
    {fence : Option ℕ} {requestId : Option RequestId} {epoch : Option ℕ}
    {outcome : CommitOutcome} {r : Reply} (agents : c.may .agents) (clock : env.now = c.now)
    (answer : ∀ id, requestId = some id → r.isSuccess = true →
      c.may (.answer id (.commit task msg fence) r))
    (h : commit env s task msg agent fence requestId epoch outcome = .ok (s', r)) :
    Takes c s s' := by
  rw [commit, clock] at h
  split at h
  · cases h
    exact .refl _
  · rw [Outcome.bind_eq_ok] at h
    obtain ⟨⟨s₁, r₁⟩, h₁, h⟩ := h
    cases h
    exact withIdem_takes_plain (fun _ => commitBody_plain)
      (fun s₂ s₃ r₂ _ h => commitBody_takes agents h) answer h₁

/-- `finish` ends the work on the task: its request is new, its caller may write, and the
task is in progress. -/
structure Finishes (s : Store) (task : TaskId) (agent : Option AgentId) (fence : Option ℕ)
    (requestId : Option RequestId) (epoch : Option ℕ) : Prop where
  fresh : ∀ id, requestId = some id →
    ∃ s₁, enterIdem s id agent (.finish task fence) = .ok (.inr s₁)
  alive : checkAlive s agent epoch = none
  fence : checkTaskWriteFence s task agent fence = none
  busy : ∃ t, s.getTask task = some t ∧ t.state = .IN_ORBIT

theorem checkAlive_congr (agents : s'.agents = s.agents) (agent : Option AgentId)
    (epoch : Option ℕ) : checkAlive s' agent epoch = checkAlive s agent epoch := by
  have same : s'.getAgent = s.getAgent := by
    funext id
    rw [Store.getAgent, Store.getAgent, agents]
  rw [checkAlive, checkAlive, same]

/-- The write fence reads the tasks and the orbits only. -/
theorem checkTaskWriteFence_congr (tasks : s'.tasks = s.tasks) (orbits : s'.orbits = s.orbits)
    (task : TaskId) (agent : Option AgentId) (fence : Option ℕ) :
    checkTaskWriteFence s' task agent fence = checkTaskWriteFence s task agent fence := by
  rw [checkTaskWriteFence, checkTaskWriteFence, Store.getTask, Store.getTask,
    Store.writesForTask, Store.writesForTask, Store.orbitsForTask, Store.orbitsForTask, tasks,
    orbits]

theorem touchAgent_rows (s : Store) (agent : Option AgentId) (now : Time) :
    (touchAgent s agent now).tasks = s.tasks ∧ (touchAgent s agent now).orbits = s.orbits := by
  unfold touchAgent Store.upsertAgent
  split
  · exact ⟨rfl, rfl⟩
  · split
    · exact ⟨rfl, rfl⟩
    · split <;> exact ⟨rfl, rfl⟩

/-- A finish marks the end of a task only for the agent that passes its fence. -/
theorem finishBody_takes {now : Time} {task : TaskId} {agent : Option AgentId}
    {fence epoch : Option ℕ} {r : Result} (agents : c.may .agents)
    (mark : checkAlive s agent epoch = none → checkTaskWriteFence s task agent fence = none →
      (∃ t, s.getTask task = some t ∧ t.state = .IN_ORBIT) → c.may (.mark task "done"))
    (h : finishBody now s task agent fence epoch = .ok (s', r)) : Takes c s s' := by
  rw [finishBody] at h
  split at h
  · cases h
    exact .refl _
  rename_i halive
  refine (touchAgent_takes agents halive now).trans ?_
  obtain ⟨tasks, orbits⟩ := touchAgent_rows s agent now
  dsimp only at h
  split at h
  · cases h
    exact .refl _
  rename_i hfence
  split at h
  · cases h
  rename_i t hget
  split at h
  · cases h
    exact .refl _
  · rw [Outcome.bind_eq_ok] at h
    obtain ⟨state, hstate, h⟩ := h
    cases h
    obtain ⟨started, rfl⟩ := finish_cases hstate
    rw [checkTaskWriteFence_congr tasks orbits] at hfence
    have busy : s.getTask task = some t := by rwa [Store.getTask, tasks] at hget
    have done : Does c nobody (touchAgent s agent now) ((touchAgent s agent now).setTask task
        fun r => { r with state := .DONE }) :=
      Does.setTask_of_get hget ⟨rfl, .same rfl rfl, Or.inl rfl, id, .finish started rfl rfl rfl rfl⟩
    exact done.takes.trans (setFlag_keeps (mark halive hfence ⟨t, busy, started⟩)
      fun merged => absurd merged (by decide)).takes

theorem finishBody_plain {now : Time} {task : TaskId} {agent : Option AgentId}
    {fence epoch : Option ℕ} : Plain (finishBody now s task agent fence epoch) := by
  rw [finishBody]
  split
  · exact .set _ _
  dsimp only
  split
  · exact .set _ _
  split
  · exact .fault _
  split
  · exact .set _ _
  · exact .bind fun _ => .set _ _

theorem finish_takes {task : TaskId} {agent : Option AgentId} {fence : Option ℕ}
    {requestId : Option RequestId} {epoch : Option ℕ} {r : Reply} (agents : c.may .agents)
    (mark : Finishes s task agent fence requestId epoch → c.may (.mark task "done"))
    (answer : ∀ id, requestId = some id → r.isSuccess = true →
      c.may (.answer id (.finish task fence) r))
    (h : finish c.now s task agent fence requestId epoch = .ok (s', r)) : Takes c s s' := by
  rw [finish, Outcome.bind_eq_ok] at h
  obtain ⟨⟨s₁, r₁⟩, h₁, h⟩ := h
  cases h
  by_cases fresh : ∀ id, requestId = some id →
      ∃ s₁, enterIdem s id agent (.finish task fence) = .ok (.inr s₁)
  · refine withIdem_takes_plain (fun _ => finishBody_plain) (fun s₂ s₃ r₂ apart h => ?_) answer h₁
    refine finishBody_takes agents (fun alive hfence busy => mark ⟨fresh, ?_, ?_, ?_⟩) h
    · rwa [checkAlive_congr apart.agents] at alive
    · rwa [checkTaskWriteFence_congr apart.tasks apart.orbits] at hfence
    · rwa [Store.getTask, apart.tasks] at busy
  · rw [withIdem_replayed fresh h₁]
    exact .refl s

/-- A refresh of the reads takes the generation of the moment. -/
theorem refreshReads_does {task : TaskId} (may : c.may (.refresh task)) :
    Does c E s (refreshReads s task) := by
  have sync : Does c E s
      (s.setTask task fun r => { r with readSyncedGen := some s.integrationGen }) := by
    refine Does.setTask fun r _ hid => ?_
    exact ⟨rfl, .same rfl rfl, Or.inl rfl, id, .refresh (hid ▸ may) rfl rfl rfl rfl⟩
  rw [refreshReads]
  refine sync.trans (Does.foldl fun o _ s₁ => ?_)
  refine Does.trans (Does.setOrbit (fun r _ _ => ?_) fun r _ _ => ?_)
    (frame_clearReadStaleSignal _ _).does
  · exact ⟨rfl, .keep rfl rfl rfl (fun _ => Or.inl rfl) fun _ => rfl, fun _ => .same rfl rfl⟩
  · exact .silent fun _ => ⟨rfl, Or.inl rfl⟩

theorem readRefreshBody_takes {task : TaskId} {agent : Option AgentId} {fence epoch : Option ℕ}
    (may : c.may (.refresh task)) :
    Takes c s (readRefreshBody s task agent fence epoch).1 := by
  rw [readRefreshBody]
  split
  · exact .refl s
  split
  · exact .refl s
  dsimp only
  split
  · exact .refl s
  split
  · exact .refl s
  split
  · exact .refl s
  · exact (refreshReads_does may).takes

theorem readRefreshBody_plain {task : TaskId} {agent : Option AgentId} {fence epoch : Option ℕ} :
    Plain (.ok (readRefreshBody s task agent fence epoch)) := by
  rw [readRefreshBody]
  split
  · exact .set _ _
  split
  · exact .set _ _
  dsimp only
  split
  · exact .set _ _
  split
  · exact .set _ _
  split
  · exact .set _ _
  · exact .set _ _

theorem readRefresh_takes {task : TaskId} {agent : Option AgentId}
    {fence : Option ℕ} {requestId : Option RequestId} {epoch : Option ℕ} {r : Reply}
    (may : c.may (.refresh task))
    (answer : ∀ id, requestId = some id → r.isSuccess = true →
      c.may (.answer id (.read_refresh task fence) r))
    (h : readRefresh c.now s task agent fence requestId epoch = .ok (s', r)) : Takes c s s' := by
  rw [readRefresh, Outcome.bind_eq_ok] at h
  obtain ⟨⟨s₁, r₁⟩, h₁, h⟩ := h
  cases h
  refine withIdem_takes_plain (fun _ => readRefreshBody_plain) (fun s₂ s₃ r₂ _ h => ?_) answer h₁
  have body : Takes c s₂ (readRefreshBody s₂ task agent fence epoch).1 :=
    readRefreshBody_takes may
  rw [Except.ok.injEq] at h
  rwa [h] at body

/-! ## Cancelling -/

/-- The request of a row is cleared before its round. -/
theorem Requested.round {s₁ : Store} {o : Orbit} (h : Requested c s s₁)
    (round : Round c E s₁ o s') (ok : s.Ok) : Round c E s o s' where
  run := ((h.keeps E) ok).1.trans round.run
  tasks := round.tasks.trans h.apart.tasks
  agents := round.agents.trans h.apart.agents
  semWaiters := round.semWaiters.trans h.apart.frame.semWaiters
  others := fun r hr => round.others r (h.apart.orbits.symm ▸ hr)
  back := fun r hr => h.apart.orbits ▸ round.back r hr

/-- The close of a row that holds or waits, with its one event. -/
theorem closeRow_spec {s₁ : Store} {o : Orbit} {t : Task} {state : OrbitState}
    {event : AdmissionEvent} {id : AdmissionIdentity} (task : t ∈ s.tasks)
    (of : o.taskId = some t.taskId) (aborted : t.state = .ABORTED)
    (closes : c.may (.close t.taskId)) (kind : o.kind = .orbit)
    (live : o.live = true) (hid : admissionIdentity o = .ok id)
    (reduced : Reduced s o.state.semantic event id true (some state) s₁)
    (notifies : event.notifies = true) (terminal : state.terminal = true) (ok : s.Ok)
    (ho : o ∈ s.orbits) : Wrote c E s o (terminalizeOrbit.closeRow c.now o s₁ state event) ∧
      ∃ o' ∈ (terminalizeOrbit.closeRow c.now o s₁ state event).orbits,
        o'.orbitId = o.orbitId ∧ o'.state.terminal = true := by
  rw [terminalizeOrbit.closeRow]
  constructor
  · refine Wrote.after (.reduced (.refl s) reduced hid rfl kind notifies rfl rfl ?_)
      (frame_readSignal _ _ _)
    exact ⟨rfl, .cancelled task of aborted kind live terminal closes,
      fun _ => .released live (Orbit.live_of_terminal terminal) rfl rfl⟩
  · rw [(frame_readSignal _ _ _).orbits, reduced.store]
    exact ⟨_, ((ok.announce _).mem_setOrbit ho _ _).mpr (Or.inr rfl), rfl, terminal⟩

/-- The close of a row after its request was freed. -/
theorem terminalizeOrbit_spec {s₀ : Store} {o : Orbit} {t : Task} (task : t ∈ s.tasks)
    (of : o.taskId = some t.taskId) (aborted : t.state = .ABORTED)
    (closes : c.may (.close t.taskId)) (kind : o.kind = .orbit)
    (freed : s₀ = match o.requestId with | none => s | some id => s.clearIdem id)
    (ok : s₀.Ok) (apart : Apart s s₀) (ho : o ∈ s₀.orbits)
    (h : terminalizeOrbit c.now s o = .ok s') : Wrote c E s₀ o s' ∧
      ∃ o' ∈ s'.orbits, o'.orbitId = o.orbitId ∧ o'.state.terminal = true := by
  have task₀ : t ∈ s₀.tasks := apart.tasks.symm ▸ task
  rw [terminalizeOrbit] at h
  subst freed
  split at h
  · rename_i pending
    rw [Outcome.bind_eq_ok] at h
    obtain ⟨id, hid, h⟩ := h
    rw [Outcome.bind_eq_ok] at h
    obtain ⟨s₂, h₂, h⟩ := h
    cases h
    refine closeRow_spec task₀ of aborted closes kind (by simp [Orbit.live, pending]) hid ?_
      rfl rfl ok ho
    rw [pending]
    exact assertAdmissionProjection_spec h₂
  split at h
  · rename_i held
    rw [Outcome.bind_eq_ok] at h
    obtain ⟨id, hid, h⟩ := h
    rw [Outcome.bind_eq_ok] at h
    obtain ⟨s₂, h₂, h⟩ := h
    cases h
    refine closeRow_spec task₀ of aborted closes kind (by simp [Orbit.live, held]) hid ?_
      rfl rfl ok ho
    rw [held]
    exact assertAdmissionProjection_spec h₂
  · rename_i pending held
    cases h
    refine ⟨.nothing (.refl _), o, ho, rfl, ?_⟩
    cases hs : o.state with
    | PENDING => exact absurd hs pending
    | HELD => exact absurd hs held
    | RELEASED | EXPIRED | DENIED => rfl

/-- A row of a cancelled task ends, whichever state it was in. -/
theorem terminalizeOrbit_round {o : Orbit} {t : Task} (task : t ∈ s.tasks)
    (of : o.taskId = some t.taskId) (aborted : t.state = .ABORTED)
    (closes : c.may (.close t.taskId)) (kind : o.kind = .orbit)
    (forget : ∀ id, o.requestId = some id → c.may (.forget id)) (ok : s.Ok) (ho : o ∈ s.orbits)
    (h : terminalizeOrbit c.now s o = .ok s') : Round c E s o s' ∧
      ∃ o' ∈ s'.orbits, o'.orbitId = o.orbitId ∧ o'.state.terminal = true := by
  have clear : Requested c s (match o.requestId with | none => s | some id => s.clearIdem id) := by
    split
    · exact .refl s
    · exact clearIdem_requested (forget _ ‹_›)
  have ok₀ := ok.micros ((clear.keeps E) ok).1
  have ho₀ := clear.apart.orbits.symm ▸ ho
  obtain ⟨wrote, closed⟩ :=
    terminalizeOrbit_spec (E := E) task of aborted closes kind rfl ok₀ clear.apart ho₀ h
  exact ⟨clear.round (wrote.round ok₀ ho₀) ok, closed⟩

theorem mem_orbitsForTask {task : TaskId} {o : Orbit} :
    o ∈ s.orbitsForTask task ↔ o ∈ s.orbits ∧ o.taskId = some task ∧ o.kind = .orbit := by
  simp [Store.orbitsForTask]

/-- The rows that a cancelled task is closed by. -/
theorem terminalizeCancelled_looped {t : Task} {closed : List OrbitId} (task : t ∈ s.tasks)
    (aborted : t.state = .ABORTED) (closes : c.may (.close t.taskId))
    (forget : ∀ o ∈ s.orbits, o.kind = .orbit → o.taskId = some t.taskId → ∀ id,
      o.requestId = some id → c.may (.forget id))
    (ok : s.Ok) (h : terminalizeCancelledTaskOrbits c.now s t.taskId = .ok (s', closed)) :
    Looped c E s (s.orbitsForTaskSorted t.taskId) (fun _ o' => o'.state.terminal = true) s' := by
  rw [terminalizeCancelledTaskOrbits, Outcome.bind_eq_ok] at h
  obtain ⟨s₁, h₁, h⟩ := h
  cases h
  have hmem : ∀ o ∈ s.orbitsForTaskSorted t.taskId,
      o ∈ s.orbits ∧ o.taskId = some t.taskId ∧ o.kind = .orbit := by
    intro o ho
    rw [Store.orbitsForTaskSorted, List.mem_insertionSort] at ho
    exact mem_orbitsForTask.mp ho
  refine foldlM_rounds (distinct_insertionSort (ok.orbitIds.filter _))
    (fun o ho => (hmem o ho).1) ?_ h₁ ok
  intro o ho s₂ s₃ ok₂ tasks ho₂ h
  obtain ⟨mem, of, kind⟩ := hmem o ho
  exact terminalizeOrbit_round (tasks.symm ▸ task) of aborted closes kind (forget o mem kind of)
    ok₂ ho₂ h

/-- After the close of a cancelled task no row of it lives. -/
theorem terminalizeCancelled_closed {t : Task} (ok : s.Ok)
    (h : Looped c E s (s.orbitsForTaskSorted t.taskId) (fun _ o' => o'.state.terminal = true) s') :
    ∀ o ∈ s'.orbits, o.taskId = some t.taskId → o.kind = .orbit → o.state.terminal = true := by
  intro o' ho' of kind
  rcases h.row ok ho' with ⟨o, -, -, ended⟩ | ⟨ho, apart⟩
  · exact ended
  · refine absurd rfl (apart o' ?_)
    rw [Store.orbitsForTaskSorted, List.mem_insertionSort]
    exact mem_orbitsForTask.mpr ⟨ho, of, kind⟩

/-- The close of a task that is aborted, and the queue settled after it. -/
theorem cancelled_takes {s₁ s₂ : Store} {t : Task} {closed : List OrbitId} (agents : c.may .agents)
    (may : ∀ a, s.Stale c.cfg c.now a → c.may (.zombie a)) (cancel : c.may (.cancel t.taskId))
    (closes : c.may (.close t.taskId))
    (forget : ∀ o ∈ s.orbits, o.kind = .orbit → o.taskId = some t.taskId → ∀ id,
      o.requestId = some id → c.may (.forget id))
    (idle : s.Ok → ∀ r ∈ s.tasks, r.taskId = t.taskId →
      r.state.admission = true ∨ r.state = .ABORTED)
    (aborts : Does c (· = t.taskId) s s₁) (mem : t ∈ s₁.tasks) (aborted : t.state = .ABORTED)
    (hagents : s₁.agents = s.agents) (horbits : s₁.orbits = s.orbits)
    (h : terminalizeCancelledTaskOrbits c.now s₁ t.taskId = .ok (s₂, closed))
    (h' : reconcileAdmission c.cfg c.now s₂ = .ok s') : Takes c s s' := by
  intro ok
  have ok₁ := ok.micros (aborts ok)
  have looped := terminalizeCancelled_looped (c := c) (E := (· = t.taskId)) mem aborted closes
    (fun o ho kind of => forget o (horbits ▸ ho) kind of) ok₁ h
  have ok₂ := ok₁.micros looped.run
  refine .trans (.single (.cancelled t.taskId ?_)) (reconcileAdmission_takes agents ?_ h' ok₂)
  · refine ⟨cancel, idle ok, (aborts ok).trans looped.run, fun t' ht' hid => ?_,
      fun o ho of kind => ?_⟩
    · rw [ok₁.task_eq (looped.tasks ▸ ht') mem hid]
      exact aborted
    · have ended := terminalizeCancelled_closed ok₁ looped o ho of kind
      simp only [Orbit.live]
      cases hs : o.state <;> simp [hs, OrbitState.terminal] at ended ⊢
  · intro a ha
    exact may a ((ha.of_agents looped.agents).of_agents hagents)

/-- A cancel reconciles before its group, and leaves a task that does not wait. -/
theorem cancelBody_takes {task : TaskId} {r : Result} (agents : c.may .agents)
    (may : ∀ a, s.Stale c.cfg c.now a → c.may (.zombie a)) (cancel : c.may (.cancel task))
    (closes : c.may (.close task))
    (forget : ∀ o ∈ s.orbits, o.kind = .orbit → o.taskId = some task → ∀ id,
      o.requestId = some id → c.may (.forget id))
    (h : cancelBody c.cfg c.now s task = .ok (s', r)) : Takes c s s' := by
  rw [cancelBody] at h
  split at h
  · cases h
    exact .refl _
  rename_i t hget
  have hmem := Table.mem_of_get hget
  have hid : t.taskId = task := Table.key_of_get hget
  subst hid
  split at h
  · rename_i aborted
    rw [Outcome.bind_eq_ok] at h
    obtain ⟨⟨s₁, closed⟩, h₁, h⟩ := h
    rw [Outcome.bind_eq_ok] at h
    obtain ⟨s₂, h₂, h⟩ := h
    cases h
    refine cancelled_takes agents may cancel closes forget (fun ok r hr hid => Or.inr ?_)
      (.refl s) hmem
      aborted rfl rfl h₁ h₂
    rw [ok.task_eq hr hmem hid, aborted]
  split at h
  · cases h
    exact .refl _
  · rename_i admission
    rw [Outcome.bind_eq_ok] at h
    obtain ⟨state, hstate, h⟩ := h
    dsimp only at h
    rw [Outcome.bind_eq_ok] at h
    obtain ⟨⟨s₁, closed⟩, h₁, h⟩ := h
    rw [Outcome.bind_eq_ok] at h
    obtain ⟨s₂, h₂, h⟩ := h
    cases h
    cases abort_eq hstate
    have aborts : Does c (· = t.taskId) s
        (s.setTask t.taskId fun r => { r with state := .ABORTED }) :=
      Does.setTask_of_get hget ⟨rfl, .same rfl rfl, Or.inl rfl, id,
        .abort rfl (by simpa using admission) rfl rfl rfl rfl⟩
    intro ok
    refine cancelled_takes (t := { t with state := .ABORTED }) agents may cancel closes forget
      (fun _ r hr hid => Or.inl ?_) aborts ?_ rfl rfl rfl h₁ h₂ ok
    · rw [ok.task_eq hr hmem hid]
      simpa using admission
    · exact (ok.mem_setTask hmem _ _).mpr (Or.inr rfl)

theorem cancelBody_plain {cfg : Cfg} {now : Time} {task : TaskId} :
    Plain (cancelBody cfg now s task) := by
  rw [cancelBody]
  split
  · exact .set _ _
  split
  · exact .bind fun _ => .bind fun _ => .set _ _
  split
  · exact .set _ _
  · exact .bind fun _ => .bind fun _ => .bind fun _ => .set _ _

theorem cancel_takes {task : TaskId} {requestId : Option RequestId} {r : Reply}
    (agents : c.may .agents) (may : ∀ a, s.Stale c.cfg c.now a → c.may (.zombie a))
    (close : c.may (.cancel task)) (closes : c.may (.close task))
    (forget : ∀ o ∈ s.orbits, o.kind = .orbit → o.taskId = some task → ∀ id,
      o.requestId = some id → c.may (.forget id))
    (answer : ∀ id, requestId = some id → r.isSuccess = true →
      c.may (.answer id (.cancel task) r))
    (h : cancel c.cfg c.now s task requestId = .ok (s', r)) : Takes c s s' := by
  rw [cancel, Outcome.bind_eq_ok] at h
  obtain ⟨⟨s₁, r₁⟩, h₁, h⟩ := h
  cases h
  refine withIdem_takes_plain (fun _ => cancelBody_plain) (fun s₂ s₃ r₂ apart h => ?_) answer h₁
  exact cancelBody_takes agents (fun a ha => may a (ha.of_agents apart.agents)) close closes
    (fun o ho => forget o (apart.orbits ▸ ho)) h

/-! ## Agents -/

theorem heartbeatLease_does {now : Time} {o : Orbit} (may : ∀ id, c.may (.renew id)) :
    Does c E s (heartbeatLease c.cfg now s o) := by
  rw [heartbeatLease]
  split
  · exact .refl s
  · exact Does.setOrbit (fun r _ _ => ⟨rfl, .keep rfl rfl rfl (fun _ => Or.inr (may _))
      fun _ => rfl, fun _ => .same rfl rfl⟩) fun r _ _ => .silent fun _ => ⟨rfl, Or.inl rfl⟩

/-- A heartbeat moves the deadlines of its agent only. -/
theorem heartbeat_takes {now : Time} {agent : AgentId} {ttl : Option ℚ} (agents : c.may .agents)
    (may : ∀ id, c.may (.renew id)) : Takes c s (heartbeat c.cfg now s agent ttl).1 := by
  rw [heartbeat]
  split
  · exact .refl s
  split
  · exact .refl s
  rename_i hretired
  intro ok
  have alive : s.Alive agent := by
    intro a ha hid hstate
    rw [ok.getAgent.mpr ⟨ha, hid⟩] at hretired
    simp [hstate] at hretired
  refine ((upsertAgent_keeps agents alive now).takes.trans ?_) ok
  have leases (s : Store) (xs ys : List Orbit) : Takes c s
      (ys.foldl (heartbeatLease c.cfg now) (xs.foldl (heartbeatLease c.cfg now) s)) :=
    Does.takes (Does.trans (Does.foldl fun o _ s₁ => heartbeatLease_does may)
      (Does.foldl fun o _ s₁ => heartbeatLease_does may))
  cases ttl with
  | none => exact leases _ _ _
  | some ttl =>
      refine Takes.trans (Keeps.takes (setAgent_keeps agents fun a _ _ => ?_)) (leases _ _ _)
      exact ⟨rfl, le_rfl, Or.inl rfl⟩

/-- A bail reclaims its own agent. -/
theorem bail_takes {agent : AgentId} {requestId : Option RequestId} {r : Reply}
    (agents : c.may .agents) (may : c.may (.bail agent))
    (answer : ∀ id, requestId = some id → r.isSuccess = true →
      c.may (.answer id (.bail agent) r))
    (h : bail c.cfg c.now s agent requestId = .ok (s', r)) : Takes c s s' := by
  rw [bail, Outcome.bind_eq_ok] at h
  obtain ⟨⟨s₁, r₁⟩, h₁, h⟩ := h
  cases h
  refine withIdem_takes_plain (fun _ => .bind fun _ => .set _ _) (fun s₂ s₃ r₂ _ h => ?_) answer h₁
  rw [Outcome.bind_eq_ok] at h
  obtain ⟨⟨s₄, r₄⟩, h₄, h⟩ := h
  cases h
  exact reclaimAgent_takes agents (Or.inl may) h₄

theorem reclaimZombiesNow_takes (agents : c.may .agents)
    (may : ∀ a, s.Stale c.cfg c.now a → c.may (.zombie a))
    (h : reclaimZombiesNow c.cfg c.now s = .ok s') : Takes c s s' := by
  rw [reclaimZombiesNow] at h
  split at h
  · cases h
    exact .refl s
  · rename_i ttl httl
    refine Takes.foldlM (fun a ha s₁ s₂ h => ?_) h
    obtain ⟨ha, hstale⟩ := List.mem_filter.mp ha
    rw [reclaimZombieNow] at h
    split at h
    · cases h
      exact .refl _
    · rename_i hpin
      rw [Outcome.bind_eq_ok] at h
      obtain ⟨⟨s₃, r⟩, h₁, h⟩ := h
      cases h
      exact reclaimAgent_takes agents
        (Or.inr ⟨may _ ⟨ttl, httl, a, ha, rfl, hstale⟩, by simpa using hpin⟩) h₁

end Omd
