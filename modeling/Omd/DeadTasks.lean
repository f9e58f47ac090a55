import Omd.Steps

/-!
# Dead tasks

A task that was aborted or poisoned should leave nothing that holds or waits for it.
Cancelling closes the rows of the task, whoever owns them; a reclaim closes those of the
agent it takes, and poisons the task whoever else holds or waits for it.  So the law holds
in the runs that reclaim no agent whose task, at the end of its tries, another agent has a
row of.  An agent is not reclaimed for its silence while a merge of it is pinned.
-/

namespace Omd

open Lib

variable {cfg : Cfg} {env : Env} {σ σ' : Sys} {a : Action} {c : Scope} {E : TaskId → Prop}
  {s s' : Store} {agent : AgentId}

/-- A task that ended without its merge. -/
def TaskState.dead : TaskState → Bool
  | .ABORTED | .POISONED => true
  | _ => false

namespace Store

/-- No row holds or waits for a dead task. -/
def DeadFree (s : Store) : Prop :=
  ∀ t ∈ s.tasks, t.state.dead = true → ∀ o ∈ s.orbits, o.taskId = some t.taskId →
    o.state ≠ .HELD ∧ o.state ≠ .PENDING

/-- The same of the tasks that are not exempt. -/
def DeadFreeBut (E : TaskId → Prop) (s : Store) : Prop :=
  ∀ t ∈ s.tasks, t.state.dead = true → ¬ E t.taskId → ∀ o ∈ s.orbits,
    o.taskId = some t.taskId → o.live = false

/-- Only path orbits are for a task. -/
def Tasked (s : Store) : Prop := ∀ o ∈ s.orbits, ∀ task, o.taskId = some task → o.kind = .orbit

/-- The next reclaim of the agent poisons a task of which another agent has a row that holds
or waits. -/
def Entangled (s : Store) (cfg : Cfg) (agent : AgentId) : Prop :=
  ∃ t ∈ s.tasks, t.agentId = some agent ∧ t.state.inProgress = true ∧
    cfg.maxReclaims < t.reclaims + 1 ∧
      ∃ o ∈ s.orbits, o.taskId = some t.taskId ∧ o.live = true ∧ o.agentId ≠ agent

/-- The agent has a merge of the task in flight, pinned by an orbit of its own or of an agent
that does not go. -/
structure PinsTask (s : Store) (goes : AgentId → Prop) (agent : AgentId) (task : TaskId) :
    Prop where
  row : ∃ t ∈ s.tasks, t.taskId = task ∧ t.agentId = some agent ∧ t.state = .CONNECTING
  pin : ∃ o ∈ s.orbits, o.Pinned task ∧ (o.agentId = agent ∨ ¬ goes o.agentId)

end Store

/-- The action may reclaim the agent: it sweeps and the agent is overdue, or the agent
bails. -/
inductive Reclaims (cfg : Cfg) (σ : Sys) (l : Env × Action) (agent : AgentId) : Prop
  | zombie (h : Sweeps σ l.2) (overdue : σ.store.Overdue cfg l.1.now agent)
  | bail {id : Option RequestId} {input : Input} (h : σ.Cut l.2 (.bail agent id .reclaim) input)

/-- The action spares the agent: it ends no attempt, the agent does not bail, and a merge of it
stays pinned. -/
structure Shielded (cfg : Cfg) (σ : Sys) (l : Env × Action) (agent : AgentId) : Prop where
  runs : ¬ Recovers σ l.2
  apart : ∀ task input, ¬ Completes σ l.2 task input
  stays : ∀ id input, ¬ σ.Cut l.2 (.bail agent id .reclaim) input
  pins : ∃ task, σ.store.PinsTask (Reclaims cfg σ l) agent task

/-- No agent that the action may reclaim, and does not spare, is entangled. -/
def Untangled (cfg : Cfg) (σ : Sys) (l : Env × Action) : Prop :=
  ∀ agent, Reclaims cfg σ l agent → Shielded cfg σ l agent ∨ ¬ σ.store.Entangled cfg agent

/-! ## Rows -/

theorem Orbit.live_eq_false {o : Orbit} :
    o.live = false ↔ o.state ≠ .HELD ∧ o.state ≠ .PENDING := by
  simp [Orbit.live]

/-- Of a task that is not exempt a change kills nothing. -/
theorem TaskStep.dead {t t' : Task} (h : TaskStep c E s t t') (exempt : ¬ E t.taskId)
    (dead : t'.state.dead = true) : t.state.dead = true := by
  cases h.change with
  | keep state | sync state | refresh _ state => rwa [state] at dead
  | ready _ _ state | start _ _ state | finish _ state => rw [state] at dead; cases dead
  | abort may => exact absurd may exempt
  | reclaim _ _ may => exact absurd may exempt
  | attempt may => exact absurd may exempt

/-- Of a task that is not exempt, and that nobody may start, a change starts nothing. -/
theorem TaskStep.busy {t t' : Task} (h : TaskStep c E s t t') (exempt : ¬ E t.taskId)
    (no : ¬ c.may (.start t.taskId)) (busy : t'.state.inProgress = true) :
    t.state.inProgress = true ∧ t'.agentId = t.agentId ∧ t'.reclaims = t.reclaims := by
  have count : t'.reclaims = t.reclaims := h.count.resolve_right fun h => exempt h.2
  cases h.change with
  | keep state agent | sync state agent | refresh _ state agent =>
      exact ⟨state ▸ busy, agent, count⟩
  | ready _ _ state | finish _ state => rw [state] at busy; cases busy
  | start may => exact absurd may no
  | abort may => exact absurd may exempt
  | reclaim _ _ may => exact absurd may exempt
  | attempt may => exact absurd may exempt

/-- A merge in flight goes on, unless the change is of the attempt. -/
theorem TaskStep.connecting {t t' : Task} (h : TaskStep c E s t t') (free : ¬ E t.taskId)
    (no : ¬ c.may (.overwrite t.taskId)) (connecting : t.state = .CONNECTING) :
    t'.state = .CONNECTING ∧ t'.agentId = t.agentId := by
  cases h.change with
  | keep state agent | sync state agent | refresh _ state agent =>
      exact ⟨state.trans connecting, agent⟩
  | ready waiting => simp [connecting, no] at waiting
  | start _ admitted => simp [connecting] at admitted
  | finish started => simp [connecting] at started
  | abort exempt | reclaim _ _ exempt | attempt exempt => exact absurd exempt free

/-- A pinned orbit stays pinned while the merge is in flight, unless its owner goes. -/
theorem OrbitStep.pinned {goes : AgentId → Prop} {task : TaskId} {o o' : Orbit}
    (h : OrbitStep c E s o o') (pinned : o.Pinned task) (free : ¬ E task) (ok : s.Ok)
    (row : ∃ t ∈ s.tasks, t.taskId = task ∧ t.agentId = some agent ∧ t.state = .CONNECTING)
    (whose : o.agentId = agent ∨ ¬ goes o.agentId) (reclaims : ∀ a, c.reclaims a → goes a)
    (stays : ¬ c.may (.bail agent)) : o'.Pinned task := by
  obtain ⟨t, ht, id, owner, connecting⟩ := row
  suffices kept : o'.state = .HELD ∧ o'.merging = true from
    ⟨h.row.kind.trans pinned.kind, h.row.taskId.trans pinned.task, kept.1, kept.2⟩
  cases h.change with
  | keep state merging => exact ⟨state.trans pinned.state, merging.trans pinned.merging⟩
  | expire due =>
      have unpinned := (isDue_iff.mp due).2.2.1
      simp [pinned.merging] at unpinned
  | deny pending => simp [pinned.state] at pending
  | promote pending => simp [Orbit.isPending, pinned.state] at pending
  | release _ _ unpinned => simp [pinned.merging] at unpinned
  | lease other | permit other | token other | rebind other => simp [pinned.kind] at other
  | @cancelled r hr of aborted =>
      have same : r.taskId = t.taskId := by simpa [pinned.task, id, eq_comm] using of
      rw [ok.task_eq hr ht same, connecting] at aborted
      cases aborted
  | reclaimed may _ _ _ unpinned =>
      rcases whose with own | stranger
      · rcases unpinned with bails | unpinned
        · exact absurd (own ▸ bails) stays
        · exact absurd (id ▸ pinned) (unpinned t ht (own ▸ owner) connecting)
      · exact absurd (reclaims _ may) stranger
  | attempt of exempt =>
      have same := Option.some.inj (pinned.task.symm.trans of)
      exact absurd (same ▸ exempt) free

/-! ## One change -/

theorem Store.PinsTask.micro {goes : AgentId → Prop} {task : TaskId}
    (h : s.PinsTask goes agent task) (ok : s.Ok) (step : Micro c E s s') (free : ¬ E task)
    (no : ¬ c.may (.overwrite task)) (reclaims : ∀ a, c.reclaims a → goes a)
    (stays : ¬ c.may (.bail agent)) : s'.PinsTask goes agent task where
  row := by
    obtain ⟨t, ht, rfl, owner, connecting⟩ := h.row
    rcases (step.tasks ok).forth ht ok with ⟨t', ht', h'⟩ | ⟨-, ended, -⟩
    · obtain ⟨state, agent⟩ := h'.connecting free no connecting
      exact ⟨t', ht', h'.id, agent.trans owner, state⟩
    · rw [connecting] at ended
      cases ended
  pin := by
    obtain ⟨o, ho, pinned, whose⟩ := h.pin
    rcases (step.orbits ok).forth ho ok with ⟨o', ho', h'⟩ | ⟨-, ended, -⟩
    · refine ⟨o', ho', h'.pinned pinned free ok h.row whose reclaims stays, ?_⟩
      rwa [h'.row.agentId]
    · rw [pinned.state] at ended
      cases ended

theorem Micros.pinsTask {goes : AgentId → Prop} {task : TaskId} (h : Micros c E s s') (ok : s.Ok)
    (pins : s.PinsTask goes agent task) (free : ¬ E task) (no : ¬ c.may (.overwrite task))
    (reclaims : ∀ a, c.reclaims a → goes a) (stays : ¬ c.may (.bail agent)) :
    s'.PinsTask goes agent task :=
  (Micros.invariant (I := fun s => s.PinsTask goes agent task)
    (fun _ _ ok ih step => ih.micro ok step free no reclaims stays) h ok pins).2

theorem Store.Tasked.micro (h : s.Tasked) (ok : s.Ok) (step : Micro c E s s') : s'.Tasked := by
  intro o' ho' task of
  rcases (step.orbits ok).back ho' with ⟨o, ho, h₁⟩ | ⟨row, -⟩
  · rw [h₁.row.kind]
    exact h o ho task (h₁.row.taskId ▸ of)
  · cases row with
    | held claimed | queued claimed => exact claimed.kind
    | permit _ _ untasked | lease _ _ untasked | token _ _ untasked =>
        rw [untasked] at of
        cases of

theorem Store.DeadFreeBut.micro (h : s.DeadFreeBut E) (ok : s.Ok) (step : Micro c E s s') :
    s'.DeadFreeBut E := by
  intro t' ht' dead exempt o' ho' of
  rw [Bool.eq_false_iff]
  intro live
  rcases (step.tasks ok).back ht' with ⟨t, ht, h₁⟩ | row
  · rw [h₁.id] at exempt of
    have dead₀ : t.state.dead = true := h₁.dead exempt dead
    rcases (step.orbits ok).back ho' with ⟨o, ho, h₂⟩ | ⟨row, -⟩
    · have none := h t ht dead₀ exempt o ho (h₂.row.taskId ▸ of)
      rw [h₂.change.live live] at none
      cases none
    · cases row with
      | held claimed | queued claimed =>
          have waiting := claimed.gate t ht of
          cases hs : t.state <;> simp [hs, TaskState.dead, TaskState.admission] at dead₀ waiting
      | permit _ _ untasked | lease _ _ untasked | token _ _ untasked =>
          rw [untasked] at of
          cases of
  · rw [row.state] at dead
    cases dead

theorem Micros.deadFreeBut (h : Micros c E s s') (ok : s.Ok) (init : s.DeadFreeBut E) :
    s'.DeadFreeBut E :=
  (Micros.invariant (I := Store.DeadFreeBut E) (fun _ _ ok ih step => ih.micro ok step) h ok
    init).2

theorem Micros.tasked (h : Micros c E s s') (ok : s.Ok) (init : s.Tasked) : s'.Tasked :=
  (Micros.invariant (I := Store.Tasked) (fun _ _ ok ih step => ih.micro ok step) h ok init).2

/-- The tasks in progress that are not exempt were so before. -/
def Store.BusyFrom (E : TaskId → Prop) (s s' : Store) : Prop :=
  ∀ t' ∈ s'.tasks, ¬ E t'.taskId → t'.state.inProgress = true → ∃ t ∈ s.tasks,
    t.taskId = t'.taskId ∧ t.state.inProgress = true ∧ t'.agentId = t.agentId ∧
      t'.reclaims = t.reclaims

theorem Micros.busyFrom (h : Micros c E s s') (ok : s.Ok) (no : ∀ t, ¬ c.may (.start t)) :
    s.BusyFrom E s' := by
  refine (Micros.invariant (I := fun s₁ => s.BusyFrom E s₁) ?_ h ok
    (fun t ht _ busy => ⟨t, ht, rfl, busy, rfl, rfl⟩)).2
  intro s₁ s₂ ok₁ ih step t' ht' exempt busy
  rcases (step.tasks ok₁).back ht' with ⟨t₁, ht₁, h₁⟩ | row
  · obtain ⟨busy₁, agent₁, count₁⟩ := h₁.busy (h₁.id ▸ exempt) (no _) busy
    obtain ⟨t, ht, id, busy₀, agent₀, count₀⟩ := ih t₁ ht₁ (h₁.id ▸ exempt) busy₁
    exact ⟨t, ht, id.trans h₁.id.symm, busy₀, agent₁.trans agent₀, count₁.trans count₀⟩
  · rw [row.state] at busy
    cases busy

/-! ## One move -/

/-- A task in progress after a move was so before, for the same agent. -/
theorem Move.busyFrom (h : Move c s s') (ok : s.Ok) (no : ∀ t, ¬ c.may (.start t)) :
    s.BusyFrom nobody s' := by
  intro t' ht' _ busy
  cases h with
  | micro h => exact Micros.busyFrom (.single h) ok no t' ht' id busy
  | takenOver t h =>
      by_cases hid : t'.taskId = t.taskId
      · obtain ⟨-, -, -, -, agent, -, count⟩ := h.bound t' ht' hid
        exact ⟨t, h.task, hid.symm, by rw [h.state]; rfl, agent, count⟩
      · exact h.run.busyFrom ok no t' ht' hid busy
  | closed t h =>
      refine h.run.busyFrom ok no t' ht' (fun hid => ?_) busy
      rcases h.ended with ⟨-, ended⟩ | ⟨-, ended⟩
      · rw [ended t' ht' hid] at busy
        cases busy
      · rw [ended t' ht' hid] at busy
        cases busy
  | reclaimed agent h =>
      obtain ⟨sems, run, -⟩ := h.run
      refine run.busyFrom ok no t' ht' (fun owned => ?_) busy
      rw [h.ended ok ht' owned] at busy
      cases busy
  | handed sems h => exact h.run.busyFrom ok no t' ht' id busy
  | cancelled task h =>
      refine h.run.busyFrom ok no t' ht' (fun hid => ?_) busy
      rw [h.tasks t' ht' hid] at busy
      cases busy

theorem Move.tasked (h : Move c s s') (ok : s.Ok) (init : s.Tasked) : s'.Tasked := by
  obtain ⟨_, E, -, run⟩ := h.micros
  exact run.tasked ok init

/-- A move that admits and starts nothing entangles nobody. -/
theorem Move.entangled (h : Move c s s') (ok : s.Ok) (tasked : s.Tasked)
    (admission : ¬ c.may .admission) (start : ∀ t, ¬ c.may (.start t))
    (entangled : s'.Entangled cfg agent) : s.Entangled cfg agent := by
  obtain ⟨t', ht', owner, busy, bound, o', ho', of, live, other⟩ := entangled
  obtain ⟨t, ht, id, busy₀, agent₀, count⟩ := h.busyFrom ok start t' ht' (fun h => h) busy
  obtain ⟨_, E, within, run⟩ := h.micros
  have kind : o'.kind = .orbit := (run.tasked ok tasked) o' ho' _ of
  obtain ⟨o, ho, row, live₀⟩ :=
    run.liveFrom ok (within.forbids admission (by simp)) o' ho' kind live
  refine ⟨t, ht, agent₀ ▸ owner, busy₀, count ▸ bound, o, ho, ?_, live₀, ?_⟩
  · rw [id, ← of, row.taskId]
  · rwa [← row.agentId]

/-- The reclaim of an agent that is not entangled. -/
theorem AgentReclaimed.deadFree (h : AgentReclaimed c agent s s') (ok : s.Ok) (tasked : s.Tasked)
    (free : s.DeadFreeBut nobody) (admission : ¬ c.may .admission)
    (unentangled : ¬ s.Entangled c.cfg agent) : s'.DeadFreeBut nobody := by
  intro t' ht' dead _ o' ho' of
  rw [Bool.eq_false_iff]
  intro live
  obtain ⟨sems, run, -⟩ := h.run
  have kind : o'.kind = .orbit := (run.tasked ok tasked) o' ho' _ of
  obtain ⟨o, ho, row, live₀⟩ := run.liveFrom ok admission o' ho' kind live
  have other : o'.agentId ≠ agent := by
    intro owner
    rw [h.orbits o' ho' owner kind] at live
    cases live
  rcases h.tasks t' ht' with ⟨ht, -⟩ | ⟨t, ht, id, owner, requeued⟩
  · have none := free t' ht dead (fun h => h) o ho (row.taskId ▸ of)
    rw [live₀] at none
    cases none
  · rcases requeued.state with ⟨state, -⟩ | ⟨-, bound⟩
    · rw [state] at dead
      cases dead
    · refine unentangled ⟨t, ht, owner, requeued.busy, bound, o, ho, ?_, live₀, ?_⟩
      · rw [← id, ← of, row.taskId]
      · rwa [← row.agentId]

/-- An agent whose merge is pinned is not reclaimed for its silence. -/
theorem AgentReclaimed.unpinned {goes : AgentId → Prop} {task : TaskId}
    (h : AgentReclaimed c agent s s') (stays : ¬ c.may (.bail agent)) :
    ¬ s.PinsTask goes agent task := by
  rintro ⟨⟨t, ht, rfl, owner, connecting⟩, o, ho, pinned, -⟩
  rcases h.may with bails | ⟨-, pin⟩
  · exact stays bails
  · exact no_pin pin ht owner connecting ho pinned

/-- The pins of a merge hold through a move that ends no attempt. -/
theorem Move.pinsTask {goes : AgentId → Prop} {task : TaskId} (h : Move c s s') (ok : s.Ok)
    (pins : s.PinsTask goes agent task) (no : ¬ c.may (.overwrite task))
    (reclaims : ∀ a, c.reclaims a → goes a) (stays : ¬ c.may (.bail agent))
    (goesOn : ∀ t, ¬ c.may (.merge t) ∧ ¬ c.may (.rollback t)) : s'.PinsTask goes agent task := by
  obtain ⟨t, ht, hid, owner, connecting⟩ := pins.row
  cases h with
  | micro h => exact Micros.pinsTask (.single h) ok pins id no reclaims stays
  | takenOver r h =>
      by_cases same : task = r.taskId
      · -- the executor changes, the attempt goes on
        subst same
        cases ok.task_eq ht h.task hid
        obtain ⟨o, ho, pinned, whose⟩ := pins.pin
        obtain ⟨t', ht', hid'⟩ := h.stays
        obtain ⟨connecting', -, -, -, agent', -⟩ := h.bound t' ht' hid'
        exact ⟨⟨t', ht', hid', agent'.trans owner, connecting'⟩, o,
          (h.orbits o pinned.kind).mpr ho, pinned, whose⟩
      · exact h.run.pinsTask ok pins same no reclaims stays
  | closed r h =>
      rcases h.ended with ⟨may, -⟩ | ⟨may, -⟩
      · exact absurd may (goesOn r).1
      · exact absurd may (goesOn r).2
  | reclaimed agent' h =>
      by_cases same : agent' = agent
      · exact absurd pins ((same ▸ h).unpinned stays)
      · obtain ⟨sems, run, -⟩ := h.run
        refine run.pinsTask ok pins ?_ no reclaims stays
        rintro ⟨r, hr, id, owner'⟩
        rw [ok.task_eq hr ht (id.trans hid.symm), owner] at owner'
        exact same (Option.some.inj owner').symm
  | handed sems h => exact h.run.pinsTask ok pins id no reclaims stays
  | cancelled task' h =>
      refine h.run.pinsTask ok pins ?_ no reclaims stays
      rintro rfl
      rcases h.idle t ht hid with waiting | aborted
      · simp [connecting, TaskState.admission] at waiting
      · simp [connecting] at aborted

/-- A move that reclaims no entangled agent. -/
theorem Move.deadFree (h : Move c s s') (ok : s.Ok) (tasked : s.Tasked)
    (free : s.DeadFreeBut nobody)
    (reclaims : ∀ agent, AgentReclaimed c agent s s' →
      ¬ c.may .admission ∧ ¬ s.Entangled c.cfg agent) : s'.DeadFreeBut nobody := by
  -- a group of changes exempts tasks that it does not leave dead
  have group {c' : Scope} {E : TaskId → Prop} (run : Micros c' E s s')
      (alive : ∀ t ∈ s'.tasks, E t.taskId → t.state.dead = false) : s'.DeadFreeBut nobody := by
    have others : s'.DeadFreeBut E := run.deadFreeBut ok fun t ht dead _ => free t ht dead id
    intro t ht dead _
    refine others t ht dead fun exempt => ?_
    rw [alive t ht exempt] at dead
    cases dead
  cases h with
  | micro h => exact free.micro ok h
  | takenOver t h =>
      refine group h.run fun t' ht' hid => ?_
      rw [(h.bound t' ht' hid).1]
      rfl
  | closed t h =>
      refine group h.run fun t' ht' hid => ?_
      rcases h.ended with ⟨-, ended⟩ | ⟨-, ended⟩ <;> rw [ended t' ht' hid] <;> rfl
  | reclaimed agent h =>
      obtain ⟨admission, unentangled⟩ := reclaims agent h
      exact h.deadFree ok tasked free admission unentangled
  | handed sems h => exact group h.run fun _ _ => False.elim
  | cancelled task h =>
      have others : s'.DeadFreeBut (· = task) :=
        h.run.deadFreeBut ok fun t ht dead _ => free t ht dead id
      intro t ht dead _ o ho of
      by_cases hid : t.taskId = task
      · exact h.orbits o ho (hid ▸ of) ((h.run.tasked ok tasked) o ho _ of)
      · exact others t ht dead hid o ho of

/-! ## One step -/

theorem Licence.reclaims
    (h : Licence cfg env σ a (.zombie agent) ∨ Licence cfg env σ a (.bail agent)) :
    Reclaims cfg σ (env, a) agent := by
  rcases h with h | h
  · cases h with
    | zombie h overdue => exact .zombie h overdue
  · cases h with
    | bail h => exact .bail h

/-- The one cut of a begin that may reclaim an agent is its batch. -/
theorem Reclaims.batch {b : BeginArgs} {pc : BeginPc} {input : Input}
    (h : Reclaims cfg σ (env, a) agent) (cut : σ.Cut a (.begin b pc) input) :
    ∃ legacy, pc = .batch legacy := by
  have one {p : Proc} {input' : Input} (h' : σ.Cut a p input') : p = .begin b pc :=
    (h'.unique cut).1
  cases h with
  | zombie h =>
      cases h with
      | verb hv =>
          obtain ⟨i, h, -⟩ := cut
          cases hv.symm.trans h
      | recovery h =>
          rcases h with h | h | h | h
          · obtain ⟨i, h', -⟩ := cut
            cases h.symm.trans h'
          · cases one h
          · cases one h
          · cases one h
      | batch h =>
          cases one h
          exact ⟨_, rfl⟩
      | phaseA h | phaseC h | arrive h | tripC h => cases one h
  | bail h => cases one h

/-- An action that may reclaim an agent starts no task. -/
theorem Reclaims.no_start {task : TaskId} (h : Reclaims cfg σ (env, a) agent) :
    ¬ Licence cfg env σ a (.start task) := by
  intro may
  cases may with
  | start ha =>
      subst ha
      cases h with
      | zombie h =>
          cases h with
          | verb hv sweeps =>
              cases hv
              cases sweeps
          | recovery h =>
              rcases h with h | ⟨i, h, -⟩ | ⟨i, h, -⟩ | ⟨i, h, -⟩ <;> cases h
          | batch h | phaseA h | phaseC h | arrive h | tripC h =>
              obtain ⟨i, h, -⟩ := h
              cases h
      | bail h =>
          obtain ⟨i, h, -⟩ := h
          cases h
  | begun cut =>
      obtain ⟨legacy, other⟩ := h.batch cut
      cases other

/-- Nor does it write over the state of one. -/
theorem Reclaims.no_overwrite {task : TaskId} (h : Reclaims cfg σ (env, a) agent) :
    ¬ Licence cfg env σ a (.overwrite task) := by
  intro may
  cases may with
  | overwrite cut =>
      obtain ⟨legacy, other⟩ := h.batch cut
      cases other

/-- The merge of an agent that an action spares stays pinned through the moves of the action. -/
theorem Shielded.move {task : TaskId} (h : Shielded cfg σ (env, a) agent)
    (reclaims : Reclaims cfg σ (env, a) agent) (ok : s.Ok)
    (pins : s.PinsTask (Reclaims cfg σ (env, a)) agent task)
    (move : Move (σ.scope cfg env a) s s') : s'.PinsTask (Reclaims cfg σ (env, a)) agent task := by
  refine move.pinsTask ok pins (fun may => reclaims.no_overwrite may.1)
    (fun other h => Licence.reclaims (h.imp And.left And.left)) ?_ fun t => ⟨?_, ?_⟩
  · rintro ⟨may, -⟩
    cases may with
    | bail cut => exact h.stays _ _ cut
  · rintro ⟨may, -⟩
    cases may with
    | merge ends =>
        rcases ends with ends | ⟨task', input, ends⟩
        · exact h.runs ends
        · exact h.apart _ _ ends
  · rintro ⟨may, -⟩
    cases may with
    | rollback ends => exact h.runs ends
    | undo ends => exact h.apart _ _ ends

/-- The first half of a step, in which agents are reclaimed. -/
theorem Moves.deadFree_before (h : Moves (σ.scope cfg env a) σ.store s')
    (ok : σ.store.Ok) (tasked : σ.store.Tasked) (free : σ.store.DeadFreeBut nobody)
    (untangled : Untangled cfg σ (env, a)) : s'.Tasked ∧ s'.DeadFreeBut nobody := by
  have admission : ¬ Before cfg env σ a .admission := fun h => h.2.1 rfl
  have start {agent : AgentId} (h : Reclaims cfg σ (env, a) agent) (t : TaskId) :
      ¬ Before cfg env σ a (.start t) := fun may => h.no_start may.1
  have init : ∀ agent, Reclaims cfg σ (env, a) agent → Shielded cfg σ (env, a) agent ∧
      (∃ task, σ.store.PinsTask (Reclaims cfg σ (env, a)) agent task) ∨
        ¬ σ.store.Entangled cfg agent :=
    fun agent h => (untangled agent h).imp_left fun shield => ⟨shield, shield.pins⟩
  have run := Moves.invariant
    (I := fun s => s.Tasked ∧ s.DeadFreeBut nobody ∧ ∀ agent, Reclaims cfg σ (env, a) agent →
      Shielded cfg σ (env, a) agent ∧
        (∃ task, s.PinsTask (Reclaims cfg σ (env, a)) agent task) ∨ ¬ s.Entangled cfg agent)
    (fun s₁ s₂ ok₁ ih move => ?_) h ok ⟨tasked, free, init⟩
  · exact ⟨run.2.1, run.2.2.1⟩
  · obtain ⟨tasked, free, untangled⟩ := ih
    refine ⟨move.tasked ok₁ tasked, move.deadFree ok₁ tasked free ?_, ?_⟩
    · intro agent reclaimed
      have h : Reclaims cfg σ (env, a) agent :=
        Licence.reclaims (reclaimed.may.elim (fun h => Or.inr h.1) fun h => Or.inl h.1.1)
      refine ⟨admission, (untangled agent h).resolve_left ?_⟩
      rintro ⟨shield, task, pins⟩
      refine reclaimed.unpinned ?_ pins
      rintro ⟨may, -⟩
      cases may with
      | bail cut => exact shield.stays _ _ cut
    · intro agent h
      refine (untangled agent h).imp ?_ ?_
      · rintro ⟨shield, task, pins⟩
        exact ⟨shield, task, shield.move h ok₁ pins move⟩
      · intro free entangled
        exact free (move.entangled ok₁ tasked admission (start h) entangled)

/-- The second half, in which no agent is. -/
theorem Moves.deadFree_after (h : Moves ⟨cfg, env.now, After cfg env σ a⟩ s s') (ok : s.Ok)
    (tasked : s.Tasked) (free : s.DeadFreeBut nobody) : s'.Tasked ∧ s'.DeadFreeBut nobody := by
  refine (Moves.invariant (I := fun s => s.Tasked ∧ s.DeadFreeBut nobody)
    (fun s₁ s₂ ok₁ ih move => ?_) h ok ⟨tasked, free⟩).2
  refine ⟨move.tasked ok₁ ih.1, move.deadFree ok₁ ih.1 ih.2 fun agent h => ?_⟩
  rcases h.may with h | ⟨h, -⟩
  · exact absurd rfl (h.2.1 agent).2
  · exact absurd rfl (h.2.1 agent).1

theorem Stepped.deadFree (h : Stepped cfg env σ a s') (ok : σ.store.Ok) (tasked : σ.store.Tasked)
    (free : σ.store.DeadFreeBut nobody) (untangled : Untangled cfg σ (env, a)) :
    s'.Tasked ∧ s'.DeadFreeBut nobody := by
  cases h with
  | phases h =>
      obtain ⟨s₁, first, second⟩ := h
      obtain ⟨tasked₁, free₁⟩ := first.deadFree_before ok tasked free untangled
      exact second.deadFree_after (ok.moves first) tasked₁ free₁
  | @opens t i s₁ h =>
      obtain ⟨tasked₁, free₁⟩ := h.before.deadFree_before ok tasked free untangled
      have ok₁ := ok.moves h.before
      have run := h.opened.opened.run
      refine ⟨run.tasked ok₁ tasked₁, fun t' ht' dead _ => ?_⟩
      refine run.deadFreeBut ok₁ (fun t ht dead _ => free₁ t ht dead id) t' ht' dead fun hid => ?_
      rw [(h.opened.opened.bound t' ht' hid).1] at dead
      cases dead

/-! ## Runs -/

/-- In the runs that reclaim no entangled agent no row holds or waits for a dead task. -/
theorem dead_tasks_free (h : ReachableBy cfg (Untangled cfg) σ) : σ.store.DeadFree := by
  have init : Sys.Ok {} ∧ Store.Tasked {} ∧ Store.DeadFreeBut nobody {} :=
    ⟨.empty, fun o ho => (by cases ho), fun t ht => (by cases ht)⟩
  have run := Transition.Run.invariant
    (I := fun τ : Sys => τ.Ok ∧ τ.store.Tasked ∧ τ.store.DeadFreeBut nobody)
    (fun τ l τ' ih untangled step => ?_) h init
  · intro t ht dead o ho of
    exact Orbit.live_eq_false.mp (run.2.2 t ht dead (fun h => h) o ho of)
  · have step : Omd.step cfg l.1 τ l.2 = .ok τ' := step
    obtain ⟨left, ok'⟩ := step_spec ih.1 step
    obtain ⟨tasked, free⟩ := left.deadFree ih.1.store ih.2.1 ih.2.2 untangled
    exact ⟨ok', tasked, free⟩

/-- A coordinator for which a task is poisoned by its first reclaim. -/
def onceOnly : Cfg := { maxReclaims := 0 }

/-- An agent falls silent with a task started, and another one while it merges a task that a third
has an orbit of. -/
def twoFallSilent : List (Env × Action) :=
  [ (Action.call (.declare { taskId := "T", writes := ["t"] })).at 1,
    (Action.call .nextTask).at 1,
    (Action.call (.claim { agentId := "A", pathspec := ["t"], taskId := some "T" })).at 1,
    (Action.call (.start "T" "A" none none)).at 1,
    (Action.call (.declare { taskId := "U", writes := ["u"] })).at 1,
    (Action.call .nextTask).at 1,
    (Action.call (.claim { agentId := "C", pathspec := ["u"], taskId := some "U" })).at 2,
    (Action.call (.claim
      { agentId := "B", pathspec := ["b"], mode := .read, taskId := some "U" })).at 2,
    (Action.call (.start "U" "C" none none)).at 3,
    (Action.call (.finish "U" (some "C") (some 2) none none)).at 3,
    (Action.connect { taskId := "U", agentId := some "C", fence := some 2 }).at 4,
    (Action.resume 0 {}).at 4, (Action.resume 0 {}).at 4, (Action.resume 0 {}).at 4,
    (Action.call (.heartbeat "B" none)).at 91 ]

/-- Nobody is overdue, and no call is a bail. -/
def inTime (σ : Sys) (l : Env × Action) : Bool :=
  (σ.store.agents.all fun a =>
    l.1.now - a.livenessTtl.getD 90 ≤ a.lastHeartbeat ∧ 0 ≤ a.livenessTtl.getD 90) &&
  σ.procs.all fun p => match p with
    | .bail .. => false
    | _ => true

theorem untangled_inTime (σ : Sys) (l : Env × Action) (h : inTime σ l = true) :
    Untangled onceOnly σ l := by
  simp only [inTime, Bool.and_eq_true, List.all_eq_true, decide_eq_true_eq] at h
  intro agent reclaims
  cases reclaims with
  | zombie _ overdue =>
      obtain ⟨ttl, limit, negative | ⟨a, ha, -, -, late⟩⟩ := overdue
      · cases limit
        norm_num at negative
      · cases limit
        obtain ⟨seen, window⟩ := h.1 a ha
        rcases late with late | late
        · exact absurd seen (not_le.mpr late)
        · exact absurd window (not_le.mpr late)
  | bail cut =>
      have := h.2 _ cut.mem
      cases this

/-- The sweep reclaims the first, and spares the second. -/
theorem untangled_reclaim {now : Time}
    (merging : ∃ t ∈ σ.store.tasks,
      t.taskId = "U" ∧ t.agentId = some "C" ∧ t.state = .CONNECTING)
    (pinned : ∃ o ∈ σ.store.orbits, o.kind = .orbit ∧ o.taskId = some "U" ∧ o.state = .HELD ∧
      o.merging = true ∧ o.agentId = "C")
    (busy : ∀ t ∈ σ.store.tasks, t.state.inProgress = true →
      t.taskId = "T" ∧ t.agentId = some "A" ∨ t.agentId = some "C")
    (alone : ∀ o ∈ σ.store.orbits, o.taskId = some "T" → o.agentId = "A") :
    Untangled onceOnly σ ((Action.call .reclaimZombies).at now) := by
  intro agent _
  by_cases same : agent = "C"
  · subst same
    left
    obtain ⟨o, ho, kind, task, held, merge, own⟩ := pinned
    refine ⟨fun h => ?_, fun task input h => ?_, fun id input h => ?_,
      "U", merging, o, ho, ⟨kind, task, held, merge⟩, Or.inl own⟩
    · rcases h with h | ⟨i, h, -⟩ | ⟨i, h, -⟩ | ⟨i, h, -⟩ <;> cases h
    · rcases h with ⟨⟨i, h, -⟩, -⟩ | ⟨⟨i, h, -⟩, -⟩ <;> cases h
    · obtain ⟨i, h, -⟩ := h
      cases h
  · right
    rintro ⟨t, ht, owner, progress, -, o, ho, of, -, other⟩
    rcases busy t ht progress with ⟨id, first⟩ | second
    · rw [id] at of
      rw [alone o ho of] at other
      exact other (Option.some.inj (first.symm.trans owner))
    · exact same (Option.some.inj (owner.symm.trans second))

/-- A reclaim that poisons a task meets the condition, and no row is left of the task. -/
theorem dead_tasks_free_twoFallSilent : ∃ σ, ReachableBy onceOnly (Untangled onceOnly) σ ∧
    (∃ t ∈ σ.store.tasks, t.state = .POISONED) ∧ σ.store.Retired "A" ∧ σ.store.DeadFree := by
  have run : ∃ σ, ReachableBy onceOnly (Untangled onceOnly) σ ∧
      ((∃ t ∈ σ.store.tasks, t.taskId = "U" ∧ t.agentId = some "C" ∧ t.state = .CONNECTING) ∧
        (∃ o ∈ σ.store.orbits, o.kind = .orbit ∧ o.taskId = some "U" ∧ o.state = .HELD ∧
          o.merging = true ∧ o.agentId = "C") ∧
        (∀ t ∈ σ.store.tasks, t.state.inProgress = true →
          t.taskId = "T" ∧ t.agentId = some "A" ∨ t.agentId = some "C") ∧
        (∀ o ∈ σ.store.orbits, o.taskId = some "T" → o.agentId = "A") ∧
        (step onceOnly ((Action.call .reclaimZombies).at 100).1 σ
          (.call .reclaimZombies)).toOption.any fun σ' =>
            decide ((∃ t ∈ σ'.store.tasks, t.state = .POISONED) ∧
              ∃ a ∈ σ'.store.agents, a.agentId = "A" ∧ a.state = .RETIRED)) :=
    exists_reachableWhen twoFallSilent inTime untangled_inTime (by decide +kernel)
  obtain ⟨σ, reach, merging, pinned, busy, alone, last⟩ := run
  obtain ⟨σ', next, poisoned, retired⟩ := exists_step (l := (Action.call .reclaimZombies).at 100)
    (p := fun σ' => (∃ t ∈ σ'.store.tasks, t.state = .POISONED) ∧
      ∃ a ∈ σ'.store.agents, a.agentId = "A" ∧ a.state = .RETIRED) last
  have reach' : ReachableBy onceOnly (Untangled onceOnly) σ' :=
    Transition.Run.tail reach (untangled_reclaim merging pinned busy alone) next
  exact ⟨σ', reach', poisoned, retired, dead_tasks_free reach'⟩

/-- A task of two agents, one of which falls silent. -/
def deadPartner (agent : AgentId) (now : Time) : List (Env × Action) :=
  [ (Action.call .nextTask).at now,
    (Action.call (.start "T" agent none none)).at now,
    (Action.call (.heartbeat "B" none)).at (now + 100),
    (Action.call .reclaimZombies).at (now + 100) ]

/-- A task that is reclaimed from four agents while a fifth holds an orbit for it. -/
def deadPartners : List (Env × Action) :=
  [ (Action.call (.declare { taskId := "T", writes := ["a"] })).at 1,
    (Action.call .nextTask).at 1,
    (Action.call (.claim { agentId := "B", pathspec := ["b"], taskId := some "T" })).at 2 ] ++
  deadPartner "A" 3 ++ deadPartner "C" 104 ++ deadPartner "D" 205 ++ deadPartner "E" 306

instance : DecidablePred Store.DeadFree := fun s =>
  inferInstanceAs (Decidable (∀ t ∈ s.tasks, t.state.dead = true → ∀ o ∈ s.orbits,
    o.taskId = some t.taskId → o.state ≠ .HELD ∧ o.state ≠ .PENDING))

theorem poisoned_task_held : ∃ σ, Reachable {} σ ∧ ¬ σ.store.DeadFree :=
  exists_reachable deadPartners (by decide +kernel)

end Omd
