import Omd.DeadTasks

/-!
# Conflicts

A Phase C whose merge conflicts rolls its attempt back and promotes a resolve task, under an
identifier made from the task of the attempt.  The promotion writes through `add_task`, which
leaves the state of a row that exists, and it trusts a row that can still be worked on to be
marked as the resolve task.  So what the row of an earlier conflict has become decides whether
the conflict leaves work to do.
-/

namespace Omd

open Lib

variable {cfg : Cfg} {now : Time} {s s' : Store} {σ σ' : Sys} {l : Env × Action} {i : Intent}
  {r : Reply} {task : TaskId} {files : List String}

/-! ## Resolve tasks -/

/-- A resolve task has the identifier of the task it is for. -/
def Store.Marked (s : Store) : Prop := ∀ t ∈ s.tasks, t.Marked

theorem Micro.marked {c : Scope} {E : TaskId → Prop} (ok : s.Ok) (marked : s.Marked)
    (h : Micro c E s s') : s'.Marked := by
  intro t' ht'
  rcases (h.tasks ok).back ht' with ⟨t, ht, step⟩ | row
  · exact step.marked (marked t ht)
  · exact row.marked

theorem ReachableBy.marked {P : Sys → Env × Action → Prop} (reach : ReachableBy cfg P σ) :
    σ.store.Marked := by
  refine Sys.Ok.empty.run_invariant (fun _ _ _ _ ok marked h => h.marked ok marked) reach ?_
  intro t ht
  cases ht

/-- The task that the answer of a conflict names is there, is the only resolve task of the task
that conflicted, and can be worked on. -/
def LeavesWork (s : Store) (task : TaskId) (r : Reply) : Prop :=
  ∃ id t, r.resolveTaskId = some id ∧ s.getTask id = some t ∧ t.resolveFor = some task ∧
    t.state.terminal = false ∧ ∀ t' ∈ s.tasks, t'.resolveFor = some task → t' = t

/-- The row of the resolve task can be worked on and is marked. -/
def Task.Resolves (t : Task) (task : TaskId) : Prop :=
  t.state.terminal = false ∧ t.resolveFor = some task

/-- Under the invariant a resolve task is the only one of its task. -/
theorem leavesWork_iff (ok : s.Ok) (marked : s.Marked)
    (named : r.resolveTaskId = some (resolveTaskId task)) :
    LeavesWork s task r ↔ ∃ t, s.getTask (resolveTaskId task) = some t ∧ t.Resolves task := by
  constructor
  · rintro ⟨id, t, hid, hget, mark, live, -⟩
    rw [named] at hid
    cases hid
    exact ⟨t, hget, live, mark⟩
  · rintro ⟨t, hget, live, mark⟩
    refine ⟨_, t, named, hget, mark, live, fun t' ht' mark' => ?_⟩
    obtain ⟨ht, hid⟩ := ok.getTask.mp hget
    exact ok.task_eq ht' ht ((marked t' ht' task mark').trans hid.symm)

/-! ## The promotion -/

/-- The row that a promotion inserts. -/
def freshResolveTask (now : Time) (task : TaskId) (files : List String) : Task where
  taskId := resolveTaskId task
  state := .PENDING
  createdAt := now
  resolveFor := some task
  resolveConflictFiles := some files

theorem freshResolveTask_resolves (now : Time) (task : TaskId) (files : List String) :
    (freshResolveTask now task files).Resolves task := ⟨rfl, rfl⟩

theorem getTask_addTask_of_none {t : Task} (none : s.getTask t.taskId = none) :
    (s.addTask t).getTask t.taskId = some t := by
  unfold Store.addTask
  rw [none]
  dsimp only
  rw [Store.getTask, Table.get_append]
  rw [Store.getTask] at none
  rw [none]
  exact if_pos rfl

theorem getTask_setTask {id : TaskId} {t : Task} {f : Task → Task}
    (key : ∀ r, (f r).taskId = r.taskId) (hget : s.getTask id = some t) :
    (s.setTask id f).getTask id = some (f t) := by
  rw [Store.getTask] at hget ⊢
  rw [Store.setTask, Table.get_modify fun r hid => (key r).trans hid, hget]
  exact congrArg some (if_pos rfl)

/-- `add_task` leaves the state of a row that exists. -/
theorem getTask_addTask_of_some {t old : Task} (hget : s.getTask t.taskId = some old) :
    ∃ t', (s.addTask t).getTask t.taskId = some t' ∧ t'.state = old.state := by
  unfold Store.addTask
  rw [hget]
  exact ⟨_, getTask_setTask (fun _ => rfl) hget, rfl⟩

/-- A promotion that finds no row inserts one. -/
theorem promoteResolveTask_new (none : s.getTask (resolveTaskId task) = none) :
    (promoteResolveTask now s task files).getTask (resolveTaskId task) =
      some (freshResolveTask now task files) := by
  rw [promoteResolveTask, none]
  exact getTask_addTask_of_none (t := freshResolveTask now task files) none

/-- A promotion that finds a row leaves its state. -/
theorem promoteResolveTask_state {t : Task} (hget : s.getTask (resolveTaskId task) = some t) :
    ∃ t', (promoteResolveTask now s task files).getTask (resolveTaskId task) = some t' ∧
      t'.state = t.state ∧ (t.state.terminal = false → t' = t) := by
  rw [promoteResolveTask, hget]
  dsimp only
  split
  · rename_i ended
    obtain ⟨t', hget', state⟩ :=
      getTask_addTask_of_some (t := freshResolveTask now task files) hget
    refine ⟨t', hget', state, fun live => ?_⟩
    rw [live] at ended
    cases ended
  · exact ⟨t, hget, rfl, fun _ => rfl⟩

/-- The promotion leaves work to do if and only if it found no row, or one that can be worked
on and is marked. -/
theorem promoteResolveTask_resolves_iff :
    (∃ t, (promoteResolveTask now s task files).getTask (resolveTaskId task) = some t ∧
        t.Resolves task) ↔
      ∀ t, s.getTask (resolveTaskId task) = some t → t.Resolves task := by
  cases hget : s.getTask (resolveTaskId task) with
  | none =>
      have fresh : (promoteResolveTask now s task files).getTask (resolveTaskId task) =
          some (freshResolveTask now task files) := promoteResolveTask_new hget
      refine ⟨fun _ _ found => ?_, fun _ => ?_⟩
      · cases found
      · exact ⟨_, fresh, freshResolveTask_resolves now task files⟩
  | some t =>
      obtain ⟨t', hget', state, same⟩ : ∃ t',
          (promoteResolveTask now s task files).getTask (resolveTaskId task) = some t' ∧
            t'.state = t.state ∧ (t.state.terminal = false → t' = t) :=
        promoteResolveTask_state hget
      constructor
      · rintro ⟨t₁, hget₁, live, mark⟩ _ ⟨⟩
        rw [hget'] at hget₁
        cases hget₁
        rw [state] at live
        cases same live
        exact ⟨live, mark⟩
      · intro found
        have resolves := found t rfl
        cases same resolves.1
        exact ⟨t, hget', resolves⟩

/-! ## The rollback -/

/-- Nothing is declared, reopened, written over or archived under the identifier. -/
structure Scope.Leaves (c : Scope) (id : TaskId) : Prop where
  declare : ∀ deps reads, ¬ c.may (.declare id deps reads)
  reopen : ¬ c.may (.reopen id)
  overwrite : ¬ c.may (.overwrite id)
  archive : ∀ t, t.taskId = id → ¬ c.may (.archive t)

theorem Scope.Leaves.within {c c' : Scope} {id : TaskId} (h : c.Leaves id)
    (within : c'.Within c) : c'.Leaves id where
  declare := fun deps reads => within.forbids (h.declare deps reads) (by simp)
  reopen := within.forbids h.reopen (by simp)
  overwrite := within.forbids h.overwrite (by simp)
  archive := fun t ht => within.forbids (h.archive t ht) (by simp)

/-- The row of the task is there as it was, and resolves what it did. -/
structure Store.KeepsRow (id : TaskId) (s s' : Store) : Prop where
  back : ∀ t' ∈ s'.tasks, t'.taskId = id →
    ∃ t ∈ s.tasks, t.taskId = id ∧ t'.resolveFor = t.resolveFor
  forth : ∀ t ∈ s.tasks, t.taskId = id → ∃ t' ∈ s'.tasks, t'.taskId = id

theorem Store.KeepsRow.refl (id : TaskId) (s : Store) : s.KeepsRow id s where
  back := fun t ht hid => ⟨t, ht, hid, rfl⟩
  forth := fun t ht hid => ⟨t, ht, hid⟩

theorem Store.KeepsRow.trans {id : TaskId} {s₁ s₂ s₃ : Store} (h : s₁.KeepsRow id s₂)
    (h' : s₂.KeepsRow id s₃) : s₁.KeepsRow id s₃ where
  back := by
    intro t₃ ht₃ hid
    obtain ⟨t₂, ht₂, hid₂, same₂⟩ := h'.back t₃ ht₃ hid
    obtain ⟨t₁, ht₁, hid₁, same₁⟩ := h.back t₂ ht₂ hid₂
    exact ⟨t₁, ht₁, hid₁, same₂.trans same₁⟩
  forth := by
    intro t₁ ht₁ hid
    obtain ⟨t₂, ht₂, hid₂⟩ := h.forth t₁ ht₁ hid
    exact h'.forth t₂ ht₂ hid₂

/-- The task has ended if and only if it had. -/
def Store.SameFate (id : TaskId) (s s' : Store) : Prop :=
  ∀ t ∈ s.tasks, ∀ t' ∈ s'.tasks, t.taskId = id → t'.taskId = id →
    t'.state.terminal = t.state.terminal

/-- A task in progress whose next reclaim poisons it, of an agent that goes. -/
def Store.Doomed (s : Store) (cfg : Cfg) (goes : AgentId → Prop) (id : TaskId) : Prop :=
  ∃ t ∈ s.tasks, t.taskId = id ∧ t.state.inProgress = true ∧
    cfg.maxReclaims < t.reclaims + 1 ∧ ∃ agent, t.agentId = some agent ∧ goes agent

theorem TaskStep.resolveFor {c : Scope} {E : TaskId → Prop} {t t' : Task}
    (h : TaskStep c E s t t') (no : c.Leaves t.taskId) : t'.resolveFor = t.resolveFor := by
  cases h.declared with
  | same _ _ resolves => exact resolves
  | declare may => exact absurd may (no.declare _ _)
  | reopen may => exact absurd may no.reopen

/-- A task that no group of changes is about ends by none. -/
theorem TaskStep.fate {c : Scope} {E : TaskId → Prop} {t t' : Task} (h : TaskStep c E s t t')
    (free : ¬ E t.taskId) (no : c.Leaves t.taskId) : t'.state.terminal = t.state.terminal := by
  cases h.change with
  | keep state | sync state | refresh _ state => rw [state]
  | ready waiting _ state =>
      rcases waiting with was | was | may
      · rw [state, was]
        rfl
      · rw [state, was]
        rfl
      · exact absurd may no.overwrite
  | start _ admitted state => rcases admitted with was | was <;> rw [state, was] <;> rfl
  | finish was state =>
      rw [state, was]
      rfl
  | abort exempt | reclaim _ _ exempt | attempt exempt => exact absurd exempt free

theorem Micro.keepsRow {c : Scope} {E : TaskId → Prop} {id : TaskId} (h : Micro c E s s')
    (ok : s.Ok) (no : c.Leaves id) : s.KeepsRow id s' where
  back := by
    rintro t' ht' rfl
    rcases (h.tasks ok).back ht' with ⟨t, ht, step⟩ | row
    · exact ⟨t, ht, step.id.symm, step.resolveFor (step.id ▸ no)⟩
    · rcases row.may with may | ⟨may, -⟩
      · exact absurd may (no.declare _ _)
      · exact absurd may no.reopen
  forth := by
    rintro t ht rfl
    rcases (h.tasks ok).forth ht ok with ⟨t', ht', step⟩ | ⟨may, -⟩
    · exact ⟨t', ht', step.id⟩
    · exact absurd may (no.archive t rfl)

theorem Micros.keepsRow {c : Scope} {E : TaskId → Prop} {id : TaskId} (h : Micros c E s s')
    (ok : s.Ok) (no : c.Leaves id) : s.KeepsRow id s' :=
  (Micros.invariant (I := fun s₁ => s.KeepsRow id s₁)
    (fun _ _ ok ih step => ih.trans (step.keepsRow ok no)) h ok (.refl id s)).2

theorem Micros.sameFate {c : Scope} {E : TaskId → Prop} {id : TaskId} (h : Micros c E s s')
    (ok : s.Ok) (no : c.Leaves id) (free : ¬ E id) : s.SameFate id s' := by
  refine (Micros.invariant (I := fun s₁ => s.SameFate id s₁) ?_ h ok ?_).2
  · rintro s₁ s₂ ok₁ ih step t ht t₂ ht₂ hid rfl
    rcases (step.tasks ok₁).back ht₂ with ⟨t₁, ht₁, h₁⟩ | row
    · exact (h₁.fate (h₁.id ▸ free) (h₁.id ▸ no)).trans (ih t ht t₁ ht₁ hid h₁.id.symm)
    · rcases row.may with may | ⟨may, -⟩
      · exact absurd may (no.declare _ _)
      · exact absurd may no.reopen
  · intro t ht t' ht' hid hid'
    rw [ok.task_eq ht ht' (hid.trans hid'.symm)]

/-- A move that ends no attempt of the task, and does not reclaim it too often, leaves its fate. -/
theorem Move.sameFate {c : Scope} {goes : AgentId → Prop} {id : TaskId} (h : Move c s s')
    (ok : s.Ok) (no : c.Leaves id) (apart : ∀ t, c.may (.merge t) ∨ c.may (.rollback t) →
      t.taskId ≠ id) (cancel : ¬ c.may (.cancel id)) (goesOn : ∀ a, c.reclaims a → goes a)
    (spared : ¬ s.Doomed c.cfg goes id) : s.SameFate id s' := by
  cases h with
  | micro h => exact Micros.sameFate (.single h) ok no (fun h => h)
  | takenOver r h =>
      by_cases same : id = r.taskId
      · intro t ht t' ht' hid hid'
        rw [(h.bound t' ht' (hid'.trans same)).1, ok.task_eq ht h.task (hid.trans same), h.state]
      · exact h.run.sameFate ok no same
  | closed r h =>
      refine h.run.sameFate ok no fun same => ?_
      rcases h.ended with ⟨may, -⟩ | ⟨may, -⟩
      · exact apart r (Or.inl may) same.symm
      · exact apart r (Or.inr may) same.symm
  | reclaimed agent h =>
      intro t ht t' ht' hid hid'
      rcases h.tasks t' ht' with ⟨old, -⟩ | ⟨r, hr, same, owner, requeued⟩
      · rw [ok.task_eq ht old (hid.trans hid'.symm)]
      · cases ok.task_eq ht hr ((hid.trans hid'.symm).trans same)
        have live : t.state.terminal = false := by
          have busy := requeued.busy
          cases hs : t.state <;> simp [hs, TaskState.terminal, TaskState.inProgress] at busy ⊢
        rcases requeued.state with ⟨state, -⟩ | ⟨-, bound⟩
        · rw [state, live]
          rfl
        · have may : c.reclaims agent := h.may.elim Or.inr fun h => Or.inl h.1
          exact absurd ⟨t, ht, hid, requeued.busy, bound, agent, owner, goesOn agent may⟩ spared
  | handed sems h => exact h.run.sameFate ok (no.within (c.serving_within sems)) (fun h => h)
  | cancelled task h =>
      refine h.run.sameFate ok no ?_
      rintro rfl
      exact cancel h.may

/-! ## The conflict -/

/-- A Phase C that answers a conflict has rolled its attempt back. -/
theorem connectPhaseC_conflict {p : GitProof} (conflict : p.err = some (.conflict files))
    (answered : r.preserveIdempotency = false)
    (h : connectPhaseC cfg now s i p = .ok (s', r)) : ownsAttempt s i = true ∧
      connectRollback cfg now s i.taskId i.tokenId (.conflict files) = .ok (s', r) := by
  rw [connectPhaseC, conflict] at h
  split at h
  · cases h
    cases answered
  rename_i owns
  refine ⟨by simpa using owns, ?_⟩
  split at h
  · cases h
    cases answered
  split at h
  · rename_i none
    cases none
  · rename_i other
    cases other
  · rename_i err
    cases err
    split at h
    · cases h
      cases answered
    · exact h

/-- A step is the Phase C of an attempt, and it answers that the merge conflicts. -/
structure Conflicts (cfg : Cfg) (σ : Sys) (l : Env × Action) (σ' : Sys) (i : Intent) (r : Reply) :
    Prop where
  step : Step cfg σ l σ'
  answer : ∃ input files, PhaseC σ l.2 i input ∧
    (reconcileGit l.1.git i input.merge).err = some (.conflict files) ∧
    connectPhaseC cfg l.1.now σ.store i (reconcileGit l.1.git i input.merge) = .ok (σ'.store, r)
  answered : r.preserveIdempotency = false

/-- What the promotion of a conflict finds: no row of the resolve task, or one that can be worked
on and is marked. -/
def Promotable (s : Store) (task : TaskId) : Prop :=
  ∀ t, s.getTask (resolveTaskId task) = some t → t.Resolves task

/-! ## The store before the rollback -/

/-- What the rollback of an attempt may do. -/
def rollbackScope (cfg : Cfg) (now : Time) (s : Store) (task : TaskId) : Scope where
  cfg := cfg
  now := now
  may := fun d =>
    match d with
    | .agents => True
    | .zombie agent => s.Stale cfg now agent
    | .rollback t => t.taskId = task
    | _ => False

/-- The promotion finds the row as it was. -/
theorem Store.KeepsRow.promotable (h : s.KeepsRow (resolveTaskId task) s')
    (fate : s.SameFate (resolveTaskId task) s') (ok : s.Ok) (ok' : s'.Ok) :
    Promotable s' task ↔ Promotable s task := by
  constructor
  · intro found t hget
    obtain ⟨ht, hid⟩ := ok.getTask.mp hget
    obtain ⟨t', ht', hid'⟩ := h.forth t ht hid
    obtain ⟨live, mark⟩ := found t' (ok'.getTask.mpr ⟨ht', hid'⟩)
    obtain ⟨t₁, ht₁, hid₁, same⟩ := h.back t' ht' hid'
    cases ok.task_eq ht ht₁ (hid.trans hid₁.symm)
    exact ⟨(fate t ht t' ht' hid hid').symm.trans live, same.symm.trans mark⟩
  · intro found t' hget
    obtain ⟨ht', hid'⟩ := ok'.getTask.mp hget
    obtain ⟨t, ht, hid, same⟩ := h.back t' ht' hid'
    obtain ⟨live, mark⟩ := found t (ok.getTask.mpr ⟨ht, hid⟩)
    exact ⟨(fate t ht t' ht' hid hid').trans live, same.trans mark⟩

theorem resolveTaskId_ne (task : TaskId) : resolveTaskId task ≠ task := by
  intro same
  have longer := congrArg String.length same
  simp [resolveTaskId] at longer

/-- The rollback leaves the resolve task as it was, if its sweep does not poison it. -/
theorem rolledBack_promotable {s₁ : Store} (ok : s.Ok) (owns : ownsAttempt s i = true)
    (back : rolledBack cfg now s i.taskId i.tokenId = .ok s₁)
    (spared : ¬ s.Doomed cfg (s.Stale cfg now) (resolveTaskId i.taskId)) :
    Promotable s₁ i.taskId ↔ Promotable s i.taskId := by
  let c : Scope := rollbackScope cfg now s i.taskId
  obtain ⟨t, hget, connecting, columns⟩ := ownsAttempt_task owns
  obtain ⟨ht, hid⟩ := ok.getTask.mp hget
  have moves : Moves c s s₁ := by
    refine rolledBack_takes (c := c) (t := t) trivial (fun _ h => h) hid ht connecting
      (congrArg (·.2.2.2) columns) (ownsAttempt_token owns) ?_ ok
    rw [hid]
    exact back
  have no : c.Leaves (resolveTaskId i.taskId) :=
    ⟨fun _ _ h => h, fun h => h, fun h => h, fun _ _ h => h⟩
  have apart : ∀ r, c.may (.merge r) ∨ c.may (.rollback r) →
      r.taskId ≠ resolveTaskId i.taskId := by
    rintro r (may | may)
    · cases may
    · rw [show r.taskId = i.taskId from may]
      exact (resolveTaskId_ne _).symm
  have goesOn : ∀ a, c.reclaims a → s.Stale cfg now a := by
    rintro a (may | may)
    · exact may
    · cases may
  have run := Moves.invariant (I := fun s' => s.KeepsRow (resolveTaskId i.taskId) s' ∧
      s.SameFate (resolveTaskId i.taskId) s' ∧
        ¬ s'.Doomed cfg (s.Stale cfg now) (resolveTaskId i.taskId))
    (fun s₂ s₃ ok₂ ih move => ?_) moves ok ⟨.refl _ s, fun t ht t' ht' id id' => ?_, spared⟩
  · exact run.2.1.promotable run.2.2.1 ok run.1
  · obtain ⟨keeps, fate, spared⟩ := ih
    obtain ⟨c', E, within, micros⟩ := move.micros
    have kept : s₂.KeepsRow (resolveTaskId i.taskId) s₃ := micros.keepsRow ok₂ (no.within within)
    have same : s₂.SameFate (resolveTaskId i.taskId) s₃ :=
      move.sameFate ok₂ no apart (fun h => h) goesOn spared
    refine ⟨keeps.trans kept, fun t ht t₃ ht₃ id id₃ => ?_, ?_⟩
    · obtain ⟨t₂, ht₂, id₂, -⟩ := kept.back t₃ ht₃ id₃
      exact (same t₂ ht₂ t₃ ht₃ id₂ id₃).trans (fate t ht t₂ ht₂ id id₂)
    · rintro ⟨t₃, ht₃, id₃, busy, bound, agent, owner, goes⟩
      obtain ⟨t₂, ht₂, id₂, busy₂, owner₂, count⟩ :=
        move.busyFrom ok₂ (fun _ h => h) t₃ ht₃ (fun h => h) busy
      exact spared ⟨t₂, ht₂, id₂.trans id₃, busy₂, count ▸ bound, agent, owner₂ ▸ owner, goes⟩
  · rw [ok.task_eq ht ht' (id.trans id'.symm)]

/-- A conflict leaves work to do if and only if its promotion finds no row of the resolve task,
or one that can be worked on and is marked.  So it was before the conflict already, if the sweep
of the rollback does not poison that task. -/
theorem conflict_leavesWork_iff (reach : Reachable cfg σ) (h : Conflicts cfg σ l σ' i r) :
    ∃ s₁, rolledBack cfg l.1.now σ.store i.taskId i.tokenId = .ok s₁ ∧
      (LeavesWork σ'.store i.taskId r ↔ Promotable s₁ i.taskId) ∧
      (¬ σ.store.Doomed cfg (σ.store.Stale cfg l.1.now) (resolveTaskId i.taskId) →
        (Promotable s₁ i.taskId ↔ Promotable σ.store i.taskId)) := by
  obtain ⟨input, files, -, conflict, run⟩ := h.answer
  obtain ⟨owns, rollback⟩ := connectPhaseC_conflict conflict h.answered run
  obtain ⟨s₁, back, ⟨files', -, promoted, named⟩ | ⟨other, -⟩⟩ := connectRollback_cases rollback
  rotate_left
  · exact absurd rfl (other files)
  have reach' : Reachable cfg σ' := reach.tail trivial h.step
  refine ⟨s₁, back, ?_, rolledBack_promotable reach.ok.store owns back⟩
  rw [leavesWork_iff reach'.ok.store reach'.marked named, promoted]
  exact promoteResolveTask_resolves_iff

/-! ## Two conflicts -/

/-- The conflict that the Phase C of a `connect` answers when it is resumed. -/
def conflictAt (cfg : Cfg) (env : Env) (σ : Sys) (k : ℕ) (input : Input) :
    Option (Store × Intent × Reply) :=
  match σ.procs[k]? with
  | some (.connect _ (.phaseC i)) =>
      match (reconcileGit env.git i input.merge).err,
        connectPhaseC cfg env.now σ.store i (reconcileGit env.git i input.merge) with
      | some (.conflict _), .ok (s, r) => if r.preserveIdempotency then none else some (s, i, r)
      | _, _ => none
  | _ => none

theorem conflicts_of_conflictAt {env : Env} {k : ℕ} {input : Input}
    (h : conflictAt cfg env σ k input = some (s', i, r)) :
    ∃ σ', σ'.store = s' ∧ Conflicts cfg σ (env, .resume k input) σ' i r := by
  rw [conflictAt] at h
  split at h
  · rename_i c i₀ hproc
    split at h
    · rename_i files s₀ r₀ err run
      split at h
      · cases h
      · rename_i answered
        cases h
        have answered : r.preserveIdempotency = false := by simpa using answered
        have cut : σ.Cut (.resume k input) (.connect c (.phaseC i)) input := ⟨k, rfl, hproc⟩
        refine ⟨σ.after k s' (.connect c (.complete r (some i))), rfl, ?_, ?_, answered⟩
        · show step cfg env σ (.resume k input) = _
          rw [step, hproc]
          refine Outcome.bind_eq_ok.mpr ⟨(s', .connect c (.complete r (some i))), ?_, rfl⟩
          refine Outcome.bind_eq_ok.mpr ⟨(s', .complete r (some i)), ?_, rfl⟩
          refine Outcome.bind_eq_ok.mpr ⟨(s', r), run, ?_⟩
          rw [answered]
          rfl
        · exact ⟨input, files, .connect cut, err, run⟩
    · cases h
  · cases h

/-- A coordinator whose repository verifies every candidate and every abort. -/
def conflictedAt (now : Time) (a : Action) : Env × Action :=
  ({ now := now
     instanceId := "c"
     git := some
       { branchTip := fun _ => some "c"
         integrationTip := some "m"
         changedPaths := fun _ _ => some ["a"]
         worktreeReady := true
         branchInIntegration := fun _ => some none
         abortMergeVerified := fun _ => .verified } }, a)

/-- A merge that conflicts. -/
def mergeConflict : Input := { merge := { err := some (.conflict ["a"]) } }

/-- The cuts of a `connect` before its Phase C. -/
def connectT (now : Time) (k : ℕ) : List (Env × Action) :=
  [ (.connect { taskId := "T", agentId := some "A", fence := some 1 }),
    .resume k {}, .resume k {}, .resume k {} ].map (conflictedAt now)

/-- A task begins, and its merge is about to conflict. -/
def firstConflict : List (Env × Action) :=
  ([ .begin { taskId := "T", agentId := "A", writes := ["a"] },
      .resume 0 {}, .resume 0 {}, .resume 0 {}, .resume 0 {}, .resume 0 {}, .resume 0 {} ].map
    (conflictedAt 1)) ++ connectT 2 1

/-- The resolve task of the first conflict is cancelled, and the merge is about to conflict once
more. -/
def secondConflict : List (Env × Action) :=
  firstConflict ++
    [ conflictedAt 2 (.resume 1 mergeConflict), conflictedAt 2 (.resume 1 {}),
      conflictedAt 3 (.call (.cancel "resolve::T" none)) ] ++ connectT 4 2

theorem conflict_leavesWork_iff_first :
    ∃ σ l σ' i r, Reachable {} σ ∧ Conflicts {} σ l σ' i r ∧
      ∃ s₁, rolledBack {} l.1.now σ.store i.taskId i.tokenId = .ok s₁ ∧
        (LeavesWork σ'.store i.taskId r ↔ Promotable s₁ i.taskId) ∧
        (¬ σ.store.Doomed {} (σ.store.Stale {} l.1.now) (resolveTaskId i.taskId) →
          (Promotable s₁ i.taskId ↔ Promotable σ.store i.taskId)) := by
  obtain ⟨σ, reach, found⟩ : ∃ σ, Reachable {} σ ∧
      (conflictAt {} (conflictedAt 2 .recover).1 σ 1 mergeConflict).isSome = true :=
    exists_reachable firstConflict (by decide +kernel)
  obtain ⟨⟨s', i, r⟩, found⟩ := Option.isSome_iff_exists.mp found
  obtain ⟨σ', -, conflicts⟩ := conflicts_of_conflictAt found
  exact ⟨σ, _, σ', i, r, reach, conflicts, conflict_leavesWork_iff reach conflicts⟩

/-- The second conflict answers with the resolve task that was cancelled. -/
theorem conflict_keeps_cancelled :
    ∃ σ l σ' i r, Reachable {} σ ∧ Conflicts {} σ l σ' i r ∧
      r.resolveTaskId = some "resolve::T" ∧
      (σ'.store.getTask "resolve::T").map Task.state = some .ABORTED ∧
      ¬ LeavesWork σ'.store i.taskId r := by
  obtain ⟨σ, reach, found⟩ : ∃ σ, Reachable {} σ ∧
      ((conflictAt {} (conflictedAt 4 .recover).1 σ 2 mergeConflict).any fun c =>
        c.2.2.resolveTaskId = some "resolve::T" ∧
          (c.1.getTask "resolve::T").map Task.state = some .ABORTED) = true :=
    exists_reachable secondConflict (by decide +kernel)
  obtain ⟨⟨s', i, r⟩, found, ended⟩ := (Option.any_eq_true _ _).mp found
  obtain ⟨σ', rfl, conflicts⟩ := conflicts_of_conflictAt found
  obtain ⟨named, state⟩ := of_decide_eq_true ended
  refine ⟨σ, _, σ', i, r, reach, conflicts, named, state, ?_⟩
  rintro ⟨id, t, hid, hget, -, live, -⟩
  rw [named] at hid
  cases hid
  rw [hget] at state
  rw [Option.some.inj state] at live
  cases live

end Omd
