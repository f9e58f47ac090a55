import Omd.Moves

/-!
# What a change makes of the tables

The keys of the tables are distinct and new identifiers are fresh: `Store.Ok`, which every
change keeps.  In such a store a change rewrites one row, adds one, or leaves the rows that
it does not remove; `OrbitsAfter` and `TasksAfter` are these three cases, from which every
invariant of the rows is derived.
-/

namespace Omd

open Lib

/-! ## Columns for life -/

namespace Orbit.SameRow

variable {o o' o'' : Orbit}

@[refl] theorem refl (o : Orbit) : o.SameRow o := rfl

theorem trans (h : o.SameRow o') (h' : o'.SameRow o'') : o.SameRow o'' := by
  rw [SameRow] at h h' ⊢
  rw [h', h]

theorem orbitId (h : o.SameRow o') : o'.orbitId = o.orbitId := by rw [h]
theorem taskId (h : o.SameRow o') : o'.taskId = o.taskId := by rw [h]
theorem agentId (h : o.SameRow o') : o'.agentId = o.agentId := by rw [h]
theorem pathspec (h : o.SameRow o') : o'.pathspec = o.pathspec := by rw [h]
theorem mode (h : o.SameRow o') : o'.mode = o.mode := by rw [h]
theorem kind (h : o.SameRow o') : o'.kind = o.kind := by rw [h]
theorem priority (h : o.SameRow o') : o'.priority = o.priority := by rw [h]
theorem resourceKey (h : o.SameRow o') : o'.resourceKey = o.resourceKey := by rw [h]
theorem queueSeq (h : o.SameRow o') : o'.queueSeq = o.queueSeq := by rw [h]
theorem policyVersion (h : o.SameRow o') : o'.policyVersion = o.policyVersion := by rw [h]
theorem pathspecDigest (h : o.SameRow o') : o'.pathspecDigest = o.pathspecDigest := by rw [h]
theorem enqueuedAt (h : o.SameRow o') : o'.enqueuedAt = o.enqueuedAt := by rw [h]
theorem requestId (h : o.SameRow o') : o'.requestId = o.requestId := by rw [h]
theorem requestGeneration (h : o.SameRow o') : o'.requestGeneration = o.requestGeneration := by
  rw [h]
/-- What admission reads of a row stays. -/
theorem row (h : o.SameRow o') : o'.row = o.row := by rw [h]; rfl

end Orbit.SameRow

/-- A row that is terminal lives no longer. -/
theorem Orbit.live_of_terminal {o : Orbit} (h : o.state.terminal = true) : o.live = false := by
  rw [Orbit.live]
  cases hstate : o.state <;> simp [hstate, OrbitState.terminal] at h ⊢

namespace OrbitStamps

variable {now : Time} {o o' : Orbit}

/-- A change that stamps nothing. -/
theorem same (terminalAt : o'.terminalAt = o.terminalAt)
    (releasedAt : o'.releasedAt = o.releasedAt) :
    OrbitStamps now o o' :=
  Or.inl ⟨terminalAt, Or.inl releasedAt⟩

/-- A row that ends is released then. -/
theorem released (live : o.live = true) (ended : o'.live = false)
    (terminalAt : o'.terminalAt = o.terminalAt) (releasedAt : o'.releasedAt = some now) :
    OrbitStamps now o o' :=
  Or.inl ⟨terminalAt, Or.inr ⟨live, ended, releasedAt⟩⟩

@[refl] theorem refl (now : Time) (o : Orbit) : OrbitStamps now o o := .same rfl rfl

end OrbitStamps

/-- A row that at most got its stamp. -/
structure Orbit.Stamped (now : Time) (o o' : Orbit) : Prop where
  row : o' = { o with terminalAt := o'.terminalAt }
  stamps : OrbitStamps now o o'

namespace Orbit.Stamped

variable {now : Time} {o o' : Orbit}

@[refl] theorem refl (o : Orbit) : o.Stamped now o := ⟨rfl, .refl now o⟩

theorem sameRow (h : o.Stamped now o') : o.SameRow o' := by rw [h.row]; rfl
theorem state (h : o.Stamped now o') : o'.state = o.state := by rw [h.row]
theorem merging (h : o.Stamped now o') : o'.merging = o.merging := by rw [h.row]
theorem binding (h : o.Stamped now o') : o'.binding = o.binding := by rw [h.row]; rfl
theorem expiresAt (h : o.Stamped now o') : o'.expiresAt = o.expiresAt := by rw [h.row]
theorem record (h : o.Stamped now o') : o'.record = o.record := by rw [h.row]; rfl
theorem orbitId (h : o.Stamped now o') : o'.orbitId = o.orbitId := h.sameRow.orbitId

/-- A stamp is a change of its own row. -/
theorem change {c : Scope} (h : o.Stamped c.now o') (E : TaskId → Prop) (s : Store) :
    OrbitStep c E s o o' where
  row := h.sameRow
  change := .keep h.state h.merging h.binding (fun _ => Or.inl h.expiresAt) fun _ => h.record
  stamps := fun _ => h.stamps

end Orbit.Stamped

/-- A task row that at most got or lost its stamp. -/
def Task.Stamped (t t' : Task) : Prop := t' = { t with terminalAt := t'.terminalAt }

namespace Task.Stamped

variable {t t' : Task}

@[refl] theorem refl (t : Task) : t.Stamped t := rfl

theorem taskId (h : t.Stamped t') : t'.taskId = t.taskId := by rw [h]
theorem state (h : t.Stamped t') : t'.state = t.state := by rw [h]
theorem agentId (h : t.Stamped t') : t'.agentId = t.agentId := by rw [h]
theorem attempt (h : t.Stamped t') : t'.attempt = t.attempt := by rw [h]; rfl
theorem reads (h : t.Stamped t') : t'.reads = t.reads := by rw [h]
theorem deps (h : t.Stamped t') : t'.deps = t.deps := by rw [h]
theorem resolveFor (h : t.Stamped t') : t'.resolveFor = t.resolveFor := by rw [h]
theorem readSyncedGen (h : t.Stamped t') : t'.readSyncedGen = t.readSyncedGen := by rw [h]
theorem reclaims (h : t.Stamped t') : t'.reclaims = t.reclaims := by rw [h]

/-- A stamp leaves what the task resolves. -/
theorem marked (h : t.Stamped t') (marked : t.Marked) : t'.Marked := by
  rw [h]
  exact marked

/-- A stamp is a change of its own task. -/
theorem change (h : t.Stamped t') (c : Scope) (E : TaskId → Prop) (s : Store) :
    TaskStep c E s t t' :=
  ⟨h.taskId, .same h.deps h.reads h.resolveFor, Or.inl h.reclaims, h.marked,
    .keep h.state h.agentId h.attempt h.readSyncedGen⟩

end Task.Stamped

/-! ## Keys -/

/-- What the tasks say about their attempts: identifiers that were drawn, each for one task,
and one of each for a task that is connecting. -/
structure AttemptsOk (uuid : ℕ) (tasks : List Task) : Prop where
  tokenDrawn : ∀ t ∈ tasks, ∀ id, t.connectTokenId = some id → id < uuid
  attemptDrawn : ∀ t ∈ tasks, ∀ n, t.connectAttemptId = some n → n < uuid
  token : ∀ t ∈ tasks, ∀ t' ∈ tasks, ∀ id, t.connectTokenId = some id →
    t'.connectTokenId = some id → t = t'
  attempt : ∀ t ∈ tasks, ∀ t' ∈ tasks, ∀ n, t.connectAttemptId = some n →
    t'.connectAttemptId = some n → t = t'
  bound : ∀ t ∈ tasks, t.state = .CONNECTING →
    t.connectAttemptId ≠ none ∧ t.connectTokenId ≠ none

/-- The attempts of the tasks were drawn before. -/
theorem AttemptsOk.uuid {uuid uuid' : ℕ} {tasks : List Task} (h : AttemptsOk uuid tasks)
    (le : uuid ≤ uuid') : AttemptsOk uuid' tasks where
  tokenDrawn := fun t ht id hid => (h.tokenDrawn t ht id hid).trans_le le
  attemptDrawn := fun t ht n hn => (h.attemptDrawn t ht n hn).trans_le le
  token := h.token
  attempt := h.attempt
  bound := h.bound

/-- What a change of one barrier leaves of it, it leaves of them all. -/
theorem map_setBarrier {α : Type} (s : Store) (id : BarrierId) {f : Barrier → Barrier}
    {g : Barrier → α} (hf : ∀ b, g (f b) = g b) :
    (s.setBarrier id f).barriers.map g = s.barriers.map g := by
  refine List.map_map.trans (List.map_congr_left fun b _ => ?_)
  rw [Function.comp_apply]
  split
  · exact hf b
  · rfl

/-- A barrier is known by its name and its generation. -/
structure BarriersOk (keys : List (BarrierId × String × ℕ)) : Prop where
  distinct : (keys.map Prod.fst).Nodup
  named : ∀ k ∈ keys, k.1 = k.2

/-- The next generation of a name has an identifier of its own. -/
theorem BarriersOk.append {keys : List (BarrierId × String × ℕ)} (h : BarriersOk keys)
    {key : BarrierId × String × ℕ} (id : key.1 = key.2)
    (next : ∀ k ∈ keys, k.2.1 = key.2.1 → k.2.2 < key.2.2) : BarriersOk (keys ++ [key]) where
  distinct := by
    rw [List.map_append, List.map_singleton]
    refine List.nodup_append.mpr ⟨h.distinct, List.nodup_singleton _, ?_⟩
    rintro a ha b hb rfl
    rw [List.mem_singleton] at hb
    obtain ⟨k, hk, same⟩ := List.mem_map.mp ha
    have key : k.2 = key.2 := (h.named k hk).symm.trans ((same.trans hb).trans id)
    have later := next k hk (congrArg Prod.fst key)
    rw [key] at later
    exact lt_irrefl _ later
  named := by
    intro k hk
    rcases List.mem_append.mp hk with hk | hk
    · exact h.named k hk
    · exact List.mem_singleton.mp hk ▸ id

/-- The keys are distinct, and what is drawn next is new. -/
structure Store.Ok (s : Store) : Prop where
  orbitIds : Table.Distinct Orbit.orbitId s.orbits
  fresh : ∀ o ∈ s.orbits, o.orbitId < s.uuid
  taskIds : Table.Distinct Task.taskId s.tasks
  agentIds : Table.Distinct Agent.agentId s.agents
  requestIds : Table.Distinct IdemRow.requestId s.idempotency
  waiterIds : Table.Distinct SemWaiter.waiterId s.semWaiters
  freshWaiter : ∀ w ∈ s.semWaiters, w.waiterId < s.uuid
  listenerIds : Table.Distinct FlagWaiter.waiterId s.flagWaiters
  freshListener : ∀ w ∈ s.flagWaiters, w.waiterId < s.uuid
  gens : ∀ m ∈ s.mergeLog, m.gen ≤ s.integrationGen
  attempts : AttemptsOk s.uuid s.tasks
  leases : ∀ f ∈ s.flags, ∀ id, f.leaseId = some id →
    id < s.uuid ∧ ∀ o ∈ s.orbits, o.orbitId = id → o.kind = .flag_ephemeral
  barriers : BarriersOk (s.barriers.map Barrier.key)

namespace Store.Ok

variable {s s' : Store}

/-- The store that a coordinator begins with. -/
theorem empty : ({} : Store).Ok :=
  ⟨List.nodup_nil, by simp, List.nodup_nil, List.nodup_nil, List.nodup_nil, List.nodup_nil, by simp,
    List.nodup_nil, by simp, by simp, ⟨by simp, by simp, by simp, by simp, by simp⟩, by simp,
    ⟨List.nodup_nil, by simp⟩⟩

theorem getOrbit (ok : s.Ok) {id : OrbitId} {o : Orbit} :
    s.getOrbit id = some o ↔ o ∈ s.orbits ∧ o.orbitId = id :=
  ok.orbitIds.get_eq_some

theorem getTask (ok : s.Ok) {id : TaskId} {t : Task} :
    s.getTask id = some t ↔ t ∈ s.tasks ∧ t.taskId = id :=
  ok.taskIds.get_eq_some

theorem orbit_eq (ok : s.Ok) {o o' : Orbit} (h : o ∈ s.orbits) (h' : o' ∈ s.orbits)
    (id : o.orbitId = o'.orbitId) : o = o' :=
  ok.orbitIds.eq h h' id

/-- A task is known by its identifier. -/
theorem task_eq (ok : s.Ok) {t t' : Task} (h : t ∈ s.tasks) (h' : t' ∈ s.tasks)
    (id : t.taskId = t'.taskId) : t = t' :=
  ok.taskIds.eq h h' id

theorem barrierIds (ok : s.Ok) : Table.Distinct Barrier.barrierId s.barriers := by
  have nodup := ok.barriers.distinct
  rwa [List.map_map] at nodup

theorem barrier_eq (ok : s.Ok) {b b' : Barrier} (h : b ∈ s.barriers) (h' : b' ∈ s.barriers)
    (id : b.barrierId = b'.barrierId) : b = b' :=
  ok.barrierIds.eq h h' id

theorem getAgent (ok : s.Ok) {id : AgentId} {a : Agent} :
    s.getAgent id = some a ↔ a ∈ s.agents ∧ a.agentId = id :=
  ok.agentIds.get_eq_some

theorem getIdem (ok : s.Ok) {id : RequestId} {r : IdemRow} :
    s.getIdem id = some r ↔ r ∈ s.idempotency ∧ r.requestId = id :=
  ok.requestIds.get_eq_some

end Store.Ok

theorem FlagWaiter.Woken.id {w w' : FlagWaiter} (h : w.Woken w') : w'.waiterId = w.waiterId := by
  cases h <;> rfl

/-- Who was woken is not woken again. -/
theorem FlagWaiter.Woken.trans {w w₁ w' : FlagWaiter} (h : w.Woken w₁) (h' : w₁.Woken w') :
    w.Woken w' := by
  cases h' with
  | stays => exact h
  | satisfied waiting =>
      cases h with
      | stays => exact .satisfied waiting
      | satisfied _ | broken _ => cases waiting
  | broken waiting =>
      cases h with
      | stays => exact .broken waiting
      | satisfied _ | broken _ => cases waiting

namespace Wakes

variable {flags flags₁ flags' : List Flag} {waiters waiters₁ waiters' : List FlagWaiter}

theorem ids (h : Wakes flags waiters flags' waiters')
    (distinct : Table.Distinct FlagWaiter.waiterId waiters) :
    waiters'.map FlagWaiter.waiterId = waiters.map FlagWaiter.waiterId := by
  obtain ⟨f, woken, rfl⟩ := h.rows distinct
  rw [List.map_map]
  exact List.map_congr_left fun w hw => (woken w hw).id

theorem distinct (h : Wakes flags waiters flags' waiters')
    (distinct : Table.Distinct FlagWaiter.waiterId waiters) :
    Table.Distinct FlagWaiter.waiterId waiters' := by
  rw [Table.Distinct, h.ids distinct]
  exact distinct

/-- Nobody waits who did not before. -/
theorem back (h : Wakes flags waiters flags' waiters')
    (distinct : Table.Distinct FlagWaiter.waiterId waiters) {w' : FlagWaiter}
    (hw' : w' ∈ waiters') : ∃ w ∈ waiters, w.Woken w' := by
  obtain ⟨f, woken, rfl⟩ := h.rows distinct
  obtain ⟨w, hw, rfl⟩ := List.mem_map.mp hw'
  exact ⟨w, hw, woken w hw⟩

theorem fresh {uuid : ℕ} (h : Wakes flags waiters flags' waiters')
    (distinct : Table.Distinct FlagWaiter.waiterId waiters)
    (fresh : ∀ w ∈ waiters, w.waiterId < uuid) : ∀ w ∈ waiters', w.waiterId < uuid := by
  intro w' hw'
  obtain ⟨w, hw, woken⟩ := h.back distinct hw'
  exact woken.id ▸ fresh w hw

/-- Two writes that wake, one after the other. -/
theorem trans (h : Wakes flags waiters flags₁ waiters₁)
    (h' : Wakes flags₁ waiters₁ flags' waiters') : Wakes flags waiters flags' waiters' where
  rows := by
    intro distinct
    obtain ⟨f', woken', rfl⟩ := h'.rows (h.distinct distinct)
    obtain ⟨f, woken, rfl⟩ := h.rows distinct
    exact ⟨f' ∘ f, fun w hw => (woken w hw).trans (woken' (f w) (List.mem_map_of_mem hw)),
      List.map_map⟩
  heard := fun distinct heard => h'.heard (h.distinct distinct) (h.heard distinct heard)

end Wakes

/-- Two such writes, one after the other. -/
theorem Board.trans {flags flags₁ flags' : List Flag} {waiters waiters₁ waiters' : List FlagWaiter}
    (h : Board flags waiters flags₁ waiters₁) (h' : Board flags₁ waiters₁ flags' waiters') :
    Board flags waiters flags' waiters' where
  toWakes := h.toWakes.trans h'.toWakes
  dormant := fun key plain dormant => h'.dormant key plain (h.dormant key plain dormant)
  latched := fun key plain latched => by
    obtain ⟨latched₁, same₁⟩ := h.latched key plain latched
    obtain ⟨latched', same'⟩ := h'.latched key plain latched₁
    exact ⟨latched', same'.trans same₁⟩

/-- What frames the tables keeps the invariant. -/
theorem Frame.ok {s s' : Store} (h : Frame s s') (ok : s.Ok) : s'.Ok where
  orbitIds := h.orbits ▸ ok.orbitIds
  fresh := fun o ho => lt_of_lt_of_le (ok.fresh o (h.orbits ▸ ho)) h.uuid
  taskIds := h.tasks ▸ ok.taskIds
  agentIds := h.agents ▸ ok.agentIds
  requestIds := h.idempotency ▸ ok.requestIds
  waiterIds := h.semWaiters ▸ ok.waiterIds
  freshWaiter := fun w hw => lt_of_lt_of_le (ok.freshWaiter w (h.semWaiters ▸ hw)) h.uuid
  listenerIds := h.board.distinct ok.listenerIds
  freshListener := fun w hw =>
    (h.board.fresh ok.listenerIds ok.freshListener w hw).trans_le h.uuid
  gens := by
    rw [h.mergeLog, h.integrationGen]
    exact ok.gens
  attempts := h.tasks ▸ ok.attempts.uuid h.uuid
  leases := by
    intro f hf id hid
    obtain ⟨f₀, hf₀, hid₀⟩ := h.leases f hf id hid
    have := ok.leases f₀ hf₀ id hid₀
    exact ⟨lt_of_lt_of_le this.1 h.uuid, h.orbits ▸ this.2⟩
  barriers := h.barriers ▸ ok.barriers

theorem Store.Ok.announce {s : Store} (ok : s.Ok) (news : List OutboxRow) :
    (s.announce news).Ok := { ok with }

theorem Frame.refl (s : Store) : Frame s s := {}

namespace BarrierState

/-- A broken barrier stays so. -/
theorem Leads.eq_broken {b : BarrierState} (h : BarrierState.BROKEN.Leads b) : b = .BROKEN := by
  induction h with
  | refl => rfl
  | tail _ step ih =>
      subst ih
      obtain ⟨trigger, advance⟩ := step
      cases trigger <;> cases advance

/-- A barrier is not armed again. -/
theorem Leads.ne_armed {b b' : BarrierState} (h : b.Leads b') (ne : b ≠ .ARMED) :
    b' ≠ .ARMED := by
  induction h with
  | refl => exact ne
  | tail _ step _ =>
      rintro rfl
      obtain ⟨trigger, advance⟩ := step
      rename_i b _ _
      cases b <;> cases trigger <;> cases advance

/-- Only a generation that is armed or tripping is tripping later. -/
theorem Leads.active {b b' : BarrierState} (h : b.Leads b') (active : b'.active = true) :
    b.active = true := by
  induction h with
  | refl => exact active
  | tail _ step ih =>
      obtain ⟨trigger, advance⟩ := step
      rename_i b₁ b₂ _
      refine ih ?_
      cases b₁ <;> cases trigger <;> cases advance <;> first | rfl | cases active

theorem ne_armed_of_tripped {b : BarrierState} (h : b.tripped = true) : b ≠ .ARMED := by
  rintro rfl
  cases h

end BarrierState

/-- The parties of a generation are fixed once it is filled, so two changes compose. -/
theorem Barrier.GoesOn.trans {merged : TaskId → Prop}
    {parties parties₁ parties' : List BarrierParty} {b b₁ b' : Barrier}
    (h : b.GoesOn merged parties parties₁ b₁) (h' : b₁.GoesOn merged parties₁ parties' b') :
    b.GoesOn merged parties parties' b' where
  key := h'.key.trans h.key
  leads := h.leads.trans h'.leads
  fixed := by
    intro filled task
    have later := h'.fixed (h.leads.ne_armed filled) task
    rw [h.key] at later
    exact later.trans (h.fixed filled task)
  trips := by
    intro tripped
    rcases h'.trips tripped with tripped | complete
    · rcases h.trips tripped with before | complete
      · exact Or.inl before
      · refine Or.inr fun task party => complete task ?_
        rw [← h.key] at party ⊢
        exact (h'.fixed (BarrierState.ne_armed_of_tripped tripped) task).mp party
    · exact Or.inr (h.key ▸ complete)

theorem Gather.trans {merged : TaskId → Prop} {rows rows₁ rows' : List Barrier}
    {parties parties₁ parties' : List BarrierParty}
    (h : Gather merged rows parties rows₁ parties₁)
    (h' : Gather merged rows₁ parties₁ rows' parties') :
    Gather merged rows parties rows' parties' := by
  intro b' hb'
  obtain ⟨b₁, hb₁, later⟩ := h' b' hb'
  obtain ⟨b, hb, before⟩ := h b₁ hb₁
  exact ⟨b, hb, before.trans later⟩

/-- The identifiers of barriers are distinct when their keys are. -/
theorem barrierIds_of_keys {rows rows' : List Barrier}
    (keys : rows'.map Barrier.key = rows.map Barrier.key)
    (distinct : Table.Distinct Barrier.barrierId rows) :
    Table.Distinct Barrier.barrierId rows' := by
  have ids : rows'.map Barrier.barrierId = rows.map Barrier.barrierId := by
    have firsts := congrArg (List.map Prod.fst) keys
    rwa [List.map_map, List.map_map] at firsts
  rwa [Table.Distinct, ids]

/-- Two frames compose. -/
theorem Frame.trans {s s₁ s' : Store} (h : Frame s s₁) (h' : Frame s₁ s') : Frame s s' where
  orbits := h'.orbits.trans h.orbits
  tasks := h'.tasks.trans h.tasks
  mergeLog := h'.mergeLog.trans h.mergeLog
  integrationGen := h'.integrationGen.trans h.integrationGen
  agents := h'.agents.trans h.agents
  idempotency := h'.idempotency.trans h.idempotency
  semWaiters := h'.semWaiters.trans h.semWaiters
  semaphores := h'.semaphores.trans h.semaphores
  outbox := h'.outbox.trans h.outbox
  barriers := h'.barriers.trans h.barriers
  terms := h'.terms.trans h.terms
  gather := by
    intro distinct
    have first := h.gather distinct
    have second := h'.gather (barrierIds_of_keys h.barriers distinct)
    rw [h.tasks, h.tasksArchive] at second
    exact first.trans second
  tasksArchive := h'.tasksArchive.trans h.tasksArchive
  orbitsArchive := h'.orbitsArchive.trans h.orbitsArchive
  leases := by
    intro f hf id hid
    obtain ⟨f₁, hf₁, hid₁⟩ := h'.leases f hf id hid
    exact h.leases f₁ hf₁ id hid₁
  board := h.board.trans h'.board
  uuid := h.uuid.trans h'.uuid
  seq := h.seq.trans h'.seq
  fence := h.fence.trans h'.fence

/-! ## The tables after a change -/

/-- The rows of `orbits` after a change: what stays is as it was, or one row changed, or
one was added. -/
inductive OrbitsAfter (c : Scope) (E : TaskId → Prop) (s s' : Store) : Prop
  | kept (back : ∀ o' ∈ s'.orbits, ∃ o ∈ s.orbits, o.Stamped c.now o')
      (forth : ∀ o ∈ s.orbits, (∃ o' ∈ s'.orbits, o.Stamped c.now o') ∨ o ∈ s'.orbitsArchive ∧
        o.state.terminal = true ∧ ∀ t ∈ s.tasks, t.state.terminal = false →
          o.taskId ≠ some t.taskId)
  | changed (o o' : Orbit) (mem : o ∈ s.orbits) (step : OrbitStep c E s o o')
      (rows : ∀ r, r ∈ s'.orbits ↔ r ∈ s.orbits ∧ r.orbitId ≠ o.orbitId ∨ r = o')
  | added (o : Orbit) (row : NewRow c s o) (id : o.orbitId = s.uuid)
      (line : Lined c s o s'.semWaiters) (rows : ∀ r, r ∈ s'.orbits ↔ r ∈ s.orbits ∨ r = o)
      (ticket : o.kind = .orbit → s'.seq = s.seq + 1)

/-- The rows of `tasks` after a change. -/
inductive TasksAfter (c : Scope) (E : TaskId → Prop) (s s' : Store) : Prop
  | kept (back : ∀ t' ∈ s'.tasks, ∃ t ∈ s.tasks, t.Stamped t')
      (forth : ∀ t ∈ s.tasks, (∃ t' ∈ s'.tasks, t.Stamped t') ∨ c.may (.archive t) ∧
        t.state.terminal = true ∧ ∀ r ∈ s.tasks, r.state.terminal = false → t.taskId ∉ r.deps)
  | changed (t t' : Task) (mem : t ∈ s.tasks) (step : TaskStep c E s t t')
      (rows : ∀ r, r ∈ s'.tasks ↔ r ∈ s.tasks ∧ r.taskId ≠ t.taskId ∨ r = t')
      (orbits : s'.orbits = s.orbits)
  | added (t : Task) (row : NewTask c s t) (rows : ∀ r, r ∈ s'.tasks ↔ r ∈ s.tasks ∨ r = t)
      (orbits : s'.orbits = s.orbits)

section Shapes

variable {c : Scope} {E : TaskId → Prop} {s s' : Store}

theorem OrbitsAfter.of_eq (h : s'.orbits = s.orbits) : OrbitsAfter c E s s' :=
  .kept (fun o ho => ⟨o, h ▸ ho, .refl o⟩) fun o ho => Or.inl ⟨o, h.symm ▸ ho, .refl o⟩

theorem TasksAfter.of_eq (h : s'.tasks = s.tasks) : TasksAfter c E s s' :=
  .kept (fun t ht => ⟨t, h ▸ ht, .refl t⟩) fun t ht => Or.inl ⟨t, h.symm ▸ ht, .refl t⟩

/-- The rows after one of them is written. -/
theorem Store.Ok.mem_setOrbit (ok : s.Ok) {o : Orbit} (ho : o ∈ s.orbits) (f : Orbit → Orbit)
    (r : Orbit) : r ∈ (s.setOrbit o.orbitId f).orbits ↔
      r ∈ s.orbits ∧ r.orbitId ≠ o.orbitId ∨ r = f o := by
  rw [Store.setOrbit, Table.mem_modify]
  refine or_congr_right ⟨?_, fun h => ⟨o, ho, rfl, h⟩⟩
  rintro ⟨r₀, hr₀, hid, rfl⟩
  rw [ok.orbit_eq hr₀ ho hid]

/-- The tasks after one of them is written. -/
theorem Store.Ok.mem_setTask (ok : s.Ok) {t : Task} (ht : t ∈ s.tasks) (f : Task → Task)
    (r : Task) : r ∈ (s.setTask t.taskId f).tasks ↔
      r ∈ s.tasks ∧ r.taskId ≠ t.taskId ∨ r = f t := by
  rw [Store.setTask, Table.mem_modify]
  refine or_congr_right ⟨?_, fun h => ⟨t, ht, rfl, h⟩⟩
  rintro ⟨r₀, hr₀, hid, rfl⟩
  rw [ok.task_eq hr₀ ht hid]

theorem setOrbit_of_none {id : OrbitId} (h : s.getOrbit id = none) (f : Orbit → Orbit) :
    (s.setOrbit id f).orbits = s.orbits := by
  rw [Store.setOrbit, Table.modify]
  refine (List.map_congr_left fun r hr => ?_).trans (List.map_id _)
  rw [if_neg (Table.get_eq_none.mp h r hr), id_eq]

theorem setTask_of_none {id : TaskId} (h : s.getTask id = none) (f : Task → Task) :
    (s.setTask id f).tasks = s.tasks := by
  rw [Store.setTask, Table.modify]
  refine (List.map_congr_left fun r hr => ?_).trans (List.map_id _)
  rw [if_neg (Table.get_eq_none.mp h r hr), id_eq]

/-- The first map of the collector on a task. -/
theorem stampTerminal_tasks (s : Store) (now : Time) :
    (∀ t' ∈ (s.stampTerminal now).tasks, ∃ t ∈ s.tasks, t.Stamped t') ∧
      ∀ t ∈ s.tasks, ∃ t' ∈ (s.stampTerminal now).tasks, t.Stamped t' := by
  have stamped (t : Task) : t.Stamped
      (if !t.state.terminal then { t with terminalAt := none }
        else if t.terminalAt = none then
          { t with terminalAt := some (if t.state = .MERGED then t.mergedAt.getD now else now) }
        else t) := by
    split
    · rfl
    · split <;> rfl
  constructor
  · intro t' ht'
    obtain ⟨t, ht, rfl⟩ := List.mem_map.mp ht'
    exact ⟨t, ht, stamped t⟩
  · exact fun t ht => ⟨_, List.mem_map_of_mem ht, stamped t⟩

/-- The first map of the collector on an orbit. -/
theorem stampTerminal_orbits (s : Store) (now : Time) :
    (∀ o' ∈ (s.stampTerminal now).orbits, ∃ o ∈ s.orbits, o.Stamped now o') ∧
      ∀ o ∈ s.orbits, ∃ o' ∈ (s.stampTerminal now).orbits, o.Stamped now o' := by
  have stamped (o : Orbit) : o.Stamped now
      (if o.state.terminal ∧ o.terminalAt = none then
        { o with terminalAt := some (o.releasedAt.getD now) } else o) := by
    split
    · rename_i ended
      exact ⟨rfl, Or.inr ⟨ended.1, ended.2, rfl, rfl⟩⟩
    · rfl
  constructor
  · intro o' ho'
    obtain ⟨o, ho, rfl⟩ := List.mem_map.mp ho'
    exact ⟨o, ho, stamped o⟩
  · exact fun o ho => ⟨_, List.mem_map_of_mem ho, stamped o⟩

/-- Each change writes at most one orbit, inserts one, or archives. -/
theorem Micro.orbits (ok : s.Ok) (h : Micro c E s s') : OrbitsAfter c E s s' := by
  cases h with
  | orbit id f news step announced known frame =>
      cases hget : s.getOrbit id with
      | none => exact .of_eq (frame.orbits.trans (setOrbit_of_none hget f))
      | some o =>
          obtain ⟨hmem, rfl⟩ := ok.getOrbit.mp hget
          exact .changed o (f o) hmem (step o hget) fun r =>
            frame.orbits ▸ ok.mem_setOrbit hmem f r
  | insert o news row introduced id drawn ticket line frame =>
      refine .added o row id line (fun r => ?_) ticket
      rw [frame.orbits, Store.addOrbit, List.mem_append, List.mem_singleton]
      rfl
  | stamp now frame clock =>
      subst clock
      obtain ⟨back, forth⟩ := stampTerminal_orbits s c.now
      rw [← frame.orbits] at back forth
      exact .kept back fun o ho => Or.inl (forth o ho)
  | archiveOrbits p terminal unused frame =>
      have hmem : ∀ o, o ∈ s'.orbits ↔ o ∈ s.orbits ∧ p o = false := by
        intro o
        rw [frame.orbits, List.mem_filter, Bool.not_eq_true']
      refine .kept (fun o ho => ⟨o, ((hmem o).mp ho).1, .refl o⟩) fun o ho => ?_
      cases hp : p o with
      | false => exact Or.inl ⟨o, (hmem o).mpr ⟨ho, hp⟩, .refl o⟩
      | true =>
          refine Or.inr ⟨?_, terminal o ho hp, unused o ho hp⟩
          rw [frame.orbitsArchive]
          exact List.mem_append_right _ (List.mem_filter.mpr ⟨ho, hp⟩)
  | frame frame | enroll _ _ _ _ frame | agent _ _ _ _ frame | reject _ _ _ _ frame
  | summary _ _ _ frame | task _ _ _ frame | declare _ _ frame | publish _ _ _ frame
  | request _ frame | waiters _ frame | slots _ _ _ _ frame | flags _ frame
  | arm _ _ _ _ _ _ _ _ frame | trip _ _ _ frame
  | archiveTasks _ _ _ _ frame =>
      exact .of_eq frame.orbits

/-- Each change writes at most one task, inserts one, or archives. -/
theorem Micro.tasks (ok : s.Ok) (h : Micro c E s s') : TasksAfter c E s s' := by
  cases h with
  | task id f step frame =>
      cases hget : s.getTask id with
      | none => exact .of_eq (frame.tasks.trans (setTask_of_none hget f))
      | some t =>
          obtain ⟨hmem, rfl⟩ := ok.getTask.mp hget
          exact .changed t (f t) hmem (step t hget)
            (fun r => frame.tasks ▸ ok.mem_setTask hmem f r) frame.orbits
  | declare t row frame =>
      refine .added t row (fun r => ?_) frame.orbits
      rw [frame.tasks, List.mem_append, List.mem_singleton]
  | stamp now frame =>
      obtain ⟨back, forth⟩ := stampTerminal_tasks s now
      rw [← frame.tasks] at back forth
      exact .kept back fun t ht => Or.inl (forth t ht)
  | archiveTasks p terminal unused may frame =>
      have hmem : ∀ t, t ∈ s'.tasks ↔ t ∈ s.tasks ∧ p t = false := by
        intro t
        rw [frame.tasks, List.mem_filter, Bool.not_eq_true']
      refine .kept (fun t ht => ⟨t, ((hmem t).mp ht).1, .refl t⟩) fun t ht => ?_
      cases hp : p t with
      | false => exact Or.inl ⟨t, (hmem t).mpr ⟨ht, hp⟩, .refl t⟩
      | true => exact Or.inr ⟨may t ht hp, terminal t ht hp, unused t ht hp⟩
  | frame frame | enroll _ _ _ _ frame | agent _ _ _ _ frame | orbit _ _ _ _ _ _ frame
  | insert _ _ _ _ _ _ _ _ frame | reject _ _ _ _ frame | summary _ _ _ frame | publish _ _ _ frame
  | request _ frame | waiters _ frame | slots _ _ _ _ frame | flags _ frame
  | arm _ _ _ _ _ _ _ _ frame | trip _ _ _ frame
  | archiveOrbits _ _ _ frame =>
      exact .of_eq frame.tasks

/-! ## One row before and after -/

theorem OrbitStep.refl (o : Orbit) : OrbitStep c E s o o := (Orbit.Stamped.refl o).change E s

theorem TaskStep.refl (t : Task) : TaskStep c E s t t := (Task.Stamped.refl t).change c E s

/-- Where a row of `orbits` comes from. -/
theorem OrbitsAfter.back (h : OrbitsAfter c E s s') {o' : Orbit} (ho' : o' ∈ s'.orbits) :
    (∃ o ∈ s.orbits, OrbitStep c E s o o') ∨ NewRow c s o' ∧ o'.orbitId = s.uuid := by
  cases h with
  | kept back forth =>
      obtain ⟨o, ho, h⟩ := back o' ho'
      exact Or.inl ⟨o, ho, h.change E s⟩
  | changed o o₁ mem step rows =>
      rcases (rows o').mp ho' with ⟨ho, -⟩ | rfl
      · exact Or.inl ⟨o', ho, .refl o'⟩
      · exact Or.inl ⟨o, mem, step⟩
  | added o row id _ rows =>
      rcases (rows o').mp ho' with ho | rfl
      · exact Or.inl ⟨o', ho, .refl o'⟩
      · exact Or.inr ⟨row, id⟩

/-- What becomes of a row of `orbits`. -/
theorem OrbitsAfter.forth (h : OrbitsAfter c E s s') {o : Orbit} (ho : o ∈ s.orbits)
    (ok : s.Ok) : (∃ o' ∈ s'.orbits, OrbitStep c E s o o') ∨ o ∈ s'.orbitsArchive ∧
      o.state.terminal = true ∧ ∀ t ∈ s.tasks, t.state.terminal = false →
        o.taskId ≠ some t.taskId := by
  cases h with
  | kept back forth =>
      rcases forth o ho with ⟨o', ho', h⟩ | h
      · exact Or.inl ⟨o', ho', h.change E s⟩
      · exact Or.inr h
  | changed o₀ o₁ mem step rows =>
      by_cases hid : o.orbitId = o₀.orbitId
      · cases ok.orbit_eq ho mem hid
        exact Or.inl ⟨o₁, (rows o₁).mpr (Or.inr rfl), step⟩
      · exact Or.inl ⟨o, (rows o).mpr (Or.inl ⟨ho, hid⟩), .refl o⟩
  | added o₀ row id _ rows => exact Or.inl ⟨o, (rows o).mpr (Or.inl ho), .refl o⟩

/-- Where a row of `tasks` comes from. -/
theorem TasksAfter.back (h : TasksAfter c E s s') {t' : Task} (ht' : t' ∈ s'.tasks) :
    (∃ t ∈ s.tasks, TaskStep c E s t t') ∨ NewTask c s t' := by
  cases h with
  | kept back forth =>
      obtain ⟨t, ht, h⟩ := back t' ht'
      exact Or.inl ⟨t, ht, h.change c E s⟩
  | changed t t₁ mem step rows orbits =>
      rcases (rows t').mp ht' with ⟨ht, -⟩ | rfl
      · exact Or.inl ⟨t', ht, .refl t'⟩
      · exact Or.inl ⟨t, mem, step⟩
  | added t row rows orbits =>
      rcases (rows t').mp ht' with ht | rfl
      · exact Or.inl ⟨t', ht, .refl t'⟩
      · exact Or.inr row

/-- What becomes of a row of `tasks`. -/
theorem TasksAfter.forth (h : TasksAfter c E s s') {t : Task} (ht : t ∈ s.tasks)
    (ok : s.Ok) : (∃ t' ∈ s'.tasks, TaskStep c E s t t') ∨ c.may (.archive t) ∧
      t.state.terminal = true ∧ ∀ r ∈ s.tasks, r.state.terminal = false → t.taskId ∉ r.deps := by
  cases h with
  | kept back forth =>
      rcases forth t ht with ⟨t', ht', h⟩ | h
      · exact Or.inl ⟨t', ht', h.change c E s⟩
      · exact Or.inr h
  | changed t₀ t₁ mem step rows orbits =>
      by_cases hid : t.taskId = t₀.taskId
      · cases ok.task_eq ht mem hid
        exact Or.inl ⟨t₁, (rows t₁).mpr (Or.inr rfl), step⟩
      · exact Or.inl ⟨t, (rows t).mpr (Or.inl ⟨ht, hid⟩), .refl t⟩
  | added t₀ row rows orbits => exact Or.inl ⟨t, (rows t).mpr (Or.inl ht), .refl t⟩

end Shapes

/-! ## Keys are kept -/

section Keys

variable {c : Scope} {E : TaskId → Prop} {s s' : Store}

theorem Micro.uuid (h : Micro c E s s') : s.uuid ≤ s'.uuid := by
  cases h with
  | frame frame | enroll _ _ _ _ frame | agent _ _ _ _ frame | orbit _ _ _ _ _ _ frame
  | insert _ _ _ _ _ _ _ _ frame | reject _ _ _ _ frame | summary _ _ _ frame | task _ _ _ frame
  | declare _ _ frame | publish _ _ _ frame | request _ frame | waiters _ frame
  | slots _ _ _ _ frame | flags _ frame | arm _ _ _ _ _ _ _ _ frame | trip _ _ _ frame
  | stamp _ frame | archiveTasks _ _ _ _ frame | archiveOrbits _ _ _ frame => exact frame.uuid

/-- A write that leaves the identifier and the kind of a row keeps the invariant. -/
theorem Store.Ok.setOrbit (ok : s.Ok) {id : OrbitId} {f : Orbit → Orbit}
    (hf : ∀ o, s.getOrbit id = some o → (f o).orbitId = o.orbitId)
    (hkind : ∀ o, s.getOrbit id = some o → (f o).kind = o.kind) : (s.setOrbit id f).Ok where
  orbitIds := ok.orbitIds.modify fun r hr hid => (hf r (ok.getOrbit.mpr ⟨hr, hid⟩)).trans hid
  fresh := by
    intro o ho
    rcases Table.mem_modify.mp ho with ⟨ho, -⟩ | ⟨o₀, ho₀, hid, rfl⟩
    · exact ok.fresh o ho
    · exact hf o₀ (ok.getOrbit.mpr ⟨ho₀, hid⟩) ▸ ok.fresh o₀ ho₀
  taskIds := ok.taskIds
  agentIds := ok.agentIds
  requestIds := ok.requestIds
  waiterIds := ok.waiterIds
  freshWaiter := ok.freshWaiter
  listenerIds := ok.listenerIds
  freshListener := ok.freshListener
  gens := ok.gens
  attempts := ok.attempts
  barriers := ok.barriers
  leases := by
    intro g hg lease hlease
    obtain ⟨old, kind⟩ := ok.leases g hg lease hlease
    refine ⟨old, fun o ho hid => ?_⟩
    rcases Table.mem_modify.mp ho with ⟨ho, -⟩ | ⟨o₀, ho₀, hid₀, rfl⟩
    · exact kind o ho hid
    · have hget := ok.getOrbit.mpr ⟨ho₀, hid₀⟩
      rw [hkind o₀ hget]
      exact kind o₀ ho₀ ((hf o₀ hget).symm.trans hid)

/-- A task that was rewritten has its attempt, none, or a new one. -/
theorem TaskStep.rebinds {t t' : Task} (ok : s.Ok) (ht : t ∈ s.tasks)
    (h : TaskStep c E s t t') : Rebinds s t t' := by
  have same (attempt : t'.attempt = t.attempt) (state : t'.state = .CONNECTING →
      t.state = .CONNECTING) : Rebinds s t t' := by
    have htoken : t'.connectTokenId = t.connectTokenId := congrArg (·.1.2.2.2) attempt
    have hattempt : t'.connectAttemptId = t.connectAttemptId := congrArg (·.1.1) attempt
    refine ⟨Or.inl htoken, Or.inl hattempt, ?_, ?_, ?_⟩
    · exact fun id hid => ok.attempts.tokenDrawn t ht id (htoken ▸ hid)
    · exact fun n hn => ok.attempts.attemptDrawn t ht n (hattempt ▸ hn)
    · rw [htoken, hattempt]
      exact fun hstate => ok.attempts.bound t ht (state hstate)
  cases h.change with
  | keep state _ attempt => exact same attempt fun h => state ▸ h
  | ready _ _ state _ attempt => exact same attempt fun h => by rw [state] at h; cases h
  | start _ _ state _ attempt => exact same attempt fun h => by rw [state] at h; cases h
  | finish _ state _ attempt => exact same attempt fun h => by rw [state] at h; cases h
  | abort _ _ state _ attempt => exact same attempt fun h => by rw [state] at h; cases h
  | reclaim _ _ _ requeued attempt =>
      refine same attempt fun h => ?_
      rcases requeued.state with ⟨hs, -⟩ | ⟨hs, -⟩ <;> rw [hs] at h <;> cases h
  | sync state _ attempt => exact same attempt fun h => state ▸ h
  | refresh _ state _ attempt => exact same attempt fun h => state ▸ h
  | attempt _ _ _ _ rebinds => exact rebinds

/-- An attempt that no task has had is given to one only. -/
theorem AttemptsOk.setTask (ok : s.Ok) {id : TaskId} {f : Task → Task}
    (hf : ∀ t, s.getTask id = some t → Rebinds s t (f t)) :
    AttemptsOk s.uuid (s.setTask id f).tasks := by
  have h := ok.attempts
  have split : ∀ r ∈ (s.setTask id f).tasks, (r ∈ s.tasks ∧ r.taskId ≠ id) ∨
      ∃ t ∈ s.tasks, t.taskId = id ∧ Rebinds s t (f t) ∧ r = f t := by
    intro r hr
    rcases Table.mem_modify.mp hr with hr | ⟨t, ht, hid, rfl⟩
    · exact Or.inl hr
    · exact Or.inr ⟨t, ht, hid, hf t (ok.getTask.mpr ⟨ht, hid⟩), rfl⟩
  -- a row that was not rewritten shares neither identifier with one that was
  have apart {r t : Task} (hr : r ∈ s.tasks) (hne : r.taskId ≠ id) (ht : t ∈ s.tasks)
      (hid : t.taskId = id) (hb : Rebinds s t (f t)) :
      (∀ k, r.connectTokenId = some k → (f t).connectTokenId ≠ some k) ∧
        ∀ n, r.connectAttemptId = some n → (f t).connectAttemptId ≠ some n := by
    constructor
    · intro k hk hk'
      rcases hb.token with he | he | he
      · exact hne (h.token r hr t ht k hk (he ▸ hk') ▸ hid)
      · rw [he] at hk'
        cases hk'
      · exact he.1 r hr (hk.trans hk'.symm)
    · intro n hn hn'
      rcases hb.attempt with he | he | he
      · exact hne (h.attempt r hr t ht n hn (he ▸ hn') ▸ hid)
      · rw [he] at hn'
        cases hn'
      · exact he r hr (hn.trans hn'.symm)
  refine ⟨?_, ?_, ?_, ?_, ?_⟩
  · intro r hr k hk
    rcases split r hr with ⟨hr, -⟩ | ⟨t, -, -, hb, rfl⟩
    · exact h.tokenDrawn r hr k hk
    · exact hb.tokenDrawn k hk
  · intro r hr n hn
    rcases split r hr with ⟨hr, -⟩ | ⟨t, -, -, hb, rfl⟩
    · exact h.attemptDrawn r hr n hn
    · exact hb.attemptDrawn n hn
  · intro r hr r' hr' k hk hk'
    rcases split r hr with ⟨hr, hne⟩ | ⟨t, ht, hid, hb, rfl⟩ <;>
      rcases split r' hr' with ⟨hr', hne'⟩ | ⟨t', ht', hid', hb', rfl⟩
    · exact h.token r hr r' hr' k hk hk'
    · exact absurd hk' ((apart hr hne ht' hid' hb').1 k hk)
    · exact absurd hk ((apart hr' hne' ht hid hb).1 k hk')
    · rw [ok.task_eq ht ht' (hid.trans hid'.symm)]
  · intro r hr r' hr' n hn hn'
    rcases split r hr with ⟨hr, hne⟩ | ⟨t, ht, hid, hb, rfl⟩ <;>
      rcases split r' hr' with ⟨hr', hne'⟩ | ⟨t', ht', hid', hb', rfl⟩
    · exact h.attempt r hr r' hr' n hn hn'
    · exact absurd hn' ((apart hr hne ht' hid' hb').2 n hn)
    · exact absurd hn ((apart hr' hne' ht hid hb).2 n hn')
    · rw [ok.task_eq ht ht' (hid.trans hid'.symm)]
  · intro r hr hstate
    rcases split r hr with ⟨hr, -⟩ | ⟨t, -, -, hb, rfl⟩
    · exact h.bound r hr hstate
    · exact hb.bound hstate

/-- A write that leaves the identifier of a task keeps the invariant, if it rebinds the attempt. -/
theorem Store.Ok.setTask (ok : s.Ok) {id : TaskId} {f : Task → Task}
    (hid : ∀ t, s.getTask id = some t → (f t).taskId = t.taskId)
    (hf : ∀ t, s.getTask id = some t → Rebinds s t (f t)) : (s.setTask id f).Ok where
  orbitIds := ok.orbitIds
  fresh := ok.fresh
  taskIds := ok.taskIds.modify fun r hr h => (hid r (ok.getTask.mpr ⟨hr, h⟩)).trans h
  agentIds := ok.agentIds
  requestIds := ok.requestIds
  waiterIds := ok.waiterIds
  freshWaiter := ok.freshWaiter
  listenerIds := ok.listenerIds
  freshListener := ok.freshListener
  gens := ok.gens
  attempts := AttemptsOk.setTask ok hf
  leases := ok.leases
  barriers := ok.barriers

/-- Rows that come from rows with the same attempt, one each. -/
theorem AttemptsOk.of_back {tasks tasks' : List Task} {uuid : ℕ} (h : AttemptsOk uuid tasks)
    (distinct : Table.Distinct Task.taskId tasks')
    (back : ∀ t' ∈ tasks', ∃ t ∈ tasks, t.Stamped t') : AttemptsOk uuid tasks' := by
  have columns : ∀ t' ∈ tasks', ∃ t ∈ tasks, t'.taskId = t.taskId ∧ t'.state = t.state ∧
      t'.connectTokenId = t.connectTokenId ∧ t'.connectAttemptId = t.connectAttemptId := by
    intro t' ht'
    obtain ⟨t, ht, hst⟩ := back t' ht'
    exact ⟨t, ht, hst.taskId, hst.state, congrArg (·.1.2.2.2) hst.attempt,
      congrArg (·.1.1) hst.attempt⟩
  refine ⟨?_, ?_, ?_, ?_, ?_⟩
  · intro t' ht' id hid
    obtain ⟨t, ht, -, -, htoken, -⟩ := columns t' ht'
    exact h.tokenDrawn t ht id (htoken ▸ hid)
  · intro t' ht' n hn
    obtain ⟨t, ht, -, -, -, hattempt⟩ := columns t' ht'
    exact h.attemptDrawn t ht n (hattempt ▸ hn)
  · intro t' ht' r' hr' id hid hid'
    obtain ⟨t, ht, hkey, -, htoken, -⟩ := columns t' ht'
    obtain ⟨r, hr, hkey', -, htoken', -⟩ := columns r' hr'
    have := h.token t ht r hr id (htoken ▸ hid) (htoken' ▸ hid')
    exact distinct.eq ht' hr' (hkey.trans (this ▸ hkey'.symm))
  · intro t' ht' r' hr' n hn hn'
    obtain ⟨t, ht, hkey, -, -, hattempt⟩ := columns t' ht'
    obtain ⟨r, hr, hkey', -, -, hattempt'⟩ := columns r' hr'
    have := h.attempt t ht r hr n (hattempt ▸ hn) (hattempt' ▸ hn')
    exact distinct.eq ht' hr' (hkey.trans (this ▸ hkey'.symm))
  · intro t' ht' hstate
    obtain ⟨t, ht, -, hs, htoken, hattempt⟩ := columns t' ht'
    rw [htoken, hattempt]
    exact h.bound t ht (hs ▸ hstate)

/-- A new row without an attempt. -/
theorem AttemptsOk.append {tasks : List Task} {uuid : ℕ} (h : AttemptsOk uuid tasks) {t : Task}
    (state : t.state = .PENDING) (token : t.connectTokenId = none)
    (attempt : t.connectAttemptId = none) : AttemptsOk uuid (tasks ++ [t]) := by
  have old : ∀ r ∈ tasks ++ [t], r ∈ tasks ∨ r = t := by simp
  refine ⟨?_, ?_, ?_, ?_, ?_⟩
  · intro r hr id hid
    rcases old r hr with hr | rfl
    · exact h.tokenDrawn r hr id hid
    · rw [token] at hid
      cases hid
  · intro r hr n hn
    rcases old r hr with hr | rfl
    · exact h.attemptDrawn r hr n hn
    · rw [attempt] at hn
      cases hn
  · intro r hr r' hr' id hid hid'
    rcases old r hr with hr | rfl
    · rcases old r' hr' with hr' | rfl
      · exact h.token r hr r' hr' id hid hid'
      · rw [token] at hid'
        cases hid'
    · rw [token] at hid
      cases hid
  · intro r hr r' hr' n hn hn'
    rcases old r hr with hr | rfl
    · rcases old r' hr' with hr' | rfl
      · exact h.attempt r hr r' hr' n hn hn'
      · rw [attempt] at hn'
        cases hn'
    · rw [attempt] at hn
      cases hn
  · intro r hr hstate
    rcases old r hr with hr | rfl
    · exact h.bound r hr hstate
    · rw [state] at hstate
      cases hstate

theorem Store.Ok.stampTerminal (ok : s.Ok) (now : Time) : (s.stampTerminal now).Ok := by
  have taskIds : Table.Distinct Task.taskId (s.stampTerminal now).tasks :=
    ok.taskIds.map fun t => by
      split
      · rfl
      · split <;> rfl
  refine ⟨ok.orbitIds.map fun o => by split <;> rfl, ?_, taskIds, ok.agentIds, ok.requestIds,
    ok.waiterIds, ok.freshWaiter, ok.listenerIds, ok.freshListener, ok.gens,
    ok.attempts.of_back taskIds (stampTerminal_tasks s now).1, ?_, ok.barriers⟩
  · intro o' ho'
    obtain ⟨o, ho, h⟩ := (stampTerminal_orbits s now).1 o' ho'
    exact h.orbitId ▸ ok.fresh o ho
  · intro f hf id hid
    refine ⟨(ok.leases f hf id hid).1, fun o' ho' hid' => ?_⟩
    obtain ⟨o, ho, h⟩ := (stampTerminal_orbits s now).1 o' ho'
    rw [h.sameRow.kind]
    exact (ok.leases f hf id hid).2 o ho (h.orbitId ▸ hid')

namespace SemWaiter.GaveUp

variable {w w' : SemWaiter}

theorem waiterId (h : w.GaveUp w') : w'.waiterId = w.waiterId := congrArg (·.1) h.place

theorem idle (h : w.GaveUp w') : w'.state ≠ .WAITING ∧ w'.state ≠ .GRANTED := by
  rcases h.state with state | state <;> simp [state]

end SemWaiter.GaveUp

/-- A waiter that was granted a permit keeps its identifier. -/
theorem Store.Ok.granted (ok : s.Ok) (w : SemWaiter) (permit : OrbitId) :
    Table.Distinct SemWaiter.waiterId (s.granted w permit) ∧
      ∀ r ∈ s.granted w permit, r.waiterId < s.uuid := by
  refine ⟨ok.waiterIds.modify fun _ _ h => h, fun r hr => ?_⟩
  rcases Table.mem_modify.mp hr with ⟨hr, -⟩ | ⟨r₀, hr₀, -, rfl⟩
  · exact ok.freshWaiter r hr
  · exact ok.freshWaiter r₀ hr₀

/-- An insertion leaves the waiters distinct, whether it serves one or not. -/
theorem Lined.waiters {o : Orbit} {rows : List SemWaiter} (h : Lined c s o rows) (ok : s.Ok) :
    Table.Distinct SemWaiter.waiterId rows ∧ ∀ w ∈ rows, w.waiterId < s.uuid := by
  cases h with
  | stays => exact ⟨ok.waiterIds, ok.freshWaiter⟩
  | served w => exact ok.granted w o.orbitId

/-- A change of one request keeps its identifier. -/
theorem IdemStep.requestId {r r' : IdemRow} (h : IdemStep c r r') : r'.requestId = r.requestId := by
  cases h with
  | finish _ _ _ row | bind _ _ _ _ _ row | takeover _ _ _ row | retry _ _ row
  | reopen _ row => rw [row]

/-- A request has one row. -/
theorem IdemChange.distinct {rows : List IdemRow} (h : IdemChange c s rows)
    (distinct : Table.Distinct IdemRow.requestId s.idempotency) :
    Table.Distinct IdemRow.requestId rows := by
  cases h with
  | reserve id agent args new rows =>
      rw [rows]
      exact distinct.append (Table.get_eq_none.mp new)
  | update p f step rows =>
      rw [rows, Table.Distinct, List.map_map]
      refine (List.map_congr_left fun r hr => ?_).symm ▸ distinct
      by_cases hp : p r = true
      · simp [hp, (step r hr hp).requestId]
      · simp [hp]
  | drop p step rows => exact rows ▸ distinct.filter _

/-- The flags that back a lease after one was written, or left alone. -/
theorem leases_modifyFlag (key : String) {f : Flag → Flag}
    (hf : ∀ r, (f r).leaseId = r.leaseId ∨ (f r).leaseId = none) :
    ∀ r ∈ (s.modifyFlag key f).flags, ∀ id, r.leaseId = some id →
      ∃ r₀ ∈ s.flags, r₀.leaseId = some id := by
  intro r hr id hid
  rcases Table.mem_modify.mp hr with ⟨hr, -⟩ | ⟨r₀, hr₀, -, rfl⟩
  · exact ⟨r, hr, hid⟩
  · rcases hf r₀ with h | h
    · exact ⟨r₀, hr₀, h ▸ hid⟩
    · rw [h] at hid
      cases hid

theorem leases_addFlag {flag : Flag} (lease : flag.leaseId = none) :
    ∀ r ∈ s.flags ++ [flag], ∀ id, r.leaseId = some id →
      ∃ r₀ ∈ s.flags, r₀.leaseId = some id := by
  intro r hr id hid
  rcases List.mem_append.mp hr with hr | hr
  · exact ⟨r, hr, hid⟩
  · rw [List.mem_singleton.mp hr, lease] at hid
    cases hid

/-- A flag that is set as a latch gets no lease. -/
theorem leases_setFlag (key value : String) (agent : Option AgentId) :
    ∀ r ∈ (s.setFlag key value agent).flags, ∀ id, r.leaseId = some id →
      ∃ r₀ ∈ s.flags, r₀.leaseId = some id := by
  rw [Store.setFlag]
  split
  · exact leases_addFlag rfl
  · exact leases_modifyFlag key fun _ => Or.inl rfl

namespace FlagChange

variable {uuid : ℕ} {flags : List Flag} {waiters : List FlagWaiter}

/-- A lease that a flag gets is a row. -/
theorem leases (h : FlagChange c s uuid flags waiters) : s.LeasesFrom flags := by
  intro f hf id hid
  cases h with
  | write key may writer others back rows wakes => exact rows f hf id hid
  | mark task value agent may unsigned eq waiters =>
      exact Or.inl (leases_setFlag task value agent f (eq ▸ hf) id hid)
  | listen w may id drawn unready eq waiters => exact Or.inl ⟨f, eq ▸ hf, hid⟩
  | poll id state may ended eq waiters => exact Or.inl ⟨f, eq ▸ hf, hid⟩

/-- The waiters for flags have identifiers of their own. -/
theorem listeners (h : FlagChange c s uuid flags waiters) (ok : s.Ok) (le : s.uuid ≤ uuid) :
    Table.Distinct FlagWaiter.waiterId waiters ∧ ∀ w ∈ waiters, w.waiterId < uuid := by
  have fresh (w) (hw : w ∈ s.flagWaiters) : w.waiterId < uuid := (ok.freshListener w hw).trans_le le
  cases h with
  | write key may writer others back rows wakes =>
      exact ⟨wakes.distinct ok.listenerIds, wakes.fresh ok.listenerIds fresh⟩
  | mark task value agent may unsigned flags eq => exact eq ▸ ⟨ok.listenerIds, fresh⟩
  | listen w may id drawn unready flags eq =>
      subst eq
      refine ⟨ok.listenerIds.append fun r hr => id ▸ (ok.freshListener r hr).ne, fun r hr => ?_⟩
      rcases List.mem_append.mp hr with hr | hr
      · exact fresh r hr
      · rw [List.mem_singleton.mp hr, id]
        exact drawn
  | poll id state may ended flags eq =>
      subst eq
      refine ⟨ok.listenerIds.modify fun r _ hr => hr, fun r hr => ?_⟩
      rcases Table.mem_modify.mp hr with ⟨hr, -⟩ | ⟨r₀, hr₀, -, rfl⟩
      · exact fresh r hr
      · exact fresh r₀ hr₀

end FlagChange

/-- A row that is inserted has the identifier that was drawn. -/
theorem Store.Ok.insert (ok : s.Ok) {o : Orbit} (id : o.orbitId = s.uuid) {uuid : ℕ}
    (drawn : s.uuid < uuid) : Store.Ok { s.addOrbit o with uuid := uuid } where
  orbitIds := ok.orbitIds.append fun r hr => id ▸ (ok.fresh r hr).ne
  fresh := by
    intro r hr
    rcases List.mem_append.mp hr with hr | hr
    · exact (ok.fresh r hr).trans drawn
    · rw [List.mem_singleton.mp hr, id]
      exact drawn
  taskIds := ok.taskIds
  agentIds := ok.agentIds
  requestIds := ok.requestIds
  waiterIds := ok.waiterIds
  freshWaiter := fun w hw => (ok.freshWaiter w hw).trans drawn
  listenerIds := ok.listenerIds
  freshListener := fun w hw => (ok.freshListener w hw).trans drawn
  gens := ok.gens
  attempts := ok.attempts.uuid drawn.le
  barriers := ok.barriers
  leases := by
    intro f hf lease hlease
    obtain ⟨old, kind⟩ := ok.leases f hf lease hlease
    refine ⟨old.trans drawn, fun r hr hid => ?_⟩
    rcases List.mem_append.mp hr with hr | hr
    · exact kind r hr hid
    · rw [List.mem_singleton.mp hr, id] at hid
      exact absurd hid old.ne'

/-- Each change keeps the invariant. -/
theorem Store.Ok.micro (ok : s.Ok) (h : Micro c E s s') : s'.Ok := by
  cases h with
  | frame frame => exact frame.ok ok
  | enroll _ a new state frame =>
      exact frame.ok { ok with agentIds := ok.agentIds.append (Table.get_eq_none.mp new) }
  | agent _ id f step frame =>
      refine frame.ok { ok with agentIds := ok.agentIds.modify fun a ha hid => ?_ }
      exact (step a (ok.getAgent.mpr ⟨ha, hid⟩)).id.trans hid
  | orbit id f news step announced known frame =>
      exact frame.ok ((ok.announce news).setOrbit (fun o ho => (step o ho).row.orbitId)
        fun o ho => (step o ho).row.kind)
  | insert o news row introduced id drawn ticket line frame =>
      obtain ⟨distinct, fresh⟩ := line.waiters ok
      have inserted := (ok.announce news).insert id drawn
      refine Frame.ok (s := { (s.announce news).addOrbit o with
        uuid := s'.uuid, semWaiters := s'.semWaiters }) ?_ { inserted with
          waiterIds := distinct, freshWaiter := fun w hw => (fresh w hw).trans drawn }
      exact { frame with uuid := le_rfl }
  | reject _ _ _ _ frame => exact frame.ok (ok.announce _)
  | summary _ _ _ frame => exact frame.ok (ok.announce _)
  | task id f step frame =>
      exact frame.ok (ok.setTask (fun t ht => (step t ht).id) fun t ht =>
        (step t ht).rebinds ok (Table.mem_of_get ht))
  | declare t row frame =>
      exact frame.ok { ok with
        taskIds := ok.taskIds.append (Table.get_eq_none.mp row.id)
        attempts := ok.attempts.append row.state row.token row.attempt }
  | publish e gen exempt frame =>
      refine frame.ok { ok with gens := fun m hm => ?_ }
      rcases List.mem_append.mp hm with hm | hm
      · exact (ok.gens m hm).trans (by simp only [gen]; omega)
      · rw [List.mem_singleton.mp hm]
  | request change frame =>
      exact frame.ok { ok with requestIds := change.distinct ok.requestIds }
  | waiters change frame =>
      cases change with
      | update f step rows =>
          have id : ∀ w ∈ s.semWaiters, (f w).waiterId = w.waiterId := by
            intro w hw
            rcases step w hw with same | gaveUp
            · rw [same]
            · exact gaveUp.waiterId
          have keys : (s.semWaiters.map f).map SemWaiter.waiterId =
              s.semWaiters.map SemWaiter.waiterId :=
            List.map_map.trans (List.map_congr_left id)
          have distinct : Table.Distinct SemWaiter.waiterId s'.semWaiters := by
            rw [rows, Table.Distinct, keys]
            exact ok.waiterIds
          refine frame.ok { ok with waiterIds := distinct, freshWaiter := fun w hw => ?_ }
          rw [rows] at hw
          obtain ⟨w₀, hw₀, rfl⟩ := List.mem_map.mp hw
          exact id w₀ hw₀ ▸ ok.freshWaiter w₀ hw₀
      | reuse w permit next rows =>
          obtain ⟨distinct, fresh⟩ := ok.granted w permit
          exact frame.ok { ok with
            waiterIds := rows ▸ distinct, freshWaiter := fun w hw => fresh w (rows ▸ hw) }
      | add w id drawn alive state full rows =>
          have old : ∀ r ∈ s.semWaiters, r.waiterId ≠ w.waiterId := fun r hr =>
            id ▸ (ok.freshWaiter r hr).ne
          refine Frame.ok (s := { s with uuid := s'.uuid, semWaiters := s'.semWaiters })
            { frame with uuid := le_rfl } { ok with
              fresh := fun o ho => (ok.fresh o ho).trans drawn
              waiterIds := rows ▸ ok.waiterIds.append old
              freshWaiter := fun r hr => ?_
              freshListener := fun w hw => (ok.freshListener w hw).trans drawn
              attempts := ok.attempts.uuid drawn.le
              leases := fun f hf lease h =>
                ⟨(ok.leases f hf lease h).1.trans drawn, (ok.leases f hf lease h).2⟩ }
          rw [rows] at hr
          rcases List.mem_append.mp hr with hr | hr
          · exact (ok.freshWaiter r hr).trans drawn
          · rw [List.mem_singleton.mp hr, id]
            exact drawn
  | slots _ _ _ _ frame => exact frame.ok { ok with }
  | flags change frame =>
      obtain ⟨distinct, fresh⟩ := change.listeners ok frame.uuid
      have drawn : Frame s { s with uuid := s'.uuid } := { uuid := frame.uuid }
      have ok₁ := drawn.ok ok
      refine Frame.ok (s := { s with
          uuid := s'.uuid
          flags := s'.flags
          flagWaiters := s'.flagWaiters }) { frame with uuid := le_rfl } { ok₁ with
        listenerIds := distinct
        freshListener := fresh
        leases := fun f hf id hid => ?_ }
      rcases change.leases f hf id hid with ⟨f₀, hf₀, hid₀⟩ | ⟨o, ho, rfl, hkind⟩
      · exact ok₁.leases f₀ hf₀ id hid₀
      · exact ⟨ok₁.fresh o ho, fun r hr hid' => ok.orbit_eq ho hr hid'.symm ▸ hkind⟩
  | arm b parties _ id _ next _ _ frame =>
      refine frame.ok { ok with barriers := ?_ }
      rw [List.map_append, List.map_singleton]
      refine ok.barriers.append id fun k hk same => ?_
      obtain ⟨r, hr, rfl⟩ := List.mem_map.mp hk
      exact next r hr same
  | trip id _ _ frame =>
      refine frame.ok { ok with barriers := ?_ }
      have keys := map_setBarrier (g := Barrier.key) s id
        (f := fun r => { r with state := .TRIPPED }) fun _ => rfl
      exact keys ▸ ok.barriers
  | stamp now frame => exact frame.ok (ok.stampTerminal now)
  | archiveTasks p terminal unused may frame =>
      have back : ∀ t' ∈ s.tasks.filter fun t => !p t, ∃ t ∈ s.tasks, t.Stamped t' :=
        fun t ht => ⟨t, List.mem_of_mem_filter ht, .refl t⟩
      exact frame.ok { ok with
        taskIds := ok.taskIds.filter _
        attempts := ok.attempts.of_back (ok.taskIds.filter _) back }
  | archiveOrbits p terminal unused frame =>
      exact frame.ok { ok with
        orbitIds := ok.orbitIds.filter _
        fresh := fun o ho => ok.fresh o (List.mem_of_mem_filter ho)
        leases := fun f hf id hid => ⟨(ok.leases f hf id hid).1, fun o ho =>
          (ok.leases f hf id hid).2 o (List.mem_of_mem_filter ho)⟩ }

/-- Whoever is retired stays so. -/
theorem Store.Retired.micro {agent : AgentId} (retired : s.Retired agent) (ok : s.Ok)
    (h : Micro c E s s') : s'.Retired agent := by
  obtain ⟨r, hr, rfl, retired⟩ := retired
  cases h with
  | enroll _ a new state frame => exact ⟨r, frame.agents ▸ List.mem_append_left _ hr, rfl, retired⟩
  | agent _ id f step frame =>
      have mem : ∀ r, r ∈ s'.agents ↔ (r ∈ s.agents ∧ r.agentId ≠ id) ∨
          ∃ a ∈ s.agents, a.agentId = id ∧ r = f a :=
        fun r => frame.agents ▸ Table.mem_modify
      by_cases hid : r.agentId = id
      · have h := step r (ok.getAgent.mpr ⟨hr, hid⟩)
        refine ⟨f r, (mem _).mpr (Or.inr ⟨r, hr, hid, rfl⟩), h.id, ?_⟩
        rcases h.state with state | ⟨alive, -⟩
        · exact state.trans retired
        · exact absurd retired alive
      · exact ⟨r, (mem r).mpr (Or.inl ⟨hr, hid⟩), rfl, retired⟩
  | frame frame | orbit _ _ _ _ _ _ frame | insert _ _ _ _ _ _ _ _ frame | reject _ _ _ _ frame
  | summary _ _ _ frame | task _ _ _ frame | declare _ _ frame | publish _ _ _ frame
  | request _ frame | waiters _ frame | slots _ _ _ _ frame | flags _ frame
  | arm _ _ _ _ _ _ _ _ frame | trip _ _ _ frame | stamp _ frame
  | archiveTasks _ _ _ _ frame | archiveOrbits _ _ _ frame =>
      exact ⟨r, frame.agents ▸ hr, rfl, retired⟩

theorem Micros.uuid (h : Micros c E s s') : s.uuid ≤ s'.uuid := by
  induction h with
  | refl => exact le_rfl
  | tail _ hstep ih => exact ih.trans hstep.uuid

/-- What every change preserves, a run of changes preserves. -/
theorem Micros.invariant {I : Store → Prop}
    (step : ∀ s s', s.Ok → I s → Micro c E s s' → I s') (h : Micros c E s s') (ok : s.Ok)
    (init : I s) : s'.Ok ∧ I s' := by
  induction h with
  | refl => exact ⟨ok, init⟩
  | tail _ hstep ih => exact ⟨ih.1.micro hstep, step _ _ ih.1 ih.2 hstep⟩

theorem Store.Retired.micros {agent : AgentId} (retired : s.Retired agent) (ok : s.Ok)
    (h : Micros c E s s') : s'.Retired agent :=
  (Micros.invariant (I := fun s => s.Retired agent) (fun _ _ ok ih step => ih.micro ok step) h ok
    retired).2

theorem Store.Ok.micros (ok : s.Ok) (h : Micros c E s s') : s'.Ok :=
  (Micros.invariant (I := fun _ => True) (fun _ _ _ _ _ => trivial) h ok trivial).1

theorem Scope.Within.refl (c : Scope) : c.Within c := ⟨rfl, rfl, fun _ => Or.inl⟩

theorem Scope.serving_within (c : Scope) (sems : List String) : (c.serving sems).Within c := by
  refine ⟨rfl, rfl, fun d h => ?_⟩
  cases d with
  | serve sem => exact Or.inr ⟨sem, rfl⟩
  | _ => exact Or.inl h

/-- A group has the licences of its scope, and that to hand on slots. -/
theorem Scope.Within.forbids {c' : Scope} (h : c'.Within c) {d : Deed} (no : ¬ c.may d)
    (other : ∀ sem, d ≠ .serve sem) : ¬ c'.may d := by
  intro may
  rcases h.may d may with may | ⟨sem, rfl⟩
  · exact no may
  · exact other sem rfl

/-- The changes of a move, whoever is exempt. -/
theorem Move.micros (h : Move c s s') : ∃ c' E, c'.Within c ∧ Micros c' E s s' := by
  cases h with
  | micro h => exact ⟨_, _, .refl c, .single h⟩
  | takenOver t h => exact ⟨_, _, .refl c, h.run⟩
  | closed t h => exact ⟨_, _, .refl c, h.run⟩
  | reclaimed agent h =>
      obtain ⟨sems, run, -⟩ := h.run
      exact ⟨_, _, c.serving_within sems, run⟩
  | handed sems h => exact ⟨_, _, c.serving_within sems, h.run⟩
  | cancelled task h => exact ⟨_, _, .refl c, h.run⟩

theorem Store.Ok.move (ok : s.Ok) (h : Move c s s') : s'.Ok :=
  have ⟨_, _, _, run⟩ := h.micros
  ok.micros run

/-- What every move preserves, a run of moves preserves. -/
theorem Moves.invariant {I : Store → Prop}
    (step : ∀ s s', s.Ok → I s → Move c s s' → I s') (h : Moves c s s') (ok : s.Ok)
    (init : I s) : s'.Ok ∧ I s' := by
  induction h with
  | refl => exact ⟨ok, init⟩
  | tail _ hstep ih => exact ⟨ih.1.move hstep, step _ _ ih.1 ih.2 hstep⟩

/-- A critical section keeps the invariant. -/
theorem Store.Ok.moves (ok : s.Ok) (h : Moves c s s') : s'.Ok :=
  (Moves.invariant (I := fun _ => True) (fun _ _ _ _ _ => trivial) h ok trivial).1

/-- What every change preserves, whoever is exempt, every move preserves. -/
theorem Move.invariant {I : Store → Prop}
    (step : ∀ c' E s s', c'.Within c → s.Ok → I s → Micro c' E s s' → I s') (h : Move c s s')
    (ok : s.Ok) (init : I s) : I s' :=
  have ⟨c', E, within, run⟩ := h.micros
  (Micros.invariant (fun s s' => step c' E s s' within) run ok init).2

/-- A row that holds or waits after a change did before. -/
theorem OrbitChange.live {o o' : Orbit} (h : OrbitChange c E s o o') (live : o'.live = true) :
    o.live = true := by
  have same (state : o'.state = o.state) : o.live = true := by
    rwa [Orbit.live, state] at live
  have ended (state : o'.state.terminal = true) : o.live = true := by
    cases hs : o'.state <;> simp [Orbit.live, hs, OrbitState.terminal] at live state
  cases h with
  | keep state | rebind _ _ state => exact same state
  | promote pending =>
      simp only [Orbit.isPending, Bool.and_eq_true, decide_eq_true_eq] at pending
      simp [Orbit.live, pending]
  | expire _ state | deny _ state | release _ _ _ _ state => exact ended (by rw [state]; rfl)
  | lease _ _ state | permit _ _ _ _ state | cancelled _ _ _ _ _ state | reclaimed _ _ _ state
  | token _ _ _ state =>
      exact ended state
  | attempt _ _ _ state =>
      rcases state with state | ⟨-, state, -⟩
      · exact same state
      · exact ended (by rw [state]; rfl)

/-- The path orbits that hold or wait are rows that did. -/
def Store.LiveFrom (s s' : Store) : Prop :=
  ∀ o' ∈ s'.orbits, o'.kind = .orbit → o'.live = true → ∃ o ∈ s.orbits, o.SameRow o' ∧ o.live = true

theorem Store.LiveFrom.refl (s : Store) : s.LiveFrom s := fun o ho _ live => ⟨o, ho, .refl o, live⟩

theorem Store.LiveFrom.trans {s s₁ s' : Store} (h : s.LiveFrom s₁) (h' : s₁.LiveFrom s') :
    s.LiveFrom s' := by
  intro o' ho' kind live
  obtain ⟨o₁, ho₁, same₁, live₁⟩ := h' o' ho' kind live
  obtain ⟨o, ho, same, live₀⟩ := h o₁ ho₁ (same₁.kind ▸ kind) live₁
  exact ⟨o, ho, same.trans same₁, live₀⟩

/-- Without a licence to admit no row comes to hold or to wait. -/
theorem Micro.liveFrom (h : Micro c E s s') (ok : s.Ok) (no : ¬ c.may .admission) :
    s.LiveFrom s' := by
  intro o' ho' kind live
  rcases (h.orbits ok).back ho' with ⟨o, ho, step⟩ | ⟨row, -⟩
  · exact ⟨o, ho, step.row, step.change.live live⟩
  · cases row with
    | held claimed | queued claimed => exact absurd claimed.may no
    | permit hkind | lease hkind | token hkind => cases hkind.symm.trans kind

theorem Micros.liveFrom (h : Micros c E s s') (ok : s.Ok) (no : ¬ c.may .admission) :
    s.LiveFrom s' :=
  (Micros.invariant (I := fun s₁ => s.LiveFrom s₁)
    (fun _ _ ok ih step => ih.trans (step.liveFrom ok no)) h ok (.refl s)).2

/-- Where a row of `orbits` comes from: a row of the same life, or it is new. -/
def Store.RowsFrom (s s' : Store) : Prop :=
  ∀ o' ∈ s'.orbits, (∃ o ∈ s.orbits, o.SameRow o') ∨ s.uuid ≤ o'.orbitId

theorem Micros.rowsFrom (h : Micros c E s s') (ok : s.Ok) : s.RowsFrom s' := by
  have init : s.uuid ≤ s.uuid ∧ s.RowsFrom s := ⟨le_rfl, fun o ho => Or.inl ⟨o, ho, .refl o⟩⟩
  refine (Micros.invariant (I := fun s₁ => s.uuid ≤ s₁.uuid ∧ s.RowsFrom s₁) ?_ h ok init).2.2
  intro s₁ s₂ ok₁ hrows hstep
  refine ⟨hrows.1.trans hstep.uuid, fun o' ho' => ?_⟩
  rcases (hstep.orbits ok₁).back ho' with ⟨o, ho, step⟩ | ⟨-, hid⟩
  · rcases hrows.2 o ho with ⟨o₀, ho₀, hrow⟩ | hnew
    · exact Or.inl ⟨o₀, ho₀, hrow.trans step.row⟩
    · exact Or.inr (step.row.orbitId ▸ hnew)
  · exact Or.inr (hid ▸ hrows.1)

theorem Moves.rowsFrom (h : Moves c s s') (ok : s.Ok) : s.RowsFrom s' := by
  have init : s.uuid ≤ s.uuid ∧ s.RowsFrom s := ⟨le_rfl, fun o ho => Or.inl ⟨o, ho, .refl o⟩⟩
  refine (Moves.invariant (I := fun s₁ => s.uuid ≤ s₁.uuid ∧ s.RowsFrom s₁) ?_ h ok init).2.2
  intro s₁ s₂ ok₁ hrows hstep
  obtain ⟨_, _, -, run⟩ := hstep.micros
  refine ⟨hrows.1.trans (Micros.uuid run), fun o' ho' => ?_⟩
  rcases run.rowsFrom ok₁ o' ho' with ⟨o, ho, row⟩ | hnew
  · rcases hrows.2 o ho with ⟨o₀, ho₀, hrow⟩ | hnew
    · exact Or.inl ⟨o₀, ho₀, hrow.trans row⟩
    · exact Or.inr (row.orbitId ▸ hnew)
  · exact Or.inr (hrows.1.trans hnew)

/-- Without the licence no request is admitted. -/
theorem Moves.orbitsFrom (h : Moves c s s') (ok : s.Ok) (no : ¬ c.may .admission) :
    ∀ o' ∈ s'.orbits, o'.kind = .orbit → ∃ o ∈ s.orbits, o.SameRow o' := by
  let I (s₁ : Store) : Prop := ∀ o' ∈ s₁.orbits, o'.kind = .orbit → ∃ o ∈ s.orbits, o.SameRow o'
  refine (Moves.invariant (I := I) ?_ h ok fun o ho _ => ⟨o, ho, .refl o⟩).2
  intro s₁ s₂ ok₁ back move
  refine Move.invariant (I := I) (fun c' E s₃ s₄ within ok₃ ih micro o' ho' kind => ?_) move ok₁
    back
  rcases (micro.orbits ok₃).back ho' with ⟨o₁, ho₁, step⟩ | ⟨row, -⟩
  · obtain ⟨o, ho, same⟩ := ih o₁ ho₁ (step.row.kind ▸ kind)
    exact ⟨o, ho, same.trans step.row⟩
  · cases row with
    | held claimed | queued claimed => exact absurd claimed.may (within.forbids no (by simp))
    | permit hkind | lease hkind | token hkind =>
        rw [hkind] at kind
        cases kind

/-- A row that was there is the same row. -/
theorem Store.RowsFrom.row (h : s.RowsFrom s') (ok : s.Ok) {o o' : Orbit} (ho : o ∈ s.orbits)
    (ho' : o' ∈ s'.orbits) (hid : o'.orbitId = o.orbitId) : o.SameRow o' := by
  rcases h o' ho' with ⟨r, hr, row⟩ | hnew
  · rwa [ok.orbit_eq ho hr (hid.symm.trans row.orbitId)]
  · exact absurd (hid ▸ hnew) (ok.fresh o ho).not_ge

/-! ## Attempts that go on -/

/-- A task that is connecting, and was with the same attempt. -/
structure Task.Continues (t t' : Task) : Prop where
  id : t'.taskId = t.taskId
  state : t.state = .CONNECTING
  agent : t'.agentId = t.agentId
  attempt : t'.connectAttemptId = t.connectAttemptId
  token : t'.connectTokenId = t.connectTokenId
  evidence : t'.attempt.2 = t.attempt.2

theorem Task.Continues.trans {t t₁ t' : Task} (h : t.Continues t₁) (h' : t₁.Continues t') :
    t.Continues t' :=
  ⟨h'.id.trans h.id, h.state, h'.agent.trans h.agent, h'.attempt.trans h.attempt,
    h'.token.trans h.token, h'.evidence.trans h.evidence⟩

/-- An attempt continues when its columns stay. -/
theorem Task.Continues.of_attempt {t t' : Task} (id : t'.taskId = t.taskId)
    (state : t.state = .CONNECTING) (agent : t'.agentId = t.agentId)
    (attempt : t'.attempt = t.attempt) : t.Continues t' :=
  ⟨id, state, agent, congrArg (·.1.1) attempt, congrArg (·.1.2.2.2) attempt, congrArg (·.2) attempt⟩

/-- Of a task that is not exempt a change opens no attempt. -/
theorem TaskStep.continues {t t' : Task} (h : TaskStep c E s t t')
    (connecting : t'.state = .CONNECTING) (exempt : ¬ E t.taskId) : t.Continues t' := by
  cases h.change with
  | keep state agent attempt | sync state agent attempt | refresh _ state agent attempt =>
      exact .of_attempt h.id (state.symm.trans connecting) agent attempt
  | ready _ _ state | start _ _ state | finish _ state | abort _ _ state =>
      rw [state] at connecting
      cases connecting
  | reclaim _ _ _ requeued =>
      rcases requeued.state with ⟨hs, -⟩ | ⟨hs, -⟩ <;> rw [hs] at connecting <;> cases connecting
  | attempt h => exact absurd h exempt

/-- Every task that is connecting goes on with its attempt. -/
def Store.Continues (E : TaskId → Prop) (s s' : Store) : Prop :=
  ∀ t' ∈ s'.tasks, t'.state = .CONNECTING → ¬ E t'.taskId → ∃ t ∈ s.tasks, t.Continues t'

theorem Micros.continues (h : Micros c E s s') (ok : s.Ok) : Store.Continues E s s' := by
  have init : Store.Continues E s s := fun t ht connecting _ =>
    ⟨t, ht, .of_attempt rfl connecting rfl rfl⟩
  refine (Micros.invariant (I := Store.Continues E s) (fun s₁ s₂ ok₁ ih step => ?_) h ok init).2
  intro t' ht' connecting exempt
  rcases (step.tasks ok₁).back ht' with ⟨t₁, ht₁, h₁⟩ | row
  · have continues := h₁.continues connecting (h₁.id ▸ exempt)
    obtain ⟨t, ht, h₀⟩ := ih t₁ ht₁ continues.state (h₁.id ▸ exempt)
    exact ⟨t, ht, h₀.trans continues⟩
  · rw [row.state] at connecting
    cases connecting

/-- After the reclaim of an agent none of its tasks is in progress. -/
theorem AgentReclaimed.ended {agent : AgentId} (h : AgentReclaimed c agent s s') (ok : s.Ok)
    {t' : Task} (ht' : t' ∈ s'.tasks) (owned : s.ownedBy agent t'.taskId) :
    t'.state.inProgress = false := by
  rcases h.tasks t' ht' with ⟨ht, idle⟩ | ⟨t, -, -, -, requeued⟩
  · obtain ⟨t, mem, id, owner⟩ := owned
    exact idle (ok.task_eq mem ht id ▸ owner)
  · rcases requeued.state with ⟨state, -⟩ | ⟨state, -⟩
    · rw [state]
      rfl
    · rw [state]
      rfl

/-- A move opens no attempt. -/
theorem Move.continues (h : Move c s s') (ok : s.Ok) : Store.Continues nobody s s' := by
  intro t' ht' connecting _
  cases h with
  | micro h => exact Micros.continues (.single h) ok t' ht' connecting id
  | takenOver t h =>
      by_cases hid : t'.taskId = t.taskId
      · obtain ⟨-, -, attempt, token, agent, evidence, -⟩ := h.bound t' ht' hid
        exact ⟨t, h.task, hid, h.state, agent, attempt, token, evidence⟩
      · exact h.run.continues ok t' ht' connecting hid
  | closed t h =>
      refine h.run.continues ok t' ht' connecting fun hid => ?_
      rcases h.ended with ⟨-, ended⟩ | ⟨-, ended⟩
      · rw [ended t' ht' hid] at connecting
        cases connecting
      · rw [ended t' ht' hid] at connecting
        cases connecting
  | handed sems h => exact h.run.continues ok t' ht' connecting id
  | reclaimed agent h =>
      obtain ⟨sems, run, -⟩ := h.run
      refine run.continues ok t' ht' connecting fun owned => ?_
      have idle := h.ended ok ht' owned
      rw [connecting] at idle
      cases idle
  | cancelled task h =>
      refine h.run.continues ok t' ht' connecting fun hid => ?_
      cases connecting.symm.trans (h.tasks t' ht' hid)

/-- Through a critical section the attempts go on, or end with their groups. -/
theorem Moves.continues (h : Moves c s s') (ok : s.Ok) : Store.Continues nobody s s' := by
  have init : Store.Continues nobody s s := fun t ht connecting _ =>
    ⟨t, ht, .of_attempt rfl connecting rfl rfl⟩
  refine (Moves.invariant (I := Store.Continues nobody s) (fun s₁ s₂ ok₁ ih move => ?_) h ok init).2
  intro t' ht' connecting exempt
  obtain ⟨t₁, ht₁, h₁⟩ := move.continues ok₁ t' ht' connecting exempt
  obtain ⟨t, ht, h₀⟩ := ih t₁ ht₁ h₁.state id
  exact ⟨t, ht, h₀.trans h₁⟩

/-! ## Tasks that wait to be started -/

/-- Of a task that is not exempt a change starts nothing without the licence. -/
theorem TaskStep.eligible {t t' : Task} (h : TaskStep c E s t t')
    (waiting : t.state.admission = true)
    (exempt : ¬ E t.taskId) (no : ¬ c.may (.start t.taskId)) : t'.state.admission = true := by
  cases h.change with
  | keep state | sync state | refresh _ state => rw [state, waiting]
  | ready _ _ state => rw [state]; rfl
  | start may => exact absurd may no
  | finish started => rw [started] at waiting; cases waiting
  | abort may => exact absurd may exempt
  | reclaim _ _ may => exact absurd may exempt
  | attempt may => exact absurd may exempt

theorem Micros.eligible {task : Option TaskId} (h : Micros c E s s') (ok : s.Ok)
    (no : ∀ t, ¬ c.may (.start t)) (exempt : ∀ t, task = some t → ¬ E t)
    (eligible : s.Eligible task) : s'.Eligible task := by
  refine (Micros.invariant (I := fun s => s.Eligible task) (fun s₁ s₂ ok₁ ih step => ?_) h ok
    eligible).2
  intro t' ht' htask
  rcases (step.tasks ok₁).back ht' with ⟨t, ht, h₁⟩ | row
  · have htask : task = some t.taskId := h₁.id ▸ htask
    exact h₁.eligible (ih t ht htask) (exempt _ htask) (no _)
  · rw [row.state]
    rfl

/-- A task that waits to be started does so until it is started or cancelled. -/
theorem Moves.eligible {task : Option TaskId} (h : Moves c s s') (ok : s.Ok)
    (start : ∀ t, ¬ c.may (.start t)) (cancel : ∀ t, ¬ c.may (.cancel t))
    (eligible : s.Eligible task) : s'.Eligible task := by
  refine (Moves.invariant (I := fun s => s.Eligible task) (fun s₁ s₂ ok₁ ih move => ?_) h ok
    eligible).2
  -- a group of changes is about a task that does not wait
  have apart {t : Task} (mem : t ∈ s₁.tasks) (busy : t.state.admission = false) :
      ∀ id, task = some id → ¬ id = t.taskId := by
    rintro id htask rfl
    rw [ih t mem htask] at busy
    cases busy
  cases move with
  | micro h => exact Micros.eligible (.single h) ok₁ start (fun _ _ => id) ih
  | takenOver t h => exact h.run.eligible ok₁ start (apart h.task (by rw [h.state]; rfl)) ih
  | closed t h => exact h.run.eligible ok₁ start (apart h.task (by rw [h.state]; rfl)) ih
  | cancelled id h => exact absurd h.may (cancel id)
  | handed sems h =>
      refine h.run.eligible ok₁ (fun t => ?_) (fun _ _ => id) ih
      exact (c.serving_within sems).forbids (start t) (by simp)
  | reclaimed agent h =>
      intro t' ht' htask
      rcases h.tasks t' ht' with ⟨ht, -⟩ | ⟨t, ht, id, -, requeued⟩
      · exact ih t' ht htask
      · have busy := requeued.busy
        have waiting := ih t ht (id ▸ htask)
        cases hs : t.state <;> simp [hs, TaskState.inProgress, TaskState.admission] at busy waiting

end Keys

end Omd
