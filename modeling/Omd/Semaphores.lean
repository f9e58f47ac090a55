import Omd.DeadTasks
import Omd.Waiting

/-!
# Permits in turn

A permit is granted when a slot is free, to a request that nobody waits before or to the
first in line; whatever frees a slot serves the line in the same step.  So nobody waits for
a semaphore with a free slot, and its permits are never more than there are slots, unless
their number was lowered.

The line does not look at deadlines: only the poll of a waiter ends its wait.  Who does not
poll is granted a permit when a slot is freed, however late.
-/

namespace Omd

open Lib

variable {cfg : Cfg} {env : Env} {σ σ' : Sys} {a : Action} {c : Scope} {E : TaskId → Prop}
  {s₀ s s₁ s' : Store} {sem : String} {p : Orbit} {r : SemWaiter}

/-- The first precedes the second in line: by its priority, then by its ticket. -/
def SemWaiter.Ahead (w r : SemWaiter) : Prop :=
  r.priority < w.priority ∨ w.priority = r.priority ∧ w.enqueuedSeq ≤ r.enqueuedSeq

/-- The row is a permit of the semaphore that was granted since. -/
structure Issued (sem : String) (s s' : Store) (p : Orbit) : Prop where
  mem : p ∈ s'.orbits
  new : s.uuid ≤ p.orbitId
  kind : p.kind = .sem_permit
  key : p.resourceKey = some sem

/-- The waiter waited for the semaphore before, and still does. -/
structure StillWaits (sem : String) (s s' : Store) (r : SemWaiter) : Prop where
  mem : r ∈ s'.semWaiters
  old : r.waiterId < s.uuid
  key : r.semId = sem
  waits : r.state = .WAITING

/-- Who a permit was granted to: a waiter that precedes all who still wait, or a request
when nobody does. -/
inductive InTurn (sem : String) (s s' : Store) (p : Orbit) : Prop
  | waiter (w : SemWaiter) (mem : w ∈ s'.semWaiters) (granted : w.state = .GRANTED)
      (permit : w.permitId = some p.orbitId) (key : w.semId = sem) (agent : w.agentId = p.agentId)
      (first : ∀ r, StillWaits sem s s' r → w.Ahead r)
  | request (free : ∀ r, ¬ StillWaits sem s s' r)

/-- The permits granted since find a slot each, and are granted in turn. -/
structure Fair (sem : String) (s s' : Store) : Prop where
  within : ∀ p, Issued sem s s' p → (s'.activePermits sem).length ≤ s'.maxPermits sem
  inTurn : ∀ p, Issued sem s s' p → InTurn sem s s' p

theorem Fair.of_orbits (ok : s.Ok) (orbits : s'.orbits = s.orbits) : Fair sem s s' := by
  have none (p : Orbit) (h : Issued sem s s' p) : False :=
    (ok.fresh p (orbits ▸ h.mem)).not_ge h.new
  exact ⟨fun p h => (none p h).elim, fun p h => (none p h).elim⟩

/-! ## One change -/

theorem Micro.maxPermits (h : Micro c E s s')
    (no : ∀ n, c.may (.slots sem n) → ¬ c.may (.serve sem)) :
    s'.maxPermits sem = s.maxPermits sem := by
  rw [Store.maxPermits, h.getSemaphore no, Store.maxPermits]

/-- The permits that a change finds within the slots stay so. -/
theorem Micro.within (h : Micro c E s s') (ok : s.Ok)
    (no : ∀ n, c.may (.slots sem n) → ¬ c.may (.serve sem))
    (within : (s.activePermits sem).length ≤ s.maxPermits sem) :
    (s'.activePermits sem).length ≤ s'.maxPermits sem := by
  rw [h.maxPermits no]
  rcases h.activePermits_le ok with fewer | ⟨slot, one⟩
  · exact fewer.trans within
  · have := Store.hasSlot_iff.mp slot
    omega

/-- Who still waits after a change waited before it. -/
theorem StillWaits.before (h : StillWaits sem s₀ s' r) (ok : s.Ok) (drawn : s₀.uuid ≤ s.uuid)
    (step : Micro c E s s') : StillWaits sem s₀ s r := by
  rcases (step.line ok).waiting h.mem h.waits with mem | new
  · exact ⟨mem, h.old, h.key, h.waits⟩
  · exact absurd (new.id ▸ h.old) drawn.not_gt

theorem InTurn.micro {p' : Orbit} (h : InTurn sem s₀ s p) (ok : s.Ok) (drawn : s₀.uuid ≤ s.uuid)
    (step : Micro c E s s') (row : p.SameRow p') : InTurn sem s₀ s' p' := by
  cases h with
  | waiter w mem granted permit key agent first =>
      obtain ⟨w', mem', change⟩ := (step.line ok).forth w mem
      -- the grant of a waiter is final
      have same : w' = w := by
        cases change with
        | same eq => exact eq
        | gaveUp gaveUp => exact absurd granted gaveUp.before
        | granted next => cases granted.symm.trans next.waiting
      subst same
      exact .waiter w' mem' granted (row.orbitId ▸ permit) key (row.agentId ▸ agent)
        fun r h => first r (h.before ok drawn step)
  | request free => exact .request fun r h => free r (h.before ok drawn step)

/-- The permit that a change inserts finds a slot, and is granted in turn. -/
theorem Micro.inTurn (h : Micro c E s s') (ok : s.Ok)
    (served : ¬ c.may (.serve sem) → s.ServedAt sem) (drawn : s₀.uuid ≤ s.uuid) (hp : p ∈ s'.orbits)
    (new : s.uuid ≤ p.orbitId) (kind : p.kind = .sem_permit) (key : p.resourceKey = some sem) :
    s.HasSlot sem ∧ InTurn sem s₀ s' p := by
  obtain ⟨row, -, line⟩ := (h.orbits ok).new ok hp new
  have slot : s.HasSlot sem := by
    cases row with
    | permit _ _ _ _ first =>
        obtain ⟨sem', key', -, slot⟩ := first
        cases key.symm.trans key'
        exact slot
    | held claimed | queued claimed => cases claimed.kind.symm.trans kind
    | lease other | token other => cases other.symm.trans kind
  refine ⟨slot, ?_⟩
  generalize hrows : s'.semWaiters = rows at line
  cases line with
  | stays direct =>
      refine .request fun r hr => ?_
      have before := hr.before ok drawn h
      exact served (direct sem kind key) r before.mem before.key before.waits slot
  | served w _ key' agent next =>
      cases key.symm.trans key'
      refine .waiter { w with state := .GRANTED, permitId := some p.orbitId } ?_ rfl rfl rfl
        agent.symm fun r hr => ?_
      · rw [hrows]
        exact Table.mem_modify.mpr (Or.inr ⟨w, next.mem, rfl, rfl⟩)
      · have before := hr.before ok drawn h
        exact next.first r before.mem before.key before.waits

/-- A change that does not change the number of slots grants in turn. -/
theorem Fair.micro (h : Fair sem s₀ s) (ok : s.Ok) (drawn : s₀.uuid ≤ s.uuid)
    (step : Micro c E s s') (slots : ∀ n, ¬ c.may (.slots sem n))
    (served : ¬ c.may (.serve sem) → s.ServedAt sem) : Fair sem s₀ s' := by
  -- a permit granted since was there before, or the change inserts it
  have cases {p : Orbit} (hp : Issued sem s₀ s' p) :
      (∃ p₀, Issued sem s₀ s p₀ ∧ p₀.SameRow p) ∨ s.HasSlot sem ∧ InTurn sem s₀ s' p := by
    rcases (step.orbits ok).back hp.mem with ⟨p₀, mem, change⟩ | ⟨-, id⟩
    · exact Or.inl ⟨p₀, ⟨mem, change.row.orbitId ▸ hp.new, change.row.kind ▸ hp.kind,
        change.row.resourceKey ▸ hp.key⟩, change.row⟩
    · exact Or.inr (step.inTurn ok served drawn hp.mem id.ge hp.kind hp.key)
  refine ⟨fun p hp => ?_, fun p hp => ?_⟩
  · refine step.within ok (fun n may => absurd may (slots n)) ?_
    rcases cases hp with ⟨p₀, old, -⟩ | ⟨slot, -⟩
    · exact h.within p₀ old
    · exact (Store.hasSlot_iff.mp slot).le
  · rcases cases hp with ⟨p₀, old, row⟩ | ⟨-, inTurn⟩
    · exact (h.inTurn p₀ old).micro ok drawn step row
    · exact inTurn

theorem Fair.micros (h : Fair sem s₀ s) (ok : s.Ok) (drawn : s₀.uuid ≤ s.uuid)
    (run : Micros c E s s') (slots : ∀ n, ¬ c.may (.slots sem n))
    (served : ¬ c.may (.serve sem) → s.ServedAt sem) : Fair sem s₀ s' := by
  let I (s : Store) : Prop :=
    s₀.uuid ≤ s.uuid ∧ Fair sem s₀ s ∧ (¬ c.may (.serve sem) → s.ServedAt sem)
  refine (Micros.invariant (I := I) (fun s₁ s₂ ok₁ ih step => ?_) run ok ⟨drawn, h, served⟩).2.2.1
  obtain ⟨drawn, fair, served⟩ := ih
  exact ⟨drawn.trans step.uuid, fair.micro ok₁ drawn step slots served,
    fun no => (served no).micro ok₁ step no⟩

/-! ## One step -/

theorem Outside.slots {may : Deed → Prop} (h : Outside cfg env σ a may)
    (declares : ∀ max, a ≠ .call (.semDeclare sem max)) (n : ℕ) : ¬ may (.slots sem n) := by
  intro licensed
  cases (h _ licensed).1 with
  | slots eq => exact declares _ eq

theorem Outside.serve {may : Deed → Prop} (h : Outside cfg env σ a may) (sem : String) :
    ¬ may (.serve sem) := fun licensed => (h _ licensed).2 sem rfl

/-- After a step nobody waits for a free slot. -/
theorem step_served (ok : σ.Ok) (served : σ.store.Served) (h : step cfg env σ a = .ok σ') :
    σ'.store.Served :=
  (step_spec ok h).1.moves_invariant (I := Store.Served)
    (fun _ _ _ outside ok ih move => ih.move ok move outside.serve)
    (fun _ _ _ _ outside ok ih step sem => (ih sem).micro ok step (outside.serve sem))
    ok.store served

theorem addSemaphore_orbits {n : ℕ} : (s.addSemaphore sem n).orbits = s.orbits := by
  rw [Store.addSemaphore]
  split <;> rfl

theorem addSemaphore_uuid {n : ℕ} : (s.addSemaphore sem n).uuid = s.uuid := by
  rw [Store.addSemaphore]
  split <;> rfl

theorem maxPermits_addSemaphore {n : ℕ} : (s.addSemaphore sem n).maxPermits sem = n := by
  rw [Store.addSemaphore]
  split
  · rename_i none
    have found : Table.get Semaphore.semId sem (s.semaphores ++ [⟨sem, n⟩]) = some ⟨sem, n⟩ := by
      rw [Table.get_append, if_pos rfl]
      rw [Store.getSemaphore] at none
      rw [none, Option.none_or]
    rw [Store.maxPermits, Store.getSemaphore, found]
    rfl
  · rename_i row found
    have modified : Table.get Semaphore.semId sem (Table.modify Semaphore.semId sem
        (fun r => { r with maxPermits := n }) s.semaphores) =
          some { row with maxPermits := n } := by
      rw [Table.get_modify (by exact fun _ h => h)]
      rw [Store.getSemaphore] at found
      rw [found, Option.map_some, if_pos rfl]
    rw [Store.maxPermits, Store.getSemaphore, modified]
    rfl

/-- The run that serves the line of a semaphore that was declared. -/
theorem promoteSemWaiters_micros (ok : s.Ok) : Micros ((Scope.plain cfg env.now).serving [sem])
    nobody s (promoteSemWaiters cfg env.now s sem) :=
  (promoteSemWaiters_keeps (c := (Scope.plain cfg env.now).serving [sem]) sem ok).1

theorem Store.Ok.addSemaphore (ok : s.Ok) (n : ℕ) : (s.addSemaphore sem n).Ok := by
  refine Frame.ok (s := { s with semaphores := (s.addSemaphore sem n).semaphores }) ?_ { ok with }
  rw [Store.addSemaphore]
  split <;> exact {}

theorem semDeclare_fair (ok : s.Ok) (max : ℤ) :
    Fair sem s (semDeclare cfg env.now s sem max).1 := by
  rw [semDeclare]
  split
  · exact .of_orbits ok rfl
  · have declared : Fair sem s (s.addSemaphore sem max.toNat) := .of_orbits ok addSemaphore_orbits
    exact declared.micros (ok.addSemaphore _) addSemaphore_uuid.ge
      (promoteSemWaiters_micros (ok.addSemaphore _)) (fun _ => id)
      fun no => absurd (List.mem_singleton_self sem) no

/-- A step grants its permits in turn. -/
theorem step_fair (ok : σ.Ok) (served : σ.store.Served) (h : step cfg env σ a = .ok σ')
    (sem : String) : Fair sem σ.store σ'.store := by
  by_cases declares : ∃ max, a = .call (.semDeclare sem max)
  · obtain ⟨max, rfl⟩ := declares
    cases h
    exact semDeclare_fair ok.store max
  · rw [not_exists] at declares
    let I (s : Store) : Prop := σ.store.uuid ≤ s.uuid ∧ s.Served ∧ Fair sem σ.store s
    refine ((step_spec ok h).1.moves_invariant (I := I) ?_ ?_ ok.store
      ⟨le_rfl, served, .of_orbits ok.store rfl⟩).2.2
    · intro may s₁ s₂ outside ok₁ ⟨drawn, served, fair⟩ move
      obtain ⟨c', E, within, run⟩ := move.micros
      refine ⟨drawn.trans run.uuid, served.move ok₁ move outside.serve, ?_⟩
      exact fair.micros ok₁ drawn run
        (fun n => within.forbids (outside.slots declares n) (by simp)) fun _ => served sem
    · intro may E s₁ s₂ outside ok₁ ⟨drawn, served, fair⟩ step
      refine ⟨drawn.trans step.uuid, fun sem => (served sem).micro ok₁ step (outside.serve sem), ?_⟩
      exact fair.micro ok₁ drawn step (outside.slots declares) fun _ => served sem

/-! ## Runs -/

/-- The action does not lower the number of slots of the semaphore. -/
def Unlowered (sem : String) (σ : Sys) (l : Env × Action) : Prop :=
  ∀ max : ℤ, l.2 = .call (.semDeclare sem max) → 1 ≤ max → σ.store.maxPermits sem ≤ max.toNat

/-- The permits of the semaphore are no more than its slots. -/
def Store.WithinSlots (s : Store) (sem : String) : Prop :=
  (s.activePermits sem).length ≤ s.maxPermits sem

theorem semDeclare_within {max : ℤ} (ok : s.Ok) (within : s.WithinSlots sem)
    (unlowered : 1 ≤ max → s.maxPermits sem ≤ max.toNat) :
    (semDeclare cfg env.now s sem max).1.WithinSlots sem := by
  rw [semDeclare]
  split
  · exact within
  · rename_i positive
    have declared : (s.addSemaphore sem max.toNat).WithinSlots sem := by
      rw [Store.WithinSlots, maxPermits_addSemaphore, Store.activePermits, Store.heldOfKind,
        addSemaphore_orbits]
      exact within.trans (unlowered (by omega))
    have ok₁ : (s.addSemaphore sem max.toNat).Ok := ok.addSemaphore _
    have served : Micros ((Scope.plain cfg env.now).serving [sem]) nobody _ _ :=
      promoteSemWaiters_micros ok₁
    refine (Micros.invariant (I := fun s => s.WithinSlots sem) (fun s₁ s₂ ok within step => ?_)
      served ok₁ declared).2
    exact step.within ok (fun _ may => False.elim may) within

theorem step_within (ok : σ.Ok) (within : σ.store.WithinSlots sem)
    (unlowered : Unlowered sem σ (env, a)) (h : step cfg env σ a = .ok σ') :
    σ'.store.WithinSlots sem := by
  by_cases declares : ∃ max, a = .call (.semDeclare sem max)
  · obtain ⟨max, rfl⟩ := declares
    cases h
    exact semDeclare_within ok.store within (unlowered max rfl)
  · rw [not_exists] at declares
    refine (step_spec ok h).1.moves_invariant (I := fun s => s.WithinSlots sem) ?_ ?_ ok.store
      within
    · intro may s₁ s₂ outside ok₁ ih move
      refine move.invariant (I := fun s => s.WithinSlots sem)
        (fun c' E s₃ s₄ within ok₃ ih step =>
          step.within ok₃ (fun n may => absurd may ?_) ih) ok₁ ih
      exact within.forbids (outside.slots declares n) (by simp)
    · intro may E s₁ s₂ outside ok₁ ih step
      exact step.within ok₁ (fun n may => absurd may (outside.slots declares n)) ih

theorem ReachableBy.served {P : Sys → Env × Action → Prop} (reach : ReachableBy cfg P σ) :
    σ.store.Served := by
  refine (Transition.Run.invariant (I := fun τ => τ.Ok ∧ τ.store.Served)
    (fun τ l τ' ih _ h => ?_) reach ⟨.empty, fun _ w hw => by cases hw⟩).2
  have h : step cfg l.1 τ l.2 = .ok τ' := h
  exact ⟨(step_spec ih.1 h).2, step_served ih.1 ih.2 h⟩

/-- In every run who waits for a semaphore finds its slots taken, no agent holds two permits
of it, permits are granted in turn, and they are within the slots as long as nobody lowers
their number. -/
theorem permits_in_turn (reach : Reachable cfg σ) (sem : String) :
    (∀ w ∈ σ.store.semWaiters, w.semId = sem → w.state = .WAITING →
      σ.store.maxPermits sem ≤ (σ.store.activePermits sem).length) ∧
    (∀ agent, ∀ p ∈ σ.store.orbits, ∀ p' ∈ σ.store.orbits,
      p.IsPermit sem agent → p'.IsPermit sem agent → p = p') ∧
    (∀ env a σ', step cfg env σ a = .ok σ' → Fair sem σ.store σ'.store) ∧
    (ReachableBy cfg (Unlowered sem) σ →
      (σ.store.activePermits sem).length ≤ σ.store.maxPermits sem) := by
  refine ⟨fun w hw key waits => ?_, ?_, ?_, ?_⟩
  · exact not_lt.mp fun free => reach.served sem w hw key waits (Store.hasSlot_iff.mpr free)
  · have one : σ.store.OnePermit :=
      Sys.Ok.empty.run_invariant (fun _ _ _ _ ok h step => h.micro ok step) reach
        (by intro _ _ p hp; cases hp)
    exact one sem
  · exact fun env a σ' h => step_fair reach.ok reach.served h sem
  · intro run
    refine (Transition.Run.invariant (I := fun τ => τ.Ok ∧ τ.store.WithinSlots sem)
      (fun τ l τ' ih unlowered h => ?_) run ⟨.empty, Nat.zero_le _⟩).2
    have h : step cfg l.1 τ l.2 = .ok τ' := h
    exact ⟨(step_spec ih.1 h).2, step_within ih.1 ih.2 unlowered h⟩

/-- A semaphore with one slot, its holder and a request that waits. -/
def sharedSlot : List (Env × Action) :=
  [ (Action.call (.semDeclare "s" 1)).at 1,
    (Action.call (.acquire { agentId := "A", sem := "s" })).at 2,
    (Action.call (.acquire { agentId := "B", sem := "s" })).at 3 ]

theorem sharedSlot_in_turn : ∃ σ, Reachable {} σ ∧ (σ.store.waitingSemWaiters "s").length = 1 ∧
    (∀ w ∈ σ.store.semWaiters, w.semId = "s" → w.state = .WAITING →
      σ.store.maxPermits "s" ≤ (σ.store.activePermits "s").length) ∧
    ∀ env a σ', step {} env σ a = .ok σ' → Fair "s" σ.store σ'.store := by
  have run : ∃ σ, Reachable {} σ ∧ (σ.store.waitingSemWaiters "s").length = 1 :=
    exists_reachable sharedSlot (by decide +kernel)
  obtain ⟨σ, reach, waiting⟩ := run
  obtain ⟨taken, -, fair, -⟩ := permits_in_turn reach "s"
  exact ⟨σ, reach, waiting, taken, fair⟩

/-! ## Waits that have expired -/

/-- The action frees a slot of the semaphore: a permit has lapsed when it sweeps, is of an
agent that it may reclaim or is given back, or slots are added. -/
inductive Frees (cfg : Cfg) (σ : Sys) (l : Env × Action) (sem : String) : Prop
  | lapse {p : Orbit} (mem : p ∈ σ.store.orbits) (active : p.Active sem) (h : Collects σ l.2)
      (due : reached p.expiresAt l.1.now = true)
  | reclaim {p : Orbit} (mem : p ∈ σ.store.orbits) (active : p.Active sem)
      (h : Reclaims cfg σ l p.agentId)
  | yield {p : Orbit} {agent : AgentId} {fence : Option ℕ} {id : Option RequestId}
      {epoch : Option ℕ} (mem : p ∈ σ.store.orbits) (active : p.Active sem)
      (h : l.2 = .call (.semRelease p.orbitId agent fence id epoch))
      (owner : checkOwner p agent fence = none)
  | raise {max : ℤ} (h : l.2 = .call (.semDeclare sem max))
      (more : σ.store.maxPermits sem < max.toNat)

/-- Where the action frees a slot, nobody waits past their deadline. -/
def LiveLine (cfg : Cfg) (σ : Sys) (l : Env × Action) : Prop :=
  ∀ sem, Frees cfg σ l sem → ∀ w ∈ σ.store.semWaiters, w.semId = sem → w.state = .WAITING →
    l.1.now < w.deadline

/-- The step from one store to the other grants a permit to a waiter past its deadline. -/
def GrantsLate (now : Time) (s s' : Store) : Prop :=
  ∃ w ∈ s.semWaiters, w.state = .WAITING ∧ w.deadline ≤ now ∧
    ∃ w' ∈ s'.semWaiters, w'.waiterId = w.waiterId ∧ w'.state = .GRANTED

/-- The slots of a semaphore during a step that frees none: they are all taken, by permits
that were held before, and nobody is granted one. -/
structure Taken (σ : Sys) (a : Action) (sem : String) (s : Store) : Prop where
  drawn : σ.store.uuid ≤ s.uuid
  permits : ∀ p ∈ s.orbits, p.Active sem → ∃ p₀ ∈ σ.store.orbits, p₀.Active sem ∧ p₀.SameRow p ∧
    (p.expiresAt = p₀.expiresAt ∨ ¬ Collects σ a)
  full : σ.store.maxPermits sem ≤ (s.activePermits sem).length
  slots : s.maxPermits sem ≤ σ.store.maxPermits sem
  rows : ∀ w ∈ s.semWaiters,
    (∃ w₀ ∈ σ.store.semWaiters, w.place = w₀.place) ∨ σ.store.uuid ≤ w.waiterId
  granted : ∀ w ∈ s.semWaiters, w.semId = sem → w.state = .GRANTED → w ∈ σ.store.semWaiters

theorem Taken.noSlot (h : Taken σ a sem s) : ¬ s.HasSlot sem := fun free =>
  (Store.hasSlot_iff.mp free).not_ge (h.slots.trans h.full)

/-- An action that sweeps renews nothing. -/
theorem Collects.no_renew {orbit : OrbitId} (h : Collects σ a) :
    ¬ Licence cfg env σ a (.renew orbit) := by
  intro renews
  cases h with
  | verb eq sweeps =>
      subst eq
      cases renews with
      | renew eq | heartbeat eq =>
          cases eq
          cases sweeps
      | liveness cut =>
          obtain ⟨i, eq, -⟩ := cut
          cases eq
  | batch cut | phaseA cut | arrive cut =>
      cases renews with
      | renew eq | heartbeat eq =>
          subst eq
          obtain ⟨i, eq, -⟩ := cut
          cases eq
      | liveness cut' => cases (cut.unique cut').1

/-- The deadline of a held permit moves at a renewal only. -/
theorem OrbitStep.expiresAt {o o' : Orbit} (h : OrbitStep c E s o o') (active : o'.Active sem) :
    o'.expiresAt = o.expiresAt ∨ c.may (.renew o.orbitId) := by
  have kind := (h.wasActive active).kind
  cases h.change with
  | keep _ _ _ deadline => exact deadline (Or.inr kind)
  | promote pending =>
      rw [Orbit.isPending, kind] at pending
      simp at pending
  | expire _ state | deny _ state => cases active.state.symm.trans state
  | permit _ _ _ _ state =>
      rw [active.state] at state
      cases state
  | release path | lease path | cancelled _ _ _ path | reclaimed _ path | attempt _ _ path
  | token path | rebind path => cases kind.symm.trans path

theorem WaiterStep.place {w w' : SemWaiter} (h : WaiterStep s w w') : w'.place = w.place := by
  cases h with
  | same eq => rw [eq]
  | gaveUp h => exact h.place
  | granted _ _ eq =>
      rw [eq]
      rfl

section

variable {may : Deed → Prop}

/-- No permit of the semaphore ends. -/
theorem Taken.unended (h : Taken σ a sem s) (ok₀ : σ.store.Ok)
    (licensed : ∀ d, may d → Licence cfg env σ a d) (unfreed : ¬ Frees cfg σ (env, a) sem)
    (hp : p ∈ s.orbits) (active : p.Active sem) : ¬ Scope.ends ⟨cfg, env.now, may⟩ p := by
  obtain ⟨p₀, mem, active₀, row, expires⟩ := h.permits p hp active
  rintro (⟨lapse, due⟩ | reclaims | yields)
  · cases licensed _ lapse with
    | lapse collects =>
        rw [expires.resolve_right (not_not.mpr collects)] at due
        exact unfreed (.lapse mem active₀ collects due)
  · rw [row.agentId] at reclaims
    exact unfreed (.reclaim mem active₀ (Licence.reclaims (reclaims.imp (licensed _) (licensed _))))
  · generalize hid : p.orbitId = id at yields
    cases licensed _ yields with
    | yield eq hr owner =>
        cases ok₀.orbit_eq hr mem (hid.symm.trans row.orbitId)
        exact unfreed (.yield mem active₀ eq owner)

/-- The slots of the semaphore are not more than before. -/
theorem Taken.unraised (h : Taken σ a sem s) (licensed : ∀ d, may d → Licence cfg env σ a d)
    (unfreed : ¬ Frees cfg σ (env, a) sem) (step : Micro ⟨cfg, env.now, may⟩ E s s') :
    s'.maxPermits sem ≤ σ.store.maxPermits sem := by
  rcases step.semaphore sem with same | ⟨n, declares, -, eq⟩
  · rw [Store.maxPermits, same]
    exact h.slots
  · have count : s'.maxPermits sem = n := by
      rw [Store.maxPermits, eq]
      exact maxPermits_addSemaphore
    rw [count]
    cases licensed _ declares with
    | slots call => exact not_lt.mp fun more => unfreed (.raise call more)

theorem Taken.micro (h : Taken σ a sem s) (ok : s.Ok) (ok₀ : σ.store.Ok)
    (licensed : ∀ d, may d → Licence cfg env σ a d) (unfreed : ¬ Frees cfg σ (env, a) sem)
    (step : Micro ⟨cfg, env.now, may⟩ E s s') : Taken σ a sem s' := by
  refine ⟨h.drawn.trans step.uuid, fun p hp active => ?_, h.full.trans ?_,
    h.unraised licensed unfreed step, fun w hw => ?_, fun w hw key granted => ?_⟩
  · rcases (step.orbits ok).back hp with ⟨o, ho, change⟩ | ⟨row, -⟩
    · obtain ⟨p₀, mem, active₀, row, expires⟩ := h.permits o ho (change.wasActive active)
      refine ⟨p₀, mem, active₀, row.trans change.row, ?_⟩
      rcases change.expiresAt active with same | renews
      · exact expires.imp_left same.trans
      · exact Or.inr fun collects => collects.no_renew (licensed _ renews)
    · cases row with
      | permit _ _ _ _ first =>
          obtain ⟨sem', key, -, slot⟩ := first
          cases active.key.symm.trans key
          exact absurd slot h.noSlot
      | held claimed | queued claimed => cases claimed.kind.symm.trans active.kind
      | lease other | token other => cases other.symm.trans active.kind
  · refine Omd.activePermits_le ok fun o ho active => ?_
    rcases (step.orbits ok).forth ho ok with ⟨o', ho', change⟩ | ⟨-, ended, -⟩
    · exact ⟨o', ho', change.row.orbitId, change.active active fun ends =>
        h.unended ok₀ licensed unfreed ho active ends.1⟩
    · rw [active.state] at ended
      cases ended
  · rcases (step.line ok).back w hw with ⟨w₁, hw₁, change⟩ | new
    · rcases h.rows w₁ hw₁ with ⟨w₀, hw₀, place⟩ | later
      · exact Or.inl ⟨w₀, hw₀, change.place.trans place⟩
      · exact Or.inr (later.trans_eq (congrArg Prod.fst change.place).symm)
    · exact Or.inr (new.id ▸ h.drawn)
  · rcases (step.line ok).back w hw with ⟨w₁, hw₁, change⟩ | new
    · cases change with
      | same eq => exact h.granted w (eq ▸ hw₁) key granted
      | gaveUp gaveUp => exact absurd granted gaveUp.idle.2
      | granted next _ eq =>
          rw [eq] at key
          exact absurd (key ▸ next.slot) h.noSlot
    · cases granted.symm.trans new.state

end

/-- A step that frees no slot of a semaphore grants no permit to those who wait for it. -/
theorem step_taken (ok : σ.Ok) (served : σ.store.Served) (h : step cfg env σ a = .ok σ')
    {w w' : SemWaiter} (hw : w ∈ σ.store.semWaiters) (waits : w.state = .WAITING)
    (unfreed : ¬ Frees cfg σ (env, a) w.semId) (hw' : w' ∈ σ'.store.semWaiters)
    (id : w'.waiterId = w.waiterId) : w'.state ≠ .GRANTED := by
  have full := served w.semId w hw rfl waits
  rw [Store.hasSlot_iff, not_lt] at full
  have taken : Taken σ a w.semId σ'.store :=
    (step_spec ok h).1.invariant (I := Taken σ a w.semId)
      (fun _ _ _ _ licensed ok₁ ih step => ih.micro ok₁ ok.store licensed unfreed step) ok.store
      ⟨le_rfl, fun p hp active => ⟨p, hp, active, .refl p, Or.inl rfl⟩, full, le_rfl,
        fun w hw => Or.inl ⟨w, hw, rfl⟩, fun w hw _ _ => hw⟩
  intro granted
  rcases taken.rows w' hw' with ⟨w₀, hw₀, place⟩ | later
  · have same : w₀ = w := ok.store.waiterIds.eq hw₀ hw ((congrArg Prod.fst place).symm.trans id)
    have key : w'.semId = w.semId := same ▸ congrArg (·.2.1) place
    cases ok.store.waiterIds.eq (taken.granted w' hw' key granted) hw id
    cases waits.symm.trans granted
  · exact (ok.store.freshWaiter w hw).not_ge (id ▸ later)

/-- The store in which the body of the request runs. -/
inductive EntersAcquire (s : Store) (q : AcquireArgs) : Store → Prop
  | plain (request : q.requestId = none) : EntersAcquire s q s
  | keyed {id : RequestId} {s₁ : Store} (request : q.requestId = some id)
      (enter : enterIdem s id (some q.agentId) q.idemArgs = .ok (.inr s₁)) : EntersAcquire s q s₁

theorem Store.Served.apart (h : s.Served) (apart : Apart s s') : s'.Served := by
  rintro sem w hw key waits ⟨row, found, free⟩
  have semaphores : s'.getSemaphore sem = s.getSemaphore sem :=
    congrArg (Table.get Semaphore.semId sem) apart.frame.semaphores
  have permits : s'.activePermits sem = s.activePermits sem := by
    rw [Store.activePermits, Store.heldOfKind, apart.frame.orbits]
    rfl
  exact h sem w (apart.frame.semWaiters ▸ hw) key waits ⟨row, semaphores ▸ found, permits ▸ free⟩

/-- A request that finds a free slot when it has swept finds nobody in line. -/
theorem EntersAcquire.noEarlier {q : AcquireArgs} {now : Time} {s₂ : Store}
    (enters : EntersAcquire s q s₁)
    (ok : s.Ok) (served : s.Served) (sweep : sweepInline cfg now s₁ = .ok s₂)
    (slot : s₂.HasSlot q.sem) : hasEarlierWaiter s₂ q.sem q.priority q.agentId = false := by
  have entered : Apart s s₁ ∧ s₁.Ok := by
    cases enters with
    | plain => exact ⟨.refl s, ok⟩
    | keyed _ enter => exact enterIdem_apart ok enter
  let c : Scope := ⟨cfg, now, fun d => ∀ sem, d ≠ .serve sem⟩
  have swept : Moves c s₁ s₂ :=
    sweepInline_takes (c := c) (by simp [c]) ⟨by simp [c], by simp [c]⟩ (by simp [c]) sweep
      entered.2
  have unserved (sem : String) : ¬ c.may (.serve sem) := fun no => no sem rfl
  have served₂ : s₂.Served :=
    (Moves.invariant (I := Store.Served) (fun _ _ ok ih move => ih.move ok move unserved) swept
      entered.2 (served.apart entered.1)).2
  rw [Bool.eq_false_iff]
  intro earlier
  obtain ⟨w, hw, key, waits⟩ := hasEarlierWaiter_waiting earlier
  exact served₂ q.sem w hw key waits slot

/-- In a run in which nobody waits past their deadline when a slot is freed, no step grants
a permit to a waiter past its deadline; and no waiter at all keeps a request from a slot. -/
theorem late_waits_dead (run : ReachableBy cfg (LiveLine cfg) σ) :
    (∀ l σ', LiveLine cfg σ l → step cfg l.1 σ l.2 = .ok σ' →
      ¬ GrantsLate l.1.now σ.store σ'.store) ∧
    ∀ now q s₁ s₂, EntersAcquire σ.store q s₁ → sweepInline cfg now s₁ = .ok s₂ → s₂.HasSlot q.sem →
      hasEarlierWaiter s₂ q.sem q.priority q.agentId = false := by
  have ok := ReachableBy.ok run
  have served : σ.store.Served := ReachableBy.served run
  refine ⟨fun l σ' live h ⟨w, hw, waits, late, w', hw', id, granted⟩ => ?_, ?_⟩
  · by_cases frees : Frees cfg σ l w.semId
    · exact (live w.semId frees w hw rfl waits).not_ge late
    · exact step_taken ok served h hw waits frees hw' id granted
  · exact fun now q s₁ s₂ enters sweep slot => enters.noEarlier ok.store served sweep slot

/-- The permit is given back while the next in line still waits for it. -/
def timelyRelease : List (Env × Action) :=
  sharedSlot ++ [(Action.call (.semRelease 0 "A" (some 1) none none)).at 50]

theorem timelyRelease_granted : ∃ σ : Sys, (σ.store.activePermitFor "s" "B").isSome = true ∧
    ∀ l σ', LiveLine {} σ l → step {} l.1 σ l.2 = .ok σ' →
      ¬ GrantsLate l.1.now σ.store σ'.store := by
  have run : ∃ σ, ReachableBy {} (LiveLine {}) σ ∧
      (σ.store.activePermitFor "s" "B").isSome = true := by
    refine exists_reachableWhen timelyRelease (fun σ l => σ.store.semWaiters.all fun w =>
      w.state ≠ .WAITING || l.1.now < w.deadline) (fun σ l live sem _ w hw _ waits => ?_)
      (by decide +kernel)
    have := List.all_eq_true.mp live w hw
    simpa [waits] using this
  obtain ⟨σ, run, granted⟩ := run
  exact ⟨σ, granted, (late_waits_dead run).1⟩

instance (now : Time) (s s' : Store) : Decidable (GrantsLate now s s') :=
  inferInstanceAs (Decidable (∃ w ∈ s.semWaiters, w.state = .WAITING ∧ w.deadline ≤ now ∧
    ∃ w' ∈ s'.semWaiters, w'.waiterId = w.waiterId ∧ w'.state = .GRANTED))

/-- A request that waits ten seconds for the permit of another agent. -/
def shortWait : List (Env × Action) :=
  [ (Action.call (.semDeclare "s" 1)).at 1,
    (Action.call (.acquire { agentId := "A", sem := "s", ttl := some 1000 })).at 2,
    (Action.call (.acquire { agentId := "B", sem := "s", ttl := some 10 })).at 3 ]

/-- The release of the permit, later than that. -/
def lateRelease : Env × Action := (Action.call (.semRelease 0 "A" (some 1) none none)).at 50

/-- A waiter that does not poll is granted a permit after its deadline. -/
theorem lateRelease_granted : ∃ σ σ' : Sys, Reachable {} σ ∧ Step {} σ lateRelease σ' ∧
    GrantsLate 50 σ.store σ'.store := by
  have run : ∃ σ, Reachable {} σ ∧ ((step {} lateRelease.1 σ lateRelease.2).toOption.any
      fun σ' => GrantsLate 50 σ.store σ'.store) = true :=
    exists_reachable shortWait (by decide +kernel)
  obtain ⟨σ, reach, granted⟩ := run
  obtain ⟨σ', h, granted⟩ := exists_step granted
  exact ⟨σ, σ', reach, h, granted⟩

end Omd
