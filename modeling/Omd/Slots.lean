import Omd.Shape

/-!
# The slots of a semaphore and its line

A permit that is held takes a slot, and who waits in line waits because no slot is free.
A change that may not serve a semaphore frees none of its slots, so the line stays as it
should be; a group that ends permits or adds slots has to serve the line at its end.
-/

namespace Omd

open Lib

variable {c : Scope} {E : TaskId → Prop} {s s₁ s' : Store} {sem : String}

/-! ## Permits -/

/-- A permit of the semaphore that is held. -/
structure Orbit.Active (o : Orbit) (sem : String) : Prop where
  kind : o.kind = .sem_permit
  state : o.state = .HELD
  key : o.resourceKey = some sem

theorem mem_activePermits {o : Orbit} :
    o ∈ s.activePermits sem ↔ o ∈ s.orbits ∧ o.Active sem := by
  simp only [Store.activePermits, Store.heldOfKind, List.mem_filter, Bool.and_eq_true,
    decide_eq_true_eq]
  exact ⟨fun h => ⟨h.1.1, h.1.2.1, h.1.2.2, h.2⟩, fun h => ⟨⟨h.1, h.2.1, h.2.2⟩, h.2.3⟩⟩

theorem Store.Ok.activePermits (ok : s.Ok) (sem : String) :
    ((s.activePermits sem).map Orbit.orbitId).Nodup :=
  (ok.orbitIds.filter _).filter _

/-- The row of a permit stays, and it is held until it ends and its slot is handed on. -/
theorem OrbitStep.active {o o' : Orbit} (h : OrbitStep c E s o o') (active : o.Active sem)
    (no : ¬ (c.ends o ∧ c.may (.serve sem))) : o'.Active sem := by
  obtain ⟨kind, held, key⟩ := active
  have state : o'.state = .HELD := by
    cases h.change with
    | keep state | rebind _ _ state => exact state.trans held
    | promote _ state => exact state
    | permit _ _ ends serves => exact absurd ⟨ends, serves sem key⟩ no
    | expire due =>
        rw [Orbit.isDue, Orbit.isHeld, kind] at due
        simp at due
    | deny pending => cases held.symm.trans pending
    | release path | lease path | cancelled _ _ _ path | reclaimed _ path | attempt _ _ path
    | token path => cases kind.symm.trans path
  exact ⟨h.row.kind.trans kind, state, h.row.resourceKey.trans key⟩

/-- A permit that is held after a change was held before. -/
theorem OrbitStep.wasActive {o o' : Orbit} (h : OrbitStep c E s o o') (active : o'.Active sem) :
    o.Active sem := by
  have kind : o.kind = .sem_permit := h.row.kind.symm.trans active.kind
  have held : o.state = .HELD := by
    cases h.change with
    | promote pending =>
        rw [Orbit.isPending, kind] at pending
        simp at pending
    | keep state | rebind _ _ state => exact state ▸ active.state
    | expire _ state | deny _ state | release _ _ _ _ state =>
        cases active.state.symm.trans state
    | lease _ _ state | permit _ _ _ _ state | cancelled _ _ _ _ _ state | reclaimed _ _ _ state
    | token _ _ _ state =>
        rw [active.state] at state
        cases state
    | attempt _ _ path => rw [path] at kind; cases kind
  exact ⟨kind, held, h.row.resourceKey ▸ active.key⟩

/-- The held permits of a store, found again in another. -/
theorem activePermits_le (ok : s.Ok)
    (keeps : ∀ o ∈ s.orbits, o.Active sem → ∃ o' ∈ s'.orbits, o'.orbitId = o.orbitId ∧
      o'.Active sem) : (s.activePermits sem).length ≤ (s'.activePermits sem).length := by
  have sub : (s.activePermits sem).map Orbit.orbitId ⊆
      (s'.activePermits sem).map Orbit.orbitId := by
    intro id hid
    obtain ⟨o, ho, rfl⟩ := List.mem_map.mp hid
    obtain ⟨mem, active⟩ := mem_activePermits.mp ho
    obtain ⟨o', ho', same, active'⟩ := keeps o mem active
    exact List.mem_map.mpr ⟨o', mem_activePermits.mpr ⟨ho', active'⟩, same⟩
  simpa using ((ok.activePermits sem).subperm sub).length_le

/-- A change frees no slot of a semaphore that it may not serve. -/
theorem Micro.activePermits (h : Micro c E s s') (ok : s.Ok) (no : ¬ c.may (.serve sem)) :
    (s.activePermits sem).length ≤ (s'.activePermits sem).length := by
  refine activePermits_le ok fun o ho active => ?_
  rcases (h.orbits ok).forth ho ok with ⟨o', ho', step⟩ | ⟨-, ended, -⟩
  · exact ⟨o', ho', step.row.orbitId, step.active active fun h => no h.2⟩
  · rw [active.state] at ended
    cases ended

/-- A row that is new after a change was inserted by it. -/
theorem OrbitsAfter.new (h : OrbitsAfter c E s s') (ok : s.Ok) {o : Orbit} (ho : o ∈ s'.orbits)
    (id : s.uuid ≤ o.orbitId) :
    NewRow c s o ∧ o.orbitId = s.uuid ∧ Lined c s o s'.semWaiters := by
  have old {r : Orbit} (hr : r ∈ s.orbits) (same : o.orbitId = r.orbitId) : False :=
    (ok.fresh r hr).not_ge (same ▸ id)
  cases h with
  | kept back =>
      obtain ⟨r, hr, stamped⟩ := back o ho
      exact (old hr stamped.orbitId).elim
  | changed r r' mem step rows =>
      rcases (rows o).mp ho with ⟨ho, -⟩ | rfl
      · exact (old ho rfl).elim
      · exact (old mem step.row.orbitId).elim
  | added r row hid line rows =>
      rcases (rows o).mp ho with ho | rfl
      · exact (old ho rfl).elim
      · exact ⟨row, hid, line⟩

/-! ## Slots -/

/-- The number of permits of the semaphore there are. -/
def Store.maxPermits (s : Store) (sem : String) : ℕ :=
  ((s.getSemaphore sem).map Semaphore.maxPermits).getD 0

theorem Store.hasSlot_iff : s.HasSlot sem ↔ (s.activePermits sem).length < s.maxPermits sem := by
  rw [Store.HasSlot, Store.maxPermits]
  cases s.getSemaphore sem <;> simp

/-- A change takes at most one slot, and one that is free. -/
theorem Micro.activePermits_le (h : Micro c E s s') (ok : s.Ok) :
    (s'.activePermits sem).length ≤ (s.activePermits sem).length ∨
      s.HasSlot sem ∧ (s'.activePermits sem).length ≤ (s.activePermits sem).length + 1 := by
  have ids : (s'.activePermits sem).map Orbit.orbitId ⊆
      s.uuid :: (s.activePermits sem).map Orbit.orbitId := by
    intro id hid
    obtain ⟨o', ho', rfl⟩ := List.mem_map.mp hid
    obtain ⟨mem, active⟩ := mem_activePermits.mp ho'
    rcases (h.orbits ok).back mem with ⟨o, ho, step⟩ | ⟨-, new⟩
    · refine List.mem_cons_of_mem _ (List.mem_map.mpr ⟨o, ?_, step.row.orbitId.symm⟩)
      exact mem_activePermits.mpr ⟨ho, step.wasActive active⟩
    · exact new ▸ List.mem_cons_self
  have nodup := (ok.micro h).activePermits sem
  by_cases new : s.uuid ∈ (s'.activePermits sem).map Orbit.orbitId
  · obtain ⟨o, ho, id⟩ := List.mem_map.mp new
    obtain ⟨mem, active⟩ := mem_activePermits.mp ho
    obtain ⟨row, -, -⟩ := (h.orbits ok).new ok mem id.ge
    refine Or.inr ⟨?_, by simpa using (nodup.subperm ids).length_le⟩
    cases row with
    | permit _ _ _ _ first =>
        obtain ⟨sem', key, -, slot⟩ := first
        cases active.key.symm.trans key
        exact slot
    | held claimed | queued claimed => cases claimed.kind.symm.trans active.kind
    | lease kind | token kind => cases kind.symm.trans active.kind
  · have old : (s'.activePermits sem).map Orbit.orbitId ⊆
        (s.activePermits sem).map Orbit.orbitId := fun id hid =>
      (List.mem_cons.mp (ids hid)).resolve_left fun eq => new (eq ▸ hid)
    exact Or.inl (by simpa using (nodup.subperm old).length_le)

theorem getSemaphore_addSemaphore {sem₁ : String} (other : sem₁ ≠ sem) (maxPermits : ℕ) :
    (s.addSemaphore sem₁ maxPermits).getSemaphore sem = s.getSemaphore sem := by
  rw [Store.addSemaphore]
  split
  · rw [Store.getSemaphore, Table.get_append, if_neg other, Option.or_none]
    rfl
  · change Table.get Semaphore.semId sem (Table.modify Semaphore.semId sem₁
      (fun r => { r with maxPermits := maxPermits }) s.semaphores) = _
    rw [Table.get_modify (by exact fun _ h => h)]
    simp only [if_neg (Ne.symm other), Option.map_id']
    rfl

/-- The semaphores change under the licence, when the line may be served. -/
theorem Micro.semaphores (h : Micro c E s s') : s'.semaphores = s.semaphores ∨
    ∃ sem n, c.may (.slots sem n) ∧ c.may (.serve sem) ∧
      s'.semaphores = (s.addSemaphore sem n).semaphores := by
  cases h with
  | slots sem n may serves frame => exact Or.inr ⟨sem, n, may, serves, frame.semaphores⟩
  | frame frame | enroll _ _ _ _ frame | agent _ _ _ _ frame | orbit _ _ _ _ _ _ frame
  | insert _ _ _ _ _ _ _ _ frame | reject _ _ _ _ frame | summary _ _ _ frame | task _ _ _ frame
  | declare _ _ frame | publish _ _ _ frame | request _ frame | waiters _ frame | flags _ frame
  | arm _ _ _ _ _ _ _ _ frame | trip _ _ _ frame | stamp _ frame | archiveTasks _ _ _ _ frame
  | archiveOrbits _ _ _ frame => exact Or.inl frame.semaphores

/-- What a change makes of one semaphore. -/
theorem Micro.semaphore (h : Micro c E s s') (sem : String) :
    s'.getSemaphore sem = s.getSemaphore sem ∨ ∃ n, c.may (.slots sem n) ∧ c.may (.serve sem) ∧
      s'.getSemaphore sem = (s.addSemaphore sem n).getSemaphore sem := by
  have found {s₁ : Store} (eq : s'.semaphores = s₁.semaphores) :
      s'.getSemaphore sem = s₁.getSemaphore sem := congrArg (Table.get Semaphore.semId sem) eq
  rcases h.semaphores with same | ⟨sem₁, n, may, serves, eq⟩
  · exact Or.inl (found same)
  · by_cases other : sem₁ = sem
    · subst other
      exact Or.inr ⟨n, may, serves, found eq⟩
    · exact Or.inl ((found eq).trans (getSemaphore_addSemaphore other n))

/-- The number of slots stays without the licence, and when the line may not be served. -/
theorem Micro.getSemaphore (h : Micro c E s s')
    (no : ∀ n, c.may (.slots sem n) → ¬ c.may (.serve sem)) :
    s'.getSemaphore sem = s.getSemaphore sem :=
  (h.semaphore sem).resolve_right fun ⟨n, may, serves, _⟩ => no n may serves

theorem Micro.hasSlot (h : Micro c E s s') (ok : s.Ok) (no : ¬ c.may (.serve sem))
    (slot : s'.HasSlot sem) : s.HasSlot sem := by
  obtain ⟨row, found, free⟩ := slot
  exact ⟨row, (h.getSemaphore fun _ _ => no).symm.trans found,
    (h.activePermits ok no).trans_lt free⟩

/-! ## The line -/

/-- What a change makes of a waiter. -/
inductive WaiterStep (s : Store) (w w' : SemWaiter) : Prop
  | same (eq : w' = w)
  | gaveUp (h : w.GaveUp w')
  | granted (next : s.Next w) (permit : OrbitId)
      (eq : w' = { w with state := .GRANTED, permitId := some permit })

/-- A waiter that is new: it is alive, and found no slot or somebody in line. -/
structure NewWaiter (s : Store) (w : SemWaiter) : Prop where
  id : w.waiterId = s.uuid
  alive : s.Alive w.agentId
  state : w.state = .WAITING
  full : s.HasSlot w.semId → ∃ r ∈ s.semWaiters, r.semId = w.semId ∧ r.state = .WAITING

/-- The waiters after a change. -/
structure LineAfter (s s' : Store) : Prop where
  back : ∀ w' ∈ s'.semWaiters, (∃ w ∈ s.semWaiters, WaiterStep s w w') ∨ NewWaiter s w'
  forth : ∀ w ∈ s.semWaiters, ∃ w' ∈ s'.semWaiters, WaiterStep s w w'

theorem LineAfter.of_eq (h : s'.semWaiters = s.semWaiters) : LineAfter s s' where
  back w hw := Or.inl ⟨w, h ▸ hw, .same rfl⟩
  forth w hw := ⟨w, h.symm ▸ hw, .same rfl⟩

theorem LineAfter.granted (ok : s.Ok) {w : SemWaiter} (next : s.Next w) (permit : OrbitId)
    (rows : s'.semWaiters = s.granted w permit) : LineAfter s s' := by
  constructor
  · intro w' hw'
    rcases Table.mem_modify.mp (rows ▸ hw') with ⟨hw, -⟩ | ⟨r, hr, hid, rfl⟩
    · exact Or.inl ⟨w', hw, .same rfl⟩
    · cases ok.waiterIds.eq hr next.mem hid
      exact Or.inl ⟨w, hr, .granted next permit rfl⟩
  · intro r hr
    by_cases hid : r.waiterId = w.waiterId
    · refine ⟨{ r with state := .GRANTED, permitId := some permit }, ?_, ?_⟩
      · rw [rows]
        exact Table.mem_modify.mpr (Or.inr ⟨r, hr, hid, rfl⟩)
      · cases ok.waiterIds.eq hr next.mem hid
        exact .granted next permit rfl
    · exact ⟨r, rows ▸ Table.mem_modify.mpr (Or.inl ⟨hr, hid⟩), .same rfl⟩

theorem Micro.line (h : Micro c E s s') (ok : s.Ok) : LineAfter s s' := by
  cases h with
  | waiters change frame =>
      cases change with
      | update f step rows =>
          have row : ∀ w ∈ s.semWaiters, WaiterStep s w (f w) := fun w hw =>
            (step w hw).elim .same .gaveUp
          constructor
          · intro w' hw'
            rw [rows] at hw'
            obtain ⟨w, hw, rfl⟩ := List.mem_map.mp hw'
            exact Or.inl ⟨w, hw, row w hw⟩
          · exact fun w hw => ⟨f w, rows ▸ List.mem_map_of_mem hw, row w hw⟩
      | reuse w permit next rows => exact .granted ok next permit rows
      | add w id drawn alive state full rows =>
          constructor
          · intro w' hw'
            rw [rows] at hw'
            rcases List.mem_append.mp hw' with hw' | hw'
            · exact Or.inl ⟨w', hw', .same rfl⟩
            · cases List.mem_singleton.mp hw'
              exact Or.inr ⟨id, alive, state, full⟩
          · exact fun r hr => ⟨r, rows ▸ List.mem_append_left _ hr, .same rfl⟩
  | insert o news row introduced id drawn ticket line frame =>
      generalize hrows : s'.semWaiters = rows at line
      cases line with
      | stays => exact .of_eq hrows
      | served w kind key agent next => exact .granted ok next o.orbitId hrows
  | frame frame | enroll _ _ _ _ frame | agent _ _ _ _ frame | orbit _ _ _ _ _ _ frame
  | reject _ _ _ _ frame | summary _ _ _ frame | task _ _ _ frame | declare _ _ frame
  | publish _ _ _ frame | request _ frame | slots _ _ _ _ frame | flags _ frame
  | arm _ _ _ _ _ _ _ _ frame | trip _ _ _ frame
  | stamp _ frame | archiveTasks _ _ _ _ frame
  | archiveOrbits _ _ _ frame => exact .of_eq frame.semWaiters

/-- A waiter that waits after a change did before, or it is new. -/
theorem LineAfter.waiting (h : LineAfter s s') {w : SemWaiter} (hw : w ∈ s'.semWaiters)
    (waits : w.state = .WAITING) : w ∈ s.semWaiters ∨ NewWaiter s w := by
  rcases h.back w hw with ⟨w₀, hw₀, step⟩ | new
  · cases step with
    | same eq => exact Or.inl (eq ▸ hw₀)
    | gaveUp gaveUp => exact absurd waits gaveUp.idle.1
    | granted _ _ eq =>
        rw [eq] at waits
        cases waits
  · exact Or.inr new

/-! ## Who waits -/

/-- A change that may not serve a semaphore leaves its line served. -/
theorem Store.ServedAt.micro (h : s.ServedAt sem) (ok : s.Ok) (step : Micro c E s s')
    (no : ¬ c.may (.serve sem)) : s'.ServedAt sem := by
  intro w hw key waits slot
  have slot₀ := step.hasSlot ok no slot
  rcases (step.line ok).waiting hw waits with hw₀ | new
  · exact h w hw₀ key waits slot₀
  · obtain ⟨r, hr, hkey, hwaits⟩ := new.full (key.symm ▸ slot₀)
    exact h r hr (hkey.trans key) hwaits slot₀

theorem Store.ServedAt.micros (h : s.ServedAt sem) (ok : s.Ok) (run : Micros c E s s')
    (no : ¬ c.may (.serve sem)) : s'.ServedAt sem :=
  (Micros.invariant (I := fun s => s.ServedAt sem) (fun _ _ ok ih step => ih.micro ok step no)
    run ok h).2

/-- Nobody waits for a semaphore that has a free slot. -/
def Store.Served (s : Store) : Prop := ∀ sem, s.ServedAt sem

theorem Store.Served.move (h : s.Served) (ok : s.Ok) (move : Move c s s')
    (no : ∀ sem, ¬ c.may (.serve sem)) : s'.Served := by
  intro sem
  have group {sems : List String} {E : TaskId → Prop} (run : Micros (c.serving sems) E s s')
      (served : ∀ sem ∈ sems, s'.ServedAt sem) : s'.ServedAt sem := by
    by_cases hsem : sem ∈ sems
    · exact served sem hsem
    · exact (h sem).micros ok run hsem
  cases move with
  | micro step => exact (h sem).micro ok step (no sem)
  | takenOver t group => exact (h sem).micros ok group.run (no sem)
  | closed t group => exact (h sem).micros ok group.run (no sem)
  | cancelled task group => exact (h sem).micros ok group.run (no sem)
  | reclaimed agent reclaim =>
      obtain ⟨sems, run, served⟩ := reclaim.run
      exact group run served
  | handed sems handed => exact group handed.run handed.served

end Omd
