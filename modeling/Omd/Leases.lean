import Omd.Steps
import Omd.Collection

/-!
# Ephemeral flags and their leases

An ephemeral flag that is live and the lease that backs it are two rows, and different verbs
write them.  A flag is set with its lease and cleared with it; the sweep and the reclaim break
the flags of a lease in the transaction that ends it.  The verbs of leases know nothing of
flags, and cannot reach these rows: a lease is no orbit that can be released, and to renew it
raises, for its pathspec is empty.

So in a coordinator that is used for signals only, the two tables tell the same at every
commit, and a lease that ends otherwise than by a clear leaves its flag broken and nobody
waiting.
-/

namespace Omd

open Lib

variable {cfg : Cfg} {now : Time} {s s₁ s' : Store} {o : Orbit}

/-! ## The correspondence -/

/-- The flag is a signal that its owner keeps up. -/
def Flag.Signals (f : Flag) : Prop := f.flagType = .EPHEMERAL ∧ f.status = .LIVE

/-- The row is a lease that is held. -/
def Orbit.Leases (o : Orbit) : Prop := o.state = .HELD ∧ o.kind = .flag_ephemeral

/-- The lease is the one of the flag, for the same owner and the same key. -/
structure Orbit.Backs (o : Orbit) (f : Flag) : Prop where
  lease : f.leaseId = some o.orbitId
  owner : f.ownerAgent = some o.agentId
  key : o.resourceKey = some f.key

/-- What does not change of a row decides whether it backs a flag. -/
theorem Orbit.SameRow.backs {o' : Orbit} (h : o.SameRow o') (f : Flag) :
    o'.Backs f ↔ o.Backs f := by
  constructor
  · rintro ⟨lease, owner, key⟩
    exact ⟨h.orbitId ▸ lease, h.agentId ▸ owner, h.resourceKey ▸ key⟩
  · rintro ⟨lease, owner, key⟩
    exact ⟨h.orbitId.symm ▸ lease, h.agentId.symm ▸ owner, h.resourceKey.trans key⟩

/-- What a store of signals obeys: there is nothing but leases, every signal has its lease and
every lease that is held has its signal. -/
structure Store.Leased (s : Store) : Prop where
  kinds : ∀ o ∈ s.orbits, o.kind = .flag_ephemeral
  tasks : s.tasks = []
  barriers : s.barriers = []
  ids : Table.Distinct Orbit.orbitId s.orbits
  listeners : Table.Distinct FlagWaiter.waiterId s.flagWaiters
  keys : Table.Distinct Flag.key s.flags
  lease : ∀ f ∈ s.flags, f.Signals → ∃ o ∈ s.orbits, o.Leases ∧ o.Backs f
  flag : ∀ o ∈ s.orbits, o.Leases → ∃ f ∈ s.flags, f.Signals ∧ o.Backs f

theorem Store.Leased.empty : ({} : Store).Leased where
  kinds := by simp
  tasks := rfl
  barriers := rfl
  ids := List.nodup_nil
  listeners := List.nodup_nil
  keys := List.nodup_nil
  lease := by simp
  flag := by simp

/-- The tables that the correspondence is about are the same. -/
structure Store.SameSignals (s s' : Store) : Prop where
  orbits : s'.orbits = s.orbits := by rfl
  tasks : s'.tasks = s.tasks := by rfl
  barriers : s'.barriers = s.barriers := by rfl
  flags : s'.flags = s.flags := by rfl
  flagWaiters : s'.flagWaiters = s.flagWaiters := by rfl

theorem Store.SameSignals.trans (h : s.SameSignals s₁) (h' : s₁.SameSignals s') :
    s.SameSignals s' where
  orbits := h'.orbits.trans h.orbits
  tasks := h'.tasks.trans h.tasks
  barriers := h'.barriers.trans h.barriers
  flags := h'.flags.trans h.flags
  flagWaiters := h'.flagWaiters.trans h.flagWaiters

theorem Store.SameSignals.leased (h : s.SameSignals s') (leased : s.Leased) : s'.Leased where
  kinds := h.orbits ▸ leased.kinds
  tasks := h.tasks.trans leased.tasks
  barriers := h.barriers.trans leased.barriers
  ids := h.orbits ▸ leased.ids
  listeners := h.flagWaiters ▸ leased.listeners
  keys := h.flags ▸ leased.keys
  lease := by
    rw [h.flags, h.orbits]
    exact leased.lease
  flag := by
    rw [h.flags, h.orbits]
    exact leased.flag

/-- Two signals with one lease are one. -/
theorem Store.Leased.flag_eq (leased : s.Leased) {f f' : Flag} (hf : f ∈ s.flags)
    (hf' : f' ∈ s.flags) (key : f.key = f'.key) : f = f' :=
  leased.keys.eq hf hf' key

/-! ## Leases that end -/

/-- The flag is broken, and nobody waits for its key. -/
def Flag.BrokenIn (f : Flag) (s : Store) : Prop :=
  ∃ f' ∈ s.flags, f'.key = f.key ∧ f'.leaseId = f.leaseId ∧ f'.status = .BROKEN ∧
    ∀ w ∈ s.flagWaiters, w.key = f.key → w.state ≠ .WAITING

/-- Some flags are broken, and nobody starts to wait. -/
structure Store.Lapses (s s' : Store) : Prop where
  flags : ∀ f ∈ s.flags, f ∈ s'.flags ∨ f.BrokenIn s'
  waiters : ∀ w ∈ s'.flagWaiters, w.state = .WAITING → w ∈ s.flagWaiters

theorem Store.Lapses.refl (s : Store) : s.Lapses s := ⟨fun _ => Or.inl, fun _ hw _ => hw⟩

theorem Store.Lapses.trans (h : s.Lapses s₁) (h' : s₁.Lapses s') : s.Lapses s' where
  flags := by
    intro f hf
    rcases h.flags f hf with hf | ⟨f₁, hf₁, key, lease, broken, unheard⟩
    · exact h'.flags f hf
    refine Or.inr ?_
    rcases h'.flags f₁ hf₁ with hf₁ | ⟨f₂, hf₂, key₂, lease₂, broken₂, unheard₂⟩
    · exact ⟨f₁, hf₁, key, lease, broken, fun w hw same waits =>
        unheard w (h'.waiters w hw waits) same waits⟩
    · exact ⟨f₂, hf₂, key₂.trans key, lease₂.trans lease, broken₂, key ▸ unheard₂⟩
  waiters := fun w hw waits => h.waiters w (h'.waiters w hw waits) waits

theorem Store.SameSignals.lapses (h : s.SameSignals s') : s.Lapses s' where
  flags := fun _ hf => Or.inl (h.flags ▸ hf)
  waiters := fun _ hw _ => h.flagWaiters ▸ hw

/-- The effect of a section that may end leases. -/
def Store.Sinks (s s' : Store) : Prop := s.Leased → s'.Leased ∧ s.Lapses s'

theorem Store.Sinks.refl (s : Store) : s.Sinks s := fun leased => ⟨leased, .refl s⟩

theorem Store.Sinks.trans (h : s.Sinks s₁) (h' : s₁.Sinks s') : s.Sinks s' := fun leased =>
  have first := h leased
  have second := h' first.1
  ⟨second.1, first.2.trans second.2⟩

theorem Store.SameSignals.sinks (h : s.SameSignals s') : s.Sinks s' :=
  fun leased => ⟨h.leased leased, h.lapses⟩

/-- A lease that is held backs the flags that are broken with it, and there is one. -/
theorem Store.Leased.ephemeralFlags (leased : s.Leased) {f : Flag} (hf : f ∈ s.flags)
    (signals : f.Signals) (backs : o.Backs f) (ho : o ∈ s.orbits) :
    s.ephemeralFlagsForLease o.orbitId = [f] := by
  have distinct : (s.ephemeralFlagsForLease o.orbitId).Nodup :=
    (List.Nodup.of_map _ leased.keys).filter _
  have mem : f ∈ s.ephemeralFlagsForLease o.orbitId := by
    simp [Store.ephemeralFlagsForLease, hf, signals.1, signals.2, backs.lease]
  have only : ∀ f' ∈ s.ephemeralFlagsForLease o.orbitId, f' = f := by
    intro f' hf'
    simp only [Store.ephemeralFlagsForLease, List.mem_filter, Bool.and_eq_true,
      decide_eq_true_eq] at hf'
    obtain ⟨hf', ⟨type, lease⟩, live⟩ := hf'
    obtain ⟨o', ho', -, backs'⟩ := leased.lease f' hf' ⟨type, live⟩
    have same : o' = o :=
      leased.ids.eq ho' ho (Option.some.inj (backs'.lease.symm.trans lease))
    subst same
    exact leased.flag_eq hf' hf (Option.some.inj (backs'.key.symm.trans backs.key))
  refine List.perm_singleton.mp ?_
  refine (List.perm_ext_iff_of_nodup distinct (List.nodup_singleton f)).mpr fun f' => ?_
  rw [List.mem_singleton]
  exact ⟨only f', fun same => same ▸ mem⟩

/-- A wake leaves the identifiers of the waiters. -/
theorem distinct_wake (distinct : Table.Distinct FlagWaiter.waiterId s.flagWaiters) (key : String) :
    Table.Distinct FlagWaiter.waiterId (wakeFlagWaiters s key).flagWaiters := by
  rw [wakeFlagWaiters_rows distinct]
  refine distinct.map fun w => ?_
  unfold FlagWaiter.heed
  split_ifs <;> rfl

/-- Who waits after a wake waited before it. -/
theorem waiting_of_wake (distinct : Table.Distinct FlagWaiter.waiterId s.flagWaiters)
    (key : String) :
    ∀ w ∈ (wakeFlagWaiters s key).flagWaiters, w.state = .WAITING → w ∈ s.flagWaiters := by
  intro w hw waits
  rw [wakeFlagWaiters_rows distinct] at hw
  obtain ⟨w₀, hw₀, rfl⟩ := List.mem_map.mp hw
  split_ifs at waits ⊢ with found
  · rw [(FlagWaiter.heed_waiting waits).1]
    exact hw₀
  · exact hw₀

/-- Nobody waits for a flag that is broken and whose waiters were woken. -/
theorem unheard_of_wake {f : Flag} {key : String}
    (distinct : Table.Distinct FlagWaiter.waiterId s.flagWaiters) (row : s.getFlag key = some f)
    (broken : f.status = .BROKEN) :
    ∀ w ∈ (wakeFlagWaiters s key).flagWaiters, w.key = key → w.state ≠ .WAITING := by
  intro w hw same waits
  rw [wakeFlagWaiters_rows distinct, row] at hw
  obtain ⟨w₀, hw₀, rfl⟩ := List.mem_map.mp hw
  split_ifs at same waits with found
  · have ready := (FlagWaiter.heed_waiting waits).2
    simp [flagReady, flagBroken, broken] at ready
  · simp [same, waits] at found

/-- The flag, broken. -/
def Flag.breaks (f r : Flag) : Flag := { r with status := .BROKEN, epoch := f.epoch + 1 }

/-- A lease ends together with its signal. -/
theorem Store.Leased.unback (leased : s.Leased) {f : Flag} {g : Orbit → Orbit} {h : Flag → Flag}
    (ho : o ∈ s.orbits) (hf : f ∈ s.flags) (backs : o.Backs f)
    (ends : ∀ r, (g r).orbitId = r.orbitId ∧ (g r).kind = r.kind ∧ (g r).state ≠ .HELD)
    (silent : ∀ r, (h r).key = r.key ∧ (h r).status ≠ .LIVE)
    (orbits : s'.orbits = Table.modify Orbit.orbitId o.orbitId g s.orbits)
    (flags : s'.flags = Table.modify Flag.key f.key h s.flags) (tasks : s'.tasks = s.tasks)
    (barriers : s'.barriers = s.barriers)
    (listeners : Table.Distinct FlagWaiter.waiterId s'.flagWaiters) : s'.Leased := by
  refine ⟨fun o' ho' => ?_, tasks.trans leased.tasks, barriers.trans leased.barriers, ?_, listeners,
    ?_, fun f' hf' live => ?_, fun o' ho' held => ?_⟩
  · rw [orbits] at ho'
    rcases Table.mem_modify.mp ho' with ⟨ho', -⟩ | ⟨r, hr, -, rfl⟩
    · exact leased.kinds o' ho'
    · exact (ends r).2.1.trans (leased.kinds r hr)
  · rw [orbits]
    exact leased.ids.modify fun r _ hid => (ends r).1.trans hid
  · rw [flags]
    exact leased.keys.modify fun r _ key => (silent r).1.trans key
  · -- a signal that is left has another lease
    rw [flags] at hf'
    rcases Table.mem_modify.mp hf' with ⟨hf', ne⟩ | ⟨r, -, -, rfl⟩
    · obtain ⟨o', ho', leases', backs'⟩ := leased.lease f' hf' live
      rw [orbits]
      refine ⟨o', Table.mem_modify.mpr (Or.inl ⟨ho', fun same => ne ?_⟩), leases', backs'⟩
      have same : o' = o := leased.ids.eq ho' ho same
      rw [same] at backs'
      exact Option.some.inj (backs'.key.symm.trans backs.key)
    · exact absurd live.2 (silent r).2
  · -- a lease that is left has another signal
    rw [orbits] at ho'
    rcases Table.mem_modify.mp ho' with ⟨ho', ne⟩ | ⟨r, -, -, rfl⟩
    · obtain ⟨f', hf', live, backs'⟩ := leased.flag o' ho' held
      rw [flags]
      refine ⟨f', Table.mem_modify.mpr (Or.inl ⟨hf', fun same => ne ?_⟩), live, backs'⟩
      have same : f' = f := leased.flag_eq hf' hf same
      rw [same] at backs'
      exact Option.some.inj (backs'.lease.symm.trans backs.lease)
    · exact absurd held.1 (ends r).2.2

/-- The end of a lease with the flags it backs. -/
theorem Store.Leased.expire (leased : s.Leased) {g : Orbit → Orbit} (ho : o ∈ s.orbits)
    (leases : o.Leases)
    (ends : ∀ r, (g r).orbitId = r.orbitId ∧ (g r).kind = r.kind ∧ (g r).state ≠ .HELD) :
    ((breakEphemeralFlagsForLease s o.orbitId).setOrbit o.orbitId g).Leased ∧
      s.Lapses ((breakEphemeralFlagsForLease s o.orbitId).setOrbit o.orbitId g) := by
  obtain ⟨f, hf, signals, backs⟩ := leased.flag o ho leases
  have hbreak : breakEphemeralFlagsForLease s o.orbitId =
      wakeFlagWaiters (s.modifyFlag f.key f.breaks) f.key := by
    rw [breakEphemeralFlagsForLease, leased.ephemeralFlags hf signals backs ho]
    rfl
  have row : (s.modifyFlag f.key f.breaks).getFlag f.key = some (f.breaks f) := by
    refine (getFlag_modifyFlag s f.key (f := f.breaks) (fun _ key => key) f.key).trans ?_
    rw [Store.getFlag, leased.keys.get_of_mem hf, Option.map_some, if_pos rfl]
  have rest : wakeFlagWaiters (s.modifyFlag f.key f.breaks) f.key =
      { s with
        flags := Table.modify Flag.key f.key f.breaks s.flags
        flagWaiters := (wakeFlagWaiters (s.modifyFlag f.key f.breaks) f.key).flagWaiters } := by
    rw [wakeFlagWaiters_eq]
    rfl
  have distinct : Table.Distinct FlagWaiter.waiterId
      (s.modifyFlag f.key f.breaks).flagWaiters := leased.listeners
  rw [hbreak, rest]
  refine ⟨?_, fun f' hf' => ?_, waiting_of_wake distinct f.key⟩
  · exact leased.unback ho hf backs ends (h := f.breaks) (fun _ => ⟨rfl, by simp [Flag.breaks]⟩)
      rfl rfl rfl rfl (distinct_wake distinct f.key)
  by_cases same : f'.key = f.key
  · have same : f' = f := leased.flag_eq hf' hf same
    subst same
    have mem : f'.breaks f' ∈ Table.modify Flag.key f'.key f'.breaks s.flags :=
      Table.mem_modify.mpr (Or.inr ⟨f', hf', rfl, rfl⟩)
    exact Or.inr ⟨f'.breaks f', mem, rfl, rfl, rfl, unheard_of_wake distinct row rfl⟩
  · exact Or.inl (Table.mem_modify.mpr (Or.inl ⟨hf', same⟩))

/-- One round of a loop over leases: the flags of the lease are broken, and it ends. -/
def EndsLease (s : Store) (o : Orbit) (s' : Store) : Prop :=
  ∃ g : Orbit → Orbit,
    (∀ r, (g r).orbitId = r.orbitId ∧ (g r).kind = r.kind ∧ (g r).state ≠ .HELD) ∧
      s' = (breakEphemeralFlagsForLease s o.orbitId).setOrbit o.orbitId g

/-- A loop over leases that are held. -/
theorem sinks_foldlM {step : Store → Orbit → Except Fault Store}
    (ends : ∀ (s : Store) (o : Orbit) (s' : Store), step s o = .ok s' → EndsLease s o s')
    {xs : List Orbit}
    (distinct : Table.Distinct Orbit.orbitId xs) (held : ∀ o ∈ xs, o ∈ s.orbits ∧ o.Leases)
    (h : xs.foldlM step s = .ok s') : s.Sinks s' := by
  induction xs generalizing s with
  | nil =>
      cases h
      exact .refl _
  | cons o xs ih =>
      rw [List.foldlM_cons, Outcome.bind_eq_ok] at h
      obtain ⟨s₁, h₁, h⟩ := h
      obtain ⟨g, hg, rfl⟩ := ends s o s₁ h₁
      obtain ⟨new, distinct⟩ := List.nodup_cons.mp distinct
      obtain ⟨ho, leases⟩ := held o List.mem_cons_self
      refine Store.Sinks.trans (fun leased => leased.expire ho leases hg) (ih distinct ?_ h)
      intro o' ho'
      obtain ⟨mem, leases'⟩ := held o' (List.mem_cons_of_mem _ ho')
      have orbits : (breakEphemeralFlagsForLease s o.orbitId).orbits = s.orbits :=
        (frame_breakEphemeralFlagsForLease s o.orbitId).orbits
      refine ⟨Table.mem_modify.mpr (Or.inl ⟨orbits ▸ mem, fun same => new ?_⟩), leases'⟩
      exact same ▸ List.mem_map_of_mem ho'

theorem reclaimFlagLease_ends (h : reclaimFlagLease now s o = .ok s') : EndsLease s o s' := by
  cases h
  exact ⟨fun r => { r with state := .EXPIRED, releasedAt := some now },
    fun _ => ⟨rfl, rfl, by simp⟩, rfl⟩

theorem sweepFlagLease_ends (h : sweepFlagLease s o = .ok s') : EndsLease s o s' := by
  cases h
  exact ⟨fun r => { r with state := .EXPIRED }, fun _ => ⟨rfl, rfl, by simp⟩, rfl⟩

/-! ## The sections that end leases -/

/-- There is no row of another kind. -/
theorem Store.Leased.filter_eq_nil (leased : s.Leased) {p : Orbit → Bool}
    (other : ∀ o, p o = true → o.kind ≠ .flag_ephemeral) : s.orbits.filter p = [] := by
  refine List.filter_eq_nil_iff.mpr fun o ho hp => ?_
  exact other o hp (leased.kinds o ho)

theorem Store.Leased.heldOfKind (leased : s.Leased) {kind : OrbitKind}
    (other : kind ≠ .flag_ephemeral) : s.heldOfKind kind = [] := by
  refine leased.filter_eq_nil fun o hp => ?_
  rw [Bool.and_eq_true, decide_eq_true_eq] at hp
  rw [hp.1]
  exact other

theorem Store.Leased.pendingOrbits (leased : s.Leased) : s.pendingOrbits = [] := by
  rw [Store.pendingOrbits, leased.filter_eq_nil fun o hp => ?_]
  · rfl
  · rw [(isPending_iff.mp hp).2]
    decide

theorem expireDue_sinks (h : expireDue now s = .ok s') : s.Sinks s' := by
  intro leased
  have due : s.dueOrbits now = [] := by
    refine leased.filter_eq_nil fun o hp => ?_
    rw [(isDue_iff.mp hp).1]
    decide
  rw [expireDue, due] at h
  cases h
  exact Store.Sinks.refl s leased

/-- Nothing is queued, so that nothing is settled. -/
theorem settle_sinks (h : settle cfg now s = .ok s') : s.Sinks s' := by
  intro leased
  have pending := leased.pendingOrbits
  have due : s.duePendingOrbits now = [] := by
    rw [Store.duePendingOrbits, leased.filter_eq_nil fun o hp => ?_]
    · rfl
    · rw [Bool.and_eq_true] at hp
      rw [(isPending_iff.mp hp.1).2]
      decide
  have timeout : timeoutPending now s = .ok s := by
    rw [timeoutPending, due]
    rfl
  have deny : denyReservationCycles cfg now s = .ok s := by
    rw [denyReservationCycles, denyCyclesLoop, waitFor, pending]
    rfl
  have promote : promotePending cfg now s = .ok s := by
    rw [promotePending, orderedPending, pending]
    rfl
  rw [settle, Outcome.bind_eq_ok] at h
  obtain ⟨s₁, h₁, h⟩ := h
  cases timeout.symm.trans h₁
  rw [Outcome.bind_eq_ok] at h
  obtain ⟨s₂, h₂, h⟩ := h
  cases deny.symm.trans h₂
  cases promote.symm.trans h
  exact Store.Sinks.refl s leased

theorem reclaimSideLeases_sinks {agent : AgentId} (h : reclaimSideLeases now agent s = .ok s') :
    s.Sinks s' := by
  intro leased
  rw [reclaimSideLeases, Store.heldOfKindBy, leased.heldOfKind (by decide)] at h
  rw [Outcome.bind_eq_ok] at h
  obtain ⟨s₁, h₁, h⟩ := h
  cases h₁
  rw [Outcome.bind_eq_ok] at h
  obtain ⟨s₂, h₂, h⟩ := h
  have sinks : s.Sinks s₂ := by
    refine sinks_foldlM (fun _ _ _ => reclaimFlagLease_ends) ?_ (fun o ho => ?_) h₂
    · exact (leased.ids.filter _).filter _
    · obtain ⟨ho, -⟩ := List.mem_filter.mp ho
      rw [Store.heldOfKind, List.mem_filter, Bool.and_eq_true, decide_eq_true_eq,
        decide_eq_true_eq] at ho
      exact ⟨ho.1, ho.2.2, ho.2.1⟩
  obtain ⟨leased₂, lapses⟩ := sinks leased
  rw [Store.heldOfKindBy, leased₂.heldOfKind (by decide), Outcome.bind_eq_ok] at h
  obtain ⟨s₃, h₃, h⟩ := h
  cases h₃
  cases h
  have same : s₂.SameSignals (s₂.cancelSemWaiters agent) := {}
  exact ⟨same.leased leased₂, lapses.trans same.lapses⟩

theorem enqueueOutbox_same {row : OutboxRow} (h : s.enqueueOutbox row = .ok s') :
    s.SameSignals s' := by
  rw [Store.enqueueOutbox] at h
  split at h
  · cases h
  · cases h
    exact {}

theorem reclaimTasks_sinks {agent : AgentId} (h : reclaimTasks cfg now agent s = .ok s') :
    s.Sinks s' := by
  intro leased
  have none : s.tasksForAgent agent = [] := by
    rw [Store.tasksForAgent, leased.tasks]
    rfl
  rw [reclaimTasks, none] at h
  cases h
  exact Store.Sinks.refl s leased

/-- The reclaim of an agent ends the leases it holds, and no row of another kind. -/
theorem reclaimAgentCore_sinks {voluntary : Bool} {agent : AgentId} {r : Reclaimed}
    (h : reclaimAgentCore cfg now voluntary s agent = .ok (s', r)) : s.Sinks s' := by
  rw [reclaimAgentCore] at h
  split at h
  · cases h
    exact .refl s
  split at h
  · cases h
    exact .refl s
  rw [Outcome.bind_eq_ok] at h
  obtain ⟨s₁, h₁, h⟩ := h
  rw [Outcome.bind_eq_ok] at h
  obtain ⟨s₂, h₂, h⟩ := h
  rw [Outcome.bind_eq_ok] at h
  obtain ⟨s₃, h₃, h⟩ := h
  rw [Outcome.bind_eq_ok] at h
  obtain ⟨s₄, h₄, h⟩ := h
  cases h
  intro leased
  have started : s.Sinks s₁ := by
    refine Store.Sinks.trans (Store.SameSignals.sinks ?_) (reclaimSideLeases_sinks h₁)
    exact {}
  have own : s₁.Sinks s₂ := by
    intro leased₁
    rw [show s₁.orbitsOwnedByAgent agent = [] from leased₁.filter_eq_nil fun o hp => ?_] at h₂
    · cases h₂
      exact Store.Sinks.refl _ leased₁
    · simp only [Bool.and_eq_true, decide_eq_true_eq] at hp
      rw [hp.1.2]
      decide
  have ended : s₃.SameSignals (s₃.setAgentState agent .RETIRED) := {}
  have sems : ((((s.setAgentState agent (if voluntary then .BAILING else .ZOMBIE)).bumpBailEpoch
      agent).heldOfKindBy .sem_permit agent).filterMap Orbit.resourceKey).dedup = [] := by
    rw [Store.heldOfKindBy,
      Store.Leased.heldOfKind (s := (s.setAgentState agent _).bumpBailEpoch agent)]
    · rfl
    · exact Store.SameSignals.leased {} leased
    · decide
  have run := (started.trans own).trans ((reclaimTasks_sinks h₃).trans
    (ended.sinks.trans (enqueueOutbox_same h₄).sinks))
  rw [sems]
  exact run leased

/-! ## The sweep -/

theorem reclaimZombie_sinks {a : Agent} (h : reclaimZombie cfg now s a = .ok s') : s.Sinks s' := by
  rw [reclaimZombie] at h
  split at h
  · cases h
    exact .refl s
  · rw [Outcome.bind_eq_ok] at h
    obtain ⟨⟨s₁, r⟩, h₁, h⟩ := h
    cases h
    exact reclaimAgentCore_sinks h₁

theorem reclaimZombies_sinks (h : reclaimZombies cfg now s = .ok s') : s.Sinks s' := by
  rw [reclaimZombies] at h
  split at h
  · cases h
    exact .refl s
  · exact Outcome.foldlM_induction (P := s.Sinks) (.refl s)
      (fun a _ _ _ before h => before.trans (reclaimZombie_sinks h)) h

theorem reconcileAdmission_sinks (h : reconcileAdmission cfg now s = .ok s') : s.Sinks s' := by
  rw [reconcileAdmission, Outcome.bind_eq_ok] at h
  obtain ⟨s₁, h₁, h⟩ := h
  rw [Outcome.bind_eq_ok] at h
  obtain ⟨s₂, h₂, h⟩ := h
  exact (expireDue_sinks h₁).trans ((reclaimZombies_sinks h₂).trans (settle_sinks h))

theorem reclaimAgent_sinks {voluntary : Bool} {agent : AgentId} {r : Reclaimed}
    (h : reclaimAgent cfg now voluntary s agent = .ok (s', r)) : s.Sinks s' := by
  rw [reclaimAgent] at h
  split at h
  · cases h
    exact .refl s
  split at h
  · cases h
    exact .refl s
  rw [Outcome.bind_eq_ok] at h
  obtain ⟨⟨s₁, r₁⟩, h₁, h⟩ := h
  rw [Outcome.bind_eq_ok] at h
  obtain ⟨s₂, h₂, h⟩ := h
  rw [Outcome.bind_eq_ok] at h
  obtain ⟨s₃, h₃, h⟩ := h
  cases h
  exact (reclaimAgentCore_sinks h₁).trans ((expireDue_sinks h₂).trans (settle_sinks h₃))

/-- The collector takes no lease that is held. -/
theorem gcTerminal_sinks (now : Time) (retention : ℚ) : s.Sinks (s.gcTerminal now retention) := by
  intro leased
  have held (o : Orbit) (leases : (o.collected now).Leases) : o.Leases := by
    have kind := (o.collected_sameRow now).kind
    have state : (o.collected now).state = o.state := Orbit.collected_state
    exact ⟨state ▸ leases.1, kind ▸ leases.2⟩
  refine ⟨⟨fun o ho => ?_, ?_, leased.barriers, ?_, leased.listeners, leased.keys,
    fun f hf signals => ?_, fun o ho leases => ?_⟩, fun f hf => Or.inl hf, fun w hw _ => hw⟩
  · obtain ⟨o₀, ho₀, -, rfl⟩ := mem_gcTerminal_orbits.mp ho
    exact (o₀.collected_sameRow now).kind.trans (leased.kinds o₀ ho₀)
  · rw [gcTerminal_tasks, leased.tasks]
    rfl
  · rw [gcTerminal_orbits]
    exact (leased.ids.filter _).map fun o => (o.collected_sameRow now).orbitId
  · obtain ⟨o, ho, leases, backs⟩ := leased.lease f hf signals
    have stays : s.archivesOrbit now retention o = false := by
      refine Bool.eq_false_iff.mpr fun archived => ?_
      have ended := archivesOrbit_terminal archived
      rw [leases.1] at ended
      cases ended
    have row := o.collected_sameRow now
    exact ⟨o.collected now, mem_gcTerminal_orbits.mpr ⟨o, ho, stays, rfl⟩,
      ⟨Orbit.collected_state.trans leases.1, row.kind.trans leases.2⟩, (row.backs f).mpr backs⟩
  · obtain ⟨o₀, ho₀, -, rfl⟩ := mem_gcTerminal_orbits.mp ho
    obtain ⟨f, hf, signals, backs⟩ := leased.flag o₀ ho₀ (held o₀ leases)
    exact ⟨f, hf, signals, ((o₀.collected_sameRow now).backs f).mpr backs⟩

theorem sweepSide_sinks (h : sweepSide cfg now s = .ok s') : s.Sinks s' := by
  rw [sweepSide, Outcome.bind_eq_ok] at h
  obtain ⟨s₁, h₁, h⟩ := h
  rw [Outcome.bind_eq_ok] at h
  obtain ⟨s₂, h₂, h⟩ := h
  rw [Outcome.bind_eq_ok] at h
  obtain ⟨s₃, h₃, h⟩ := h
  cases h
  have leases : s.Sinks s₁ := by
    intro leased
    refine sinks_foldlM (fun _ _ _ => sweepFlagLease_ends) ?_ (fun o ho => ?_) h₁ leased
    · exact (leased.ids.filter _).filter _
    · obtain ⟨ho, -⟩ := List.mem_filter.mp ho
      rw [Store.heldOfKind, List.mem_filter, Bool.and_eq_true, decide_eq_true_eq,
        decide_eq_true_eq] at ho
      exact ⟨ho.1, ho.2.2, ho.2.1⟩
  have permits : s₁.Sinks s₂ := by
    intro leased₁
    have none : s₁.dueOfKind .sem_permit now = [] := by
      rw [Store.dueOfKind, leased₁.heldOfKind (by decide)]
      rfl
    rw [sweepPermits, none] at h₂
    cases h₂
    exact Store.Sinks.refl _ leased₁
  have barriers : s₂.Sinks s₃ := by
    intro leased₂
    rw [leased₂.barriers] at h₃
    cases h₃
    exact Store.Sinks.refl _ leased₂
  refine (leases.trans permits).trans (barriers.trans ?_)
  have idem (ttl : ℚ) : s₃.SameSignals (s₃.gcIdem (now - ttl)) := {}
  cases cfg.idemTtl <;> cases cfg.terminalRetention
  · exact .refl _
  · exact gcTerminal_sinks now _
  · exact (idem _).sinks
  · exact (idem _).sinks.trans (gcTerminal_sinks now _)

theorem sweepInline_sinks (h : sweepInline cfg now s = .ok s') : s.Sinks s' := by
  rw [sweepInline, Outcome.bind_eq_ok] at h
  obtain ⟨s₁, h₁, h⟩ := h
  exact (reconcileAdmission_sinks h₁).trans (sweepSide_sinks h)

theorem Apart.same (h : Apart s s') : s.SameSignals s' := by
  rw [Apart] at h
  rw [h]
  exact {}

/-- A recovery finds no task and no barrier: it reconciles. -/
theorem recover_sinks {env : Env} (h : recover cfg env s = .ok s') : s.Sinks s' := by
  intro leased
  have noTasks {s : Store} (leased : s.Leased) (states : List TaskState) :
      s.tasksByState states = [] := by
    rw [Store.tasksByState, leased.tasks]
    rfl
  rw [recover, noTasks leased, Outcome.bind_eq_ok] at h
  obtain ⟨r, h₁, h⟩ := h
  cases h₁
  dsimp only at h
  rw [leased.heldOfKind (by decide), Outcome.bind_eq_ok] at h
  obtain ⟨s₁, h₁, h⟩ := h
  cases h₁
  have barriers : barrierRecover env.git s = .ok s := by
    rw [barrierRecover, leased.barriers]
    rfl
  rw [if_neg Bool.false_ne_true, Outcome.bind_eq_ok] at h
  obtain ⟨s₂, h₂, h⟩ := h
  cases barriers.symm.trans h₂
  rw [noTasks leased, Outcome.bind_eq_ok] at h
  obtain ⟨s₃, h₃, h⟩ := h
  cases h₃
  rw [Outcome.bind_eq_ok] at h
  obtain ⟨s₄, h₄, h⟩ := h
  have requests : Requested ⟨cfg, env.now, fun _ => True⟩ s₄ s' :=
    recoverSplitIdempotency_requested rfl (fun _ => trivial) (fun _ _ _ _ => trivial) h
  exact (reconcileAdmission_sinks h₄).trans requests.apart.same.sinks leased

/-! ## The sections that end no lease -/

/-- The effect of a section that ends no lease: who had a signal has it. -/
def Store.Upholds (s s' : Store) : Prop :=
  s.Leased → s'.Leased ∧
    ∀ f ∈ s.flags, f.Signals → ∃ f' ∈ s'.flags, f'.Signals ∧ f'.leaseId = f.leaseId

theorem Store.Upholds.trans (h : s.Upholds s₁) (h' : s₁.Upholds s') : s.Upholds s' := by
  intro leased
  obtain ⟨leased₁, first⟩ := h leased
  obtain ⟨leased', second⟩ := h' leased₁
  refine ⟨leased', fun f hf signals => ?_⟩
  obtain ⟨f₁, hf₁, signals₁, lease₁⟩ := first f hf signals
  obtain ⟨f₂, hf₂, signals₂, lease₂⟩ := second f₁ hf₁ signals₁
  exact ⟨f₂, hf₂, signals₂, lease₂.trans lease₁⟩

theorem Store.SameSignals.upholds (h : s.SameSignals s') : s.Upholds s' :=
  fun leased => ⟨h.leased leased, fun f hf signals => ⟨f, h.flags ▸ hf, signals, rfl⟩⟩

theorem Store.Upholds.refl (s : Store) : s.Upholds s := Store.SameSignals.upholds {}

/-- A row stays the lease it is. -/
def Orbit.SameLease (o o' : Orbit) : Prop := o.SameRow o' ∧ o'.state = o.state

theorem Orbit.SameLease.leases {o' : Orbit} (h : o.SameLease o') : o'.Leases ↔ o.Leases := by
  rw [Orbit.Leases, Orbit.Leases, h.1.kind, h.2]

section Rewrite

variable {id : OrbitId} {g : Orbit → Orbit}
  (keeps : ∀ r ∈ s.orbits, r.orbitId = id → r.SameLease (g r))

include keeps

theorem setOrbit_back {o : Orbit} (ho : o ∈ (s.setOrbit id g).orbits) :
    ∃ r ∈ s.orbits, r.SameLease o := by
  rcases Table.mem_modify.mp ho with ⟨ho, -⟩ | ⟨r, hr, hid, rfl⟩
  · exact ⟨o, ho, .refl o, rfl⟩
  · exact ⟨r, hr, keeps r hr hid⟩

theorem setOrbit_forth {r : Orbit} (hr : r ∈ s.orbits) :
    ∃ o ∈ (s.setOrbit id g).orbits, r.SameLease o := by
  by_cases hid : r.orbitId = id
  · exact ⟨g r, Table.mem_modify.mpr (Or.inr ⟨r, hr, hid, rfl⟩), keeps r hr hid⟩
  · exact ⟨r, Table.mem_modify.mpr (Or.inl ⟨hr, hid⟩), .refl r, rfl⟩

theorem setOrbit_ids (ids : Table.Distinct Orbit.orbitId s.orbits) :
    Table.Distinct Orbit.orbitId (s.setOrbit id g).orbits :=
  ids.modify fun r hr hid => (keeps r hr hid).1.orbitId.trans hid

theorem setOrbit_kinds (kinds : ∀ o ∈ s.orbits, o.kind = .flag_ephemeral) :
    ∀ o ∈ (s.setOrbit id g).orbits, o.kind = .flag_ephemeral := by
  intro o ho
  obtain ⟨r, hr, same⟩ := setOrbit_back keeps ho
  exact same.1.kind.trans (kinds r hr)

/-- A row is rewritten, and stays the lease it is. -/
theorem setOrbit_upholds : s.Upholds (s.setOrbit id g) := by
  intro leased
  refine ⟨⟨setOrbit_kinds keeps leased.kinds, leased.tasks, leased.barriers,
    setOrbit_ids keeps leased.ids, leased.listeners, leased.keys,
    fun f hf signals => ?_, fun o ho leases => ?_⟩, fun f hf signals => ⟨f, hf, signals, rfl⟩⟩
  · obtain ⟨r, hr, leases, backs⟩ := leased.lease f hf signals
    obtain ⟨o, ho, same⟩ := setOrbit_forth keeps hr
    exact ⟨o, ho, same.leases.mpr leases, (same.1.backs f).mpr backs⟩
  · obtain ⟨r, hr, same⟩ := setOrbit_back keeps ho
    obtain ⟨f, hf, signals, backs⟩ := leased.flag r hr (same.leases.mp leases)
    exact ⟨f, hf, signals, (same.1.backs f).mpr backs⟩

end Rewrite

theorem upsertAgent_same (s : Store) (agent : AgentId) (now : Time) :
    s.SameSignals (s.upsertAgent agent now) := by
  rw [Store.upsertAgent]
  split <;> exact {}

theorem heartbeatLease_upholds : s.Upholds (heartbeatLease cfg now s o) := by
  rw [heartbeatLease]
  split
  · exact .refl s
  · exact setOrbit_upholds fun r _ _ => ⟨rfl, rfl⟩

theorem heartbeatLeases_upholds (xs : List Orbit) :
    s.Upholds (xs.foldl (heartbeatLease cfg now) s) := by
  induction xs generalizing s with
  | nil => exact .refl s
  | cons o xs ih => exact heartbeatLease_upholds.trans ih

theorem heartbeat_upholds (agent : AgentId) (ttl : Option ℚ) :
    s.Upholds (heartbeat cfg now s agent ttl).1 := by
  rw [heartbeat]
  split
  · exact .refl s
  split
  · exact .refl s
  · dsimp only
    have alive := (upsertAgent_same s agent now).upholds
    refine alive.trans (Store.Upholds.trans ?_ ((heartbeatLeases_upholds _).trans
      (heartbeatLeases_upholds _)))
    split
    · exact .refl _
    · exact Store.SameSignals.upholds {}

/-- The wrapper of a request writes requests only. -/
theorem withIdem_same {requestId : Option RequestId} {agent : Option AgentId} {args : IdemArgs}
    {body : Store → Except Fault (Store × Result)} {r : Result} (ok : s.Ok)
    (h : withIdem now s requestId agent args body = .ok (s', r)) :
    s' = s ∨ ∃ s₁ s₂, s.SameSignals s₁ ∧ s₁.Ok ∧ body s₁ = .ok (s₂, r) ∧ s₂.SameSignals s' := by
  rcases withIdem_cases ok h with ⟨-, -, -, same⟩ | ⟨s₁, s₂, apart, ok₁, body, rest⟩
  · exact Or.inl same
  · exact Or.inr ⟨s₁, s₂, apart.same, ok₁, body, Apart.same rest⟩

theorem withIdem_upholds {requestId : Option RequestId} {agent : Option AgentId} {args : IdemArgs}
    {body : Store → Except Fault (Store × Result)} {r : Result}
    (upholds : ∀ s₁ s₂ r, s₁.Ok → body s₁ = .ok (s₂, r) → s₁.Upholds s₂) (ok : s.Ok)
    (h : withIdem now s requestId agent args body = .ok (s', r)) : s.Upholds s' := by
  rcases withIdem_same ok h with rfl | ⟨s₁, s₂, enter, ok₁, body, exit⟩
  · exact .refl _
  · exact enter.upholds.trans ((upholds s₁ s₂ r ok₁ body).trans exit.upholds)

/-- A renewal moves the deadline of an orbit; that of a lease raises. -/
theorem renew_upholds {orbit : OrbitId} {agent : AgentId} {fence : Option ℕ} {ttl : ℚ}
    {requestId : Option RequestId} {epoch : Option ℕ} {r : Reply} (ok : s.Ok)
    (h : renew now s orbit agent fence ttl requestId epoch = .ok (s', r)) : s.Upholds s' := by
  rw [renew] at h
  split at h
  · cases h
    exact .refl s
  rw [Outcome.bind_eq_ok] at h
  obtain ⟨⟨s₁, r₁⟩, h₁, h⟩ := h
  cases h
  refine withIdem_upholds (fun s₂ s₃ r₂ _ h => ?_) ok h₁
  rw [renewBody] at h
  split at h
  · cases h
    exact .refl _
  have alive := upsertAgent_same s₂ agent now
  dsimp only at h
  split at h
  · cases h
    exact alive.upholds
  rename_i o hget
  split at h
  · cases h
    exact alive.upholds
  rename_i held
  split at h
  · cases h
    exact alive.upholds
  rw [Outcome.bind_eq_ok] at h
  obtain ⟨s₄, h₄, h⟩ := h
  cases h
  rw [renewOrbit, Outcome.bind_eq_ok] at h₄
  obtain ⟨s₅, reduced, h₄⟩ := h₄
  cases h₄
  obtain ⟨id, target, identity, -, reduced⟩ := reduceOrbitLifecycle_spec reduced
  have announced : (s₂.upsertAgent agent now).SameSignals s₅ := by
    rw [reduced.announces identity]
    exact ⟨rfl, rfl, rfl, rfl, rfl⟩
  have same := alive.trans announced
  refine same.upholds.trans fun leased => setOrbit_upholds (fun r hr hid => ⟨rfl, ?_⟩) leased
  have mem : o ∈ s₅.orbits := announced.orbits ▸ Table.mem_of_get hget
  rw [leased.ids.eq hr mem hid]
  exact (not_not.mp held).symm

/-- A release refuses what is no orbit. -/
theorem release_upholds {orbit : OrbitId} {agent : AgentId} {fence : Option ℕ}
    {requestId : Option RequestId} {epoch : Option ℕ} {r : Reply} (ok : s.Ok)
    (h : release cfg now s orbit agent fence requestId epoch = .ok (s', r)) : s.Upholds s' := by
  rw [release, Outcome.bind_eq_ok] at h
  obtain ⟨⟨s₁, r₁⟩, h₁, h⟩ := h
  cases h
  refine withIdem_upholds (fun s₂ s₃ r₂ _ h => ?_) ok h₁
  rw [releaseBody] at h
  split at h
  · cases h
    exact .refl _
  have alive := upsertAgent_same s₂ agent now
  dsimp only at h
  split at h
  · cases h
    exact alive.upholds
  rename_i o hget
  split at h
  · cases h
    exact alive.upholds
  · rename_i kind
    intro leased
    have lease := (alive.leased leased).kinds o (Table.mem_of_get hget)
    rw [lease] at kind
    exact absurd kind (by decide)

/-! ## Setting a flag -/

theorem mem_upsertFlag_iff {flag f : Flag} :
    f ∈ (s.upsertFlag flag).flags ↔ (f ∈ s.flags ∧ f.key ≠ flag.key) ∨ f = flag := by
  rw [Store.upsertFlag]
  cases row : s.getFlag flag.key with
  | none =>
      have absent := Table.get_eq_none.mp row
      simp only [List.mem_append, List.mem_singleton]
      exact or_congr_left (iff_self_and.mpr fun hf => absent f hf)
  | some f₀ =>
      refine Table.mem_modify.trans (or_congr_right ?_)
      constructor
      · rintro ⟨r, -, -, same⟩
        exact same
      · exact fun same => ⟨f₀, Table.mem_of_get row, Table.key_of_get row, same⟩

theorem distinct_upsertFlag (distinct : Table.Distinct Flag.key s.flags) (flag : Flag) :
    Table.Distinct Flag.key (s.upsertFlag flag).flags := by
  rw [Store.upsertFlag]
  cases row : s.getFlag flag.key with
  | none => exact distinct.append (Table.get_eq_none.mp row)
  | some f₀ => exact distinct.modify fun _ _ _ => rfl

theorem wake_upsertFlag (s : Store) (flag : Flag) (key : String) :
    wakeFlagWaiters (s.upsertFlag flag) key =
      { s with
        flags := (s.upsertFlag flag).flags
        flagWaiters := (wakeFlagWaiters (s.upsertFlag flag) key).flagWaiters } := by
  rw [wakeFlagWaiters_eq, upsertFlag_eq]

/-- A latch is set under a key that no signal has. -/
theorem setLatch_upholds {f : Flag} (latch : f.flagType = .LATCH)
    (unsignalled : ∀ r ∈ s.flags, r.key = f.key → r.flagType ≠ .EPHEMERAL) :
    s.Upholds (wakeFlagWaiters (s.upsertFlag f) f.key) := by
  generalize f = flag at latch unsignalled ⊢
  intro leased
  have listeners : Table.Distinct FlagWaiter.waiterId (s.upsertFlag flag).flagWaiters := by
    rw [upsertFlag_eq]
    exact leased.listeners
  have stays {f : Flag} (hf : f ∈ s.flags) (signals : f.Signals) :
      f ∈ (s.upsertFlag flag).flags :=
    mem_upsertFlag_iff.mpr (Or.inl ⟨hf, fun same => unsignalled f hf same signals.1⟩)
  rw [wake_upsertFlag]
  refine ⟨⟨leased.kinds, leased.tasks, leased.barriers, leased.ids,
    distinct_wake listeners flag.key, distinct_upsertFlag leased.keys flag, fun f hf signals => ?_,
    fun o ho leases => ?_⟩, fun f hf signals => ⟨f, stays hf signals, signals, rfl⟩⟩
  · rcases mem_upsertFlag_iff.mp hf with ⟨hf, -⟩ | rfl
    · exact leased.lease f hf signals
    · rw [Flag.Signals, latch] at signals
      cases signals.1
  · obtain ⟨f, hf, signals, backs⟩ := leased.flag o ho leases
    exact ⟨f, stays hf signals, signals, backs⟩

theorem flagSetLatch_upholds (key value : String) (agent : Option AgentId) :
    s.Upholds (flagSetLatch s key value agent).1 := by
  intro leased
  have write (flag : Option Flag) (epoch : ℕ)
      (unsignalled : ∀ f ∈ s.flags, f.key = key → f.flagType ≠ .EPHEMERAL) :
      s.Upholds (latchFlag s key value agent flag epoch).1 :=
    setLatch_upholds (f := { key := key, value := value, setBy := agent, epoch := epoch,
                             rank := nextRank value flag }) rfl unsignalled
  rw [flagSetLatch]
  split
  · rename_i none
    exact write _ _ (fun f hf same => absurd same (Table.get_eq_none.mp none f hf)) leased
  rename_i f₀ row
  split
  · exact Store.Upholds.refl s leased
  rename_i latch
  split
  · exact Store.Upholds.refl s leased
  split
  · exact Store.Upholds.refl s leased
  · refine write _ _ (fun f hf same => ?_) leased
    rw [leased.flag_eq hf (Table.mem_of_get row) (same.trans (Table.key_of_get row).symm)]
    exact latch

/-- The leases when a signal is about to be set: one of them is for it, and is the one of the
signal that it replaces; the others are as they were. -/
structure Store.Backed (s s' : Store) (o : Orbit) (key : String) : Prop where
  mem : o ∈ s'.orbits
  leases : o.Leases
  resource : o.resourceKey = some key
  replaces : ∀ f ∈ s.flags, f.Signals → f.key = key → f.leaseId = some o.orbitId
  kinds : ∀ r ∈ s'.orbits, r.kind = .flag_ephemeral
  ids : Table.Distinct Orbit.orbitId s'.orbits
  back : ∀ r ∈ s'.orbits, r.Leases → r.orbitId = o.orbitId ∨
    ∃ r₀ ∈ s.orbits, r₀.Leases ∧ r₀.SameRow r
  forth : ∀ r ∈ s.orbits, r.Leases → ∃ r' ∈ s'.orbits, r'.Leases ∧ r.SameRow r'
  rest : s' = { s with orbits := s'.orbits, fence := s'.fence, uuid := s'.uuid }

theorem setSignal_upholds {flag : Flag} (backed : s.Backed s₁ o flag.key)
    (signals : flag.Signals) (lease : flag.leaseId = some o.orbitId)
    (owner : flag.ownerAgent = some o.agentId) :
    s.Upholds (wakeFlagWaiters (s₁.upsertFlag flag) flag.key) := by
  intro leased
  have flags : s₁.flags = s.flags := by rw [backed.rest]
  have listeners : Table.Distinct FlagWaiter.waiterId (s₁.upsertFlag flag).flagWaiters := by
    rw [upsertFlag_eq, backed.rest]
    exact leased.listeners
  have mem {f : Flag} : f ∈ (s₁.upsertFlag flag).flags ↔
      (f ∈ s.flags ∧ f.key ≠ flag.key) ∨ f = flag := flags ▸ mem_upsertFlag_iff
  have backs : o.Backs flag := ⟨lease, owner, backed.resource⟩
  rw [wake_upsertFlag]
  refine ⟨⟨backed.kinds, ?_, ?_, backed.ids, distinct_wake listeners flag.key,
    distinct_upsertFlag (flags.symm ▸ leased.keys) flag, fun f hf live => ?_,
    fun r hr leases => ?_⟩, fun f hf live => ?_⟩
  · rw [backed.rest]
    exact leased.tasks
  · rw [backed.rest]
    exact leased.barriers
  · rcases mem.mp hf with ⟨hf, -⟩ | rfl
    · obtain ⟨r, hr, leases, backs'⟩ := leased.lease f hf live
      obtain ⟨r', hr', leases', row⟩ := backed.forth r hr leases
      exact ⟨r', hr', leases', (row.backs f).mpr backs'⟩
    · exact ⟨o, backed.mem, backed.leases, backs⟩
  · -- the lease of the signal, or a lease of another one
    have own (same : r.orbitId = o.orbitId) :
        ∃ f ∈ (s₁.upsertFlag flag).flags, f.Signals ∧ r.Backs f := by
      rw [backed.ids.eq hr backed.mem same]
      exact ⟨flag, mem.mpr (Or.inr rfl), signals, backs⟩
    rcases backed.back r hr leases with same | ⟨r₀, hr₀, leases₀, row⟩
    · exact own same
    obtain ⟨f, hf, live, backs'⟩ := leased.flag r₀ hr₀ leases₀
    by_cases same : f.key = flag.key
    · have replaced := backed.replaces f hf live same
      rw [backs'.lease, Option.some.injEq] at replaced
      exact own (row.orbitId.trans replaced)
    · exact ⟨f, mem.mpr (Or.inl ⟨hf, same⟩), live, (row.backs f).mpr backs'⟩
  · by_cases same : f.key = flag.key
    · exact ⟨flag, mem.mpr (Or.inr rfl), signals, lease.trans (backed.replaces f hf live same).symm⟩
    · exact ⟨f, mem.mpr (Or.inl ⟨hf, same⟩), live, rfl⟩

/-- A flag that is no latch, and not of another owner, is backed by its lease or by a new one. -/
theorem backFlag_backed (cfg : Cfg) (now : Time) {key : String} {agent : AgentId} (ttl : Option ℚ)
    (fresh : ∀ o ∈ s.orbits, o.orbitId < s.uuid) (leased : s.Leased)
    (signal : ∀ f, s.getFlag key = some f → f.flagType = .EPHEMERAL)
    (own : ∀ f, s.getFlag key = some f → f.status = .LIVE →
      ∀ a, f.ownerAgent = some a → a = agent) :
    ∃ o, (backFlag cfg now s key agent (s.getFlag key) ttl).2 = o.orbitId ∧ o.agentId = agent ∧
      s.Backed (backFlag cfg now s key agent (s.getFlag key) ttl).1 o key := by
  have live {f : Flag} (hf : f ∈ s.flags) (same : f.key = key) : s.getFlag key = some f := by
    rw [← same]
    exact leased.keys.get_of_mem hf
  cases hlease : ((s.getFlag key).filter fun f => f.status = .LIVE).bind Flag.leaseId with
  | none =>
      rw [backFlag, hlease]
      refine ⟨_, rfl, rfl, List.mem_append_right _ (List.mem_singleton.mpr rfl), ⟨rfl, rfl⟩, rfl,
        fun f hf signals same => ?_, fun r hr => ?_, ?_, fun r hr leases => ?_,
        fun r hr leases => ⟨r, List.mem_append_left _ hr, leases, .refl r⟩, rfl⟩
      · obtain ⟨o, -, -, backs⟩ := leased.lease f hf signals
        simp [live hf same, signals.2, backs.lease] at hlease
      · rcases List.mem_append.mp hr with hr | hr
        · exact leased.kinds r hr
        · rw [List.mem_singleton.mp hr]
      · exact leased.ids.append fun r hr => (fresh r hr).ne
      · rcases List.mem_append.mp hr with hr | hr
        · exact Or.inr ⟨r, hr, leases, .refl r⟩
        · exact Or.inl (by rw [List.mem_singleton.mp hr])
  | some lease =>
      obtain ⟨f, hf, hid⟩ := Option.bind_eq_some_iff.mp hlease
      obtain ⟨row, status⟩ := Option.filter_eq_some_iff.mp hf
      have status : f.status = .LIVE := by simpa using status
      have mem : f ∈ s.flags := Table.mem_of_get row
      have key' : f.key = key := Table.key_of_get row
      obtain ⟨o, ho, leases, backs⟩ := leased.lease f mem ⟨signal f row, status⟩
      have id : o.orbitId = lease := Option.some.inj (backs.lease.symm.trans hid)
      have owner : o.agentId = agent := own f row status o.agentId backs.owner
      have replaces : ∀ f' ∈ s.flags, f'.Signals → f'.key = key → f'.leaseId = some o.orbitId := by
        intro f' hf' _ same
        rw [leased.flag_eq hf' mem (same.trans key'.symm)]
        exact backs.lease
      rw [backFlag, hlease]
      cases ttl with
      | none =>
          exact ⟨o, id.symm, owner, ho, leases, key' ▸ backs.key, replaces,
            leased.kinds, leased.ids,
            fun r hr leases => Or.inr ⟨r, hr, leases, .refl r⟩,
            fun r hr leases => ⟨r, hr, leases, .refl r⟩, rfl⟩
      | some t =>
          let extend (r : Orbit) : Orbit := { r with expiresAt := some (now + t) }
          have keeps : ∀ r ∈ s.orbits, r.orbitId = lease → r.SameLease (extend r) :=
            fun _ _ _ => ⟨rfl, rfl⟩
          have row : extend o ∈ (s.setOrbit lease extend).orbits :=
            Table.mem_modify.mpr (Or.inr ⟨o, ho, id, rfl⟩)
          refine ⟨extend o, id.symm, owner, row, leases, key' ▸ backs.key, replaces,
            setOrbit_kinds keeps leased.kinds, setOrbit_ids keeps leased.ids,
            fun r hr leases => Or.inr ?_, fun r hr leases => ?_, rfl⟩
          · obtain ⟨r₀, hr₀, same⟩ := setOrbit_back keeps hr
            exact ⟨r₀, hr₀, same.leases.mp leases, same.1⟩
          · obtain ⟨r', hr', same⟩ := setOrbit_forth keeps hr
            exact ⟨r', hr', same.leases.mpr leases, same.1⟩

theorem flagSetEphemeral_upholds (key value : String) (agent : Option AgentId) (ttl : Option ℚ)
    (fresh : ∀ o ∈ s.orbits, o.orbitId < s.uuid) :
    s.Upholds (flagSetEphemeral cfg now s key value agent ttl).1 := by
  cases agent with
  | none => exact .refl s
  | some a =>
      have alive := upsertAgent_same s a now
      have uuid : (s.upsertAgent a now).uuid = s.uuid := by
        rw [Store.upsertAgent]
        split <;> rfl
      have row : s.getFlag key = (s.upsertAgent a now).getFlag key := by
        rw [Store.getFlag, Store.getFlag, alive.flags]
      rw [flagSetEphemeral]
      dsimp only
      split
      · exact alive.upholds
      rename_i signal
      split
      · exact alive.upholds
      rename_i own
      intro leased
      rw [row] at signal own ⊢
      have fresh : ∀ o ∈ (s.upsertAgent a now).orbits,
          o.orbitId < (s.upsertAgent a now).uuid := by
        rw [alive.orbits, uuid]
        exact fresh
      have ephemeral : ∀ f, (s.upsertAgent a now).getFlag key = some f →
          f.flagType = .EPHEMERAL := by
        intro f hf
        rw [hf] at signal
        cases type : f.flagType with
        | LATCH => simp [type] at signal
        | EPHEMERAL => rfl
      have owned : ∀ f, (s.upsertAgent a now).getFlag key = some f → f.status = .LIVE →
          ∀ b, f.ownerAgent = some b → b = a := by
        intro f hf status b hb
        rw [hf] at own
        simpa [status, hb] using own
      obtain ⟨o, id, owner, backed⟩ :=
        backFlag_backed cfg now ttl fresh (alive.leased leased) ephemeral owned
      refine alive.upholds.trans (setSignal_upholds backed ⟨rfl, rfl⟩ ?_ ?_) leased
      · exact congrArg some id
      · exact congrArg some owner.symm

theorem flagSet_upholds {key value : String} {agent : Option AgentId} {type : FlagType}
    {ttl : Option ℚ} {requestId : Option RequestId} {epoch : Option ℕ} {r : Reply} (ok : s.Ok)
    (h : flagSet cfg now s key value agent type ttl requestId epoch = .ok (s', r)) :
    s.Upholds s' := by
  rw [flagSet, Outcome.bind_eq_ok] at h
  obtain ⟨⟨s₁, r₁⟩, h₁, h⟩ := h
  cases h
  refine withIdem_upholds (fun s₂ s₃ r₂ ok₂ h => ?_) ok h₁
  rw [Except.ok.injEq] at h
  obtain rfl : (flagSetBody cfg now s₂ key value agent type ttl epoch).1 = s₃ := by rw [h]
  unfold flagSetBody
  split
  · exact .refl s₂
  · cases type with
    | EPHEMERAL => exact flagSetEphemeral_upholds key value agent ttl ok₂.fresh
    | LATCH => exact flagSetLatch_upholds key value agent

/-! ## Waiting for a flag -/

theorem flagWait_upholds (key want : String) (timeout : Option ℚ) (agent : Option AgentId)
    (ok : s.Ok) : s.Upholds (flagWait now s key want timeout agent).1 := by
  cases timeout with
  | none => exact .refl s
  | some t =>
      rw [flagWait]
      split
      · exact .refl s
      split
      · exact .refl s
      · intro leased
        refine ⟨{ leased with
          listeners := leased.listeners.append fun w hw => (ok.freshListener w hw).ne },
          fun f hf signals => ⟨f, hf, signals, rfl⟩⟩

/-- An answer to a waiter ends its wait. -/
theorem setFlagWaiter_sinks (id : ℕ) {state : FlagWaiterState} (ended : state ≠ .WAITING) :
    s.Sinks (s.setFlagWaiter id state) := by
  intro leased
  refine ⟨{ leased with listeners := leased.listeners.modify fun _ _ h => h },
    fun f hf => Or.inl hf, fun w hw waits => ?_⟩
  rcases Table.mem_modify.mp hw with ⟨hw, -⟩ | ⟨w₀, -, -, rfl⟩
  · exact hw
  · exact absurd waits ended

theorem flagWaitPoll_sinks {waiter : ℕ} {r : Reply}
    (h : flagWaitPoll cfg now s waiter = .ok (s', r)) : s.Sinks s' := by
  rw [flagWaitPoll] at h
  split at h
  · cases h
    exact .refl s
  split at h
  · cases h
    exact .refl s
  rw [Outcome.bind_eq_ok] at h
  obtain ⟨s₁, h₁, h⟩ := h
  have swept := sweepInline_sinks h₁
  split at h
  · cases h
    exact swept.trans (setFlagWaiter_sinks waiter (by simp))
  split at h
  · cases h
    exact swept.trans (setFlagWaiter_sinks waiter (by simp))
  split at h
  · cases h
    exact swept.trans (setFlagWaiter_sinks waiter (by simp))
  · cases h
    exact swept

/-! ## The fate of a signal -/

/-- The flag is cleared, and its lease is released. -/
def Flag.ClearedIn (f : Flag) (s : Store) : Prop :=
  (∃ f' ∈ s.flags, f'.key = f.key ∧ f'.leaseId = f.leaseId ∧ f'.status = .CLEARED) ∧
    ∃ o ∈ s.orbits, f.leaseId = some o.orbitId ∧ o.state = .RELEASED

/-- What a step makes of a signal: it is kept up, it is cleared by a clear of its key, or it
is broken. -/
inductive Flag.Fate (f : Flag) (s' : Store) (a : Action) : Prop
  | upheld (f' : Flag) (mem : f' ∈ s'.flags) (signals : f'.Signals) (lease : f'.leaseId = f.leaseId)
  | cleared (agent : Option AgentId) (requestId : Option RequestId) (bailEpoch : Option ℕ)
      (clear : a = .call (.flagClear f.key agent requestId bailEpoch)) (ended : f.ClearedIn s')
  | broken (ended : f.BrokenIn s')

/-- The effect of a step on a store of signals. -/
def Store.Decides (s s' : Store) (a : Action) : Prop :=
  s.Leased → s'.Leased ∧ ∀ f ∈ s.flags, f.Signals → f.Fate s' a

theorem Store.Upholds.decides (h : s.Upholds s') (a : Action) : s.Decides s' a := by
  intro leased
  obtain ⟨leased', upheld⟩ := h leased
  refine ⟨leased', fun f hf signals => ?_⟩
  obtain ⟨f', hf', signals', lease⟩ := upheld f hf signals
  exact .upheld f' hf' signals' lease

theorem Store.Sinks.decides (h : s.Sinks s') (a : Action) : s.Decides s' a := by
  intro leased
  obtain ⟨leased', lapses⟩ := h leased
  refine ⟨leased', fun f hf signals => ?_⟩
  rcases lapses.flags f hf with hf' | broken
  · exact .upheld f hf' signals rfl
  · exact .broken broken

/-- A verb about requests before and after a section changes no fate. -/
theorem Store.Decides.between {a : Action} {s₂ : Store} (enter : s.SameSignals s₁)
    (h : s₁.Decides s₂ a) (exit : s₂.SameSignals s') : s.Decides s' a := by
  intro leased
  obtain ⟨leased₂, fates⟩ := h (enter.leased leased)
  refine ⟨exit.leased leased₂, fun f hf signals => ?_⟩
  cases fates f (enter.flags.symm ▸ hf) signals with
  | upheld f' mem signals' lease => exact .upheld f' (exit.flags.symm ▸ mem) signals' lease
  | cleared agent requestId bailEpoch clear ended =>
      refine .cleared agent requestId bailEpoch clear ?_
      rw [Flag.ClearedIn, exit.flags, exit.orbits]
      exact ended
  | broken ended =>
      refine .broken ?_
      rw [Flag.BrokenIn, exit.flags, exit.flagWaiters]
      exact ended

theorem withIdem_decides {requestId : Option RequestId} {agent : Option AgentId}
    {args : IdemArgs} {body : Store → Except Fault (Store × Result)} {r : Result} {a : Action}
    (decides : ∀ s₁ s₂ r, body s₁ = .ok (s₂, r) → s₁.Decides s₂ a) (ok : s.Ok)
    (h : withIdem now s requestId agent args body = .ok (s', r)) : s.Decides s' a := by
  rcases withIdem_same ok h with rfl | ⟨s₁, s₂, enter, -, body, exit⟩
  · exact (Store.Upholds.refl _).decides a
  · exact (decides s₁ s₂ r body).between enter exit

/-- The clear of a signal releases its lease. -/
theorem clear_decides {f : Flag} {key : String} {lease : OrbitId} {agent : Option AgentId}
    {requestId : Option RequestId} {epoch : Option ℕ} (row : s.getFlag key = some f)
    (signals : f.Signals) (hlease : f.leaseId = some lease)
    (h : releaseLease now s lease = .ok s₁) :
    s.Decides (wakeFlagWaiters (s₁.setFlagStatus key .CLEARED (f.epoch + 1)) key)
      (.call (.flagClear key agent requestId epoch)) := by
  intro leased
  have hf : f ∈ s.flags := Table.mem_of_get row
  obtain rfl : f.key = key := Table.key_of_get row
  obtain ⟨o, ho, leases, backs⟩ := leased.lease f hf signals
  let g (r : Orbit) : Orbit := { r with state := .RELEASED, releasedAt := some now }
  let h' (r : Flag) : Flag := { r with status := .CLEARED, epoch := f.epoch + 1 }
  have released : s₁ = s.setOrbit o.orbitId g := by
    have get : s.getOrbit o.orbitId = some o := leased.ids.get_of_mem ho
    obtain rfl : o.orbitId = lease := Option.some.inj (backs.lease.symm.trans hlease)
    rw [releaseLease, get] at h
    dsimp only at h
    rw [if_pos leases.1] at h
    cases h
    rfl
  have rest : wakeFlagWaiters (s₁.setFlagStatus f.key .CLEARED (f.epoch + 1)) f.key =
      { s with
        orbits := Table.modify Orbit.orbitId o.orbitId g s.orbits
        flags := Table.modify Flag.key f.key h' s.flags
        flagWaiters := (wakeFlagWaiters
          (s₁.setFlagStatus f.key .CLEARED (f.epoch + 1)) f.key).flagWaiters } := by
    rw [released, wakeFlagWaiters_eq]
    rfl
  have listeners : Table.Distinct FlagWaiter.waiterId
      (s₁.setFlagStatus f.key .CLEARED (f.epoch + 1)).flagWaiters := by
    rw [released]
    exact leased.listeners
  rw [rest]
  refine ⟨leased.unback ho hf backs (g := g) (h := h') (fun _ => ⟨rfl, rfl, by simp [g]⟩)
    (fun _ => ⟨rfl, by simp [h']⟩) rfl rfl rfl rfl (distinct_wake listeners f.key),
    fun f' hf' signals' => ?_⟩
  by_cases same : f'.key = f.key
  · obtain rfl : f' = f := leased.flag_eq hf' hf same
    refine .cleared agent requestId epoch rfl
      ⟨⟨h' f', ?_, rfl, rfl, rfl⟩, g o, ?_, backs.lease, rfl⟩
    · exact Table.mem_modify.mpr (Or.inr ⟨f', hf, rfl, rfl⟩)
    · exact Table.mem_modify.mpr (Or.inr ⟨o, ho, rfl, rfl⟩)
  · exact .upheld f' (Table.mem_modify.mpr (Or.inl ⟨hf', same⟩)) signals' rfl

theorem flagClear_decides {key : String} {agent : Option AgentId} {requestId : Option RequestId}
    {epoch : Option ℕ} {r : Reply} (ok : s.Ok)
    (h : flagClear now s key agent requestId epoch = .ok (s', r)) :
    s.Decides s' (.call (.flagClear key agent requestId epoch)) := by
  rw [flagClear, Outcome.bind_eq_ok] at h
  obtain ⟨⟨s₁, r₁⟩, h₁, h⟩ := h
  cases h
  refine withIdem_decides (fun s₂ s₃ r₂ h => ?_) ok h₁
  have stays := (Store.Upholds.refl s₂).decides (.call (.flagClear key agent requestId epoch))
  rw [flagClearBody] at h
  split at h
  · cases h
    exact stays
  split at h
  · cases h
    exact stays
  rename_i f row
  split at h
  · cases h
    exact stays
  rename_i type
  split at h
  · cases h
    exact stays
  rename_i status
  split at h
  · cases h
    exact stays
  have signals : f.Signals := ⟨not_not.mp type, not_not.mp status⟩
  dsimp only at h
  split at h
  · rename_i unbacked
    intro leased
    obtain ⟨o, -, -, backs⟩ := leased.lease f (Table.mem_of_get row) signals
    rw [backs.lease] at unbacked
    cases unbacked
  · rename_i lease hlease
    rw [Outcome.bind_eq_ok] at h
    obtain ⟨s₄, h₄, h⟩ := h
    cases h
    exact clear_decides row signals hlease h₄

theorem reclaimZombiesNow_sinks (h : reclaimZombiesNow cfg now s = .ok s') : s.Sinks s' := by
  rw [reclaimZombiesNow] at h
  split at h
  · cases h
    exact .refl s
  refine Outcome.foldlM_induction (P := s.Sinks) (.refl s) (fun a _ s₁ s₂ before h => ?_) h
  rw [reclaimZombieNow] at h
  split at h
  · cases h
    exact before
  · rw [Outcome.bind_eq_ok] at h
    obtain ⟨⟨s₃, r⟩, h₃, h⟩ := h
    cases h
    exact before.trans (reclaimAgent_sinks h₃)

theorem bail_decides {agent : AgentId} {requestId : Option RequestId} {r : Reply} {a : Action}
    (ok : s.Ok) (h : bail cfg now s agent requestId = .ok (s', r)) : s.Decides s' a := by
  rw [bail, Outcome.bind_eq_ok] at h
  obtain ⟨⟨s₁, r₁⟩, h₁, h⟩ := h
  cases h
  refine withIdem_decides (fun s₂ s₃ r₂ h => ?_) ok h₁
  rw [Outcome.bind_eq_ok] at h
  obtain ⟨⟨s₄, r₄⟩, h₄, h⟩ := h
  cases h
  exact (reclaimAgent_sinks h₄).decides a

/-! ## Runs -/

/-- The verbs of signals and of leases. -/
inductive Verb.Signalling : Verb → Prop
  | flagSet (key value : String) (agent : Option AgentId) (type : FlagType) (ttl : Option ℚ)
      (requestId : Option RequestId) (bailEpoch : Option ℕ) :
      Signalling (.flagSet key value agent type ttl requestId bailEpoch)
  | flagClear (key : String) (agent : Option AgentId) (requestId : Option RequestId)
      (bailEpoch : Option ℕ) : Signalling (.flagClear key agent requestId bailEpoch)
  | flagWait (key want : String) (timeout : Option ℚ) (agent : Option AgentId) :
      Signalling (.flagWait key want timeout agent)
  | flagWaitPoll (waiter : ℕ) : Signalling (.flagWaitPoll waiter)
  | heartbeat (agent : AgentId) (ttl : Option ℚ) : Signalling (.heartbeat agent ttl)
  | renew (orbit : OrbitId) (agent : AgentId) (fence : Option ℕ) (ttl : ℚ)
      (requestId : Option RequestId) (bailEpoch : Option ℕ) :
      Signalling (.renew orbit agent fence ttl requestId bailEpoch)
  | release (orbit : OrbitId) (agent : AgentId) (fence : Option ℕ)
      (requestId : Option RequestId) (bailEpoch : Option ℕ) :
      Signalling (.release orbit agent fence requestId bailEpoch)
  | sweep : Signalling .sweep
  | reclaimZombies : Signalling .reclaimZombies

/-- The actions of a coordinator that is used for signals: their verbs, `bail` with its cuts, a
recovery and a crash. -/
inductive Action.Signalling : Action → Prop
  | call (v : Verb) (signalling : v.Signalling) : Signalling (.call v)
  | bail (agent : AgentId) (requestId : Option RequestId) : Signalling (.bail agent requestId)
  | recover : Signalling .recover
  | resume (i : ℕ) (input : Input) : Signalling (.resume i input)
  | crash (i : ℕ) : Signalling (.crash i)

/-- The step is one of a coordinator that is used for signals. -/
def Signalling (_ : Sys) (l : Env × Action) : Prop := l.2.Signalling

theorem verb_decides {env : Env} {v : Verb} {r : Reply} (signalling : v.Signalling) (ok : s.Ok)
    (h : v.run cfg env s = .ok (s', r)) : s.Decides s' (.call v) := by
  cases signalling with
  | flagSet => exact (flagSet_upholds ok h).decides _
  | flagClear => exact flagClear_decides ok h
  | flagWait key want timeout agent =>
      obtain rfl : (flagWait env.now s key want timeout agent).1 = s' :=
        congrArg Prod.fst (Except.ok.inj h)
      exact (flagWait_upholds key want timeout agent ok).decides _
  | flagWaitPoll => exact (flagWaitPoll_sinks h).decides _
  | heartbeat agent ttl =>
      obtain rfl : (heartbeat cfg env.now s agent ttl).1 = s' :=
        congrArg Prod.fst (Except.ok.inj h)
      exact (heartbeat_upholds agent ttl).decides _
  | renew => exact (renew_upholds ok h).decides _
  | release => exact (release_upholds ok h).decides _
  | sweep =>
      rw [Verb.run, Outcome.bind_eq_ok] at h
      obtain ⟨s₁, h₁, h⟩ := h
      cases h
      exact (sweepInline_sinks h₁).decides _
  | reclaimZombies =>
      rw [Verb.run, Outcome.bind_eq_ok] at h
      obtain ⟨s₁, h₁, h⟩ := h
      cases h
      exact (reclaimZombiesNow_sinks h₁).decides _

/-- The call is a `bail`, or is gone. -/
inductive Proc.Bails : Proc → Prop
  | bail (agent : AgentId) (requestId : Option RequestId) (pc : BailPc) :
      Bails (.bail agent requestId pc)
  | crashed : Bails .crashed

theorem procStep_decides {env : Env} {input : Input} {p p' : Proc} {a : Action} (bails : p.Bails)
    (ok : s.Ok) (h : procStep cfg env input s p = .ok (s', p')) : s.Decides s' a ∧ p'.Bails := by
  cases bails with
  | bail agent requestId pc =>
      rw [procStep, Outcome.bind_eq_ok] at h
      obtain ⟨⟨s₁, pc'⟩, h₁, h⟩ := h
      cases h
      refine ⟨?_, .bail agent requestId pc'⟩
      cases pc with
      | recover =>
          rw [bailStep, Outcome.bind_eq_ok] at h₁
          obtain ⟨s₂, h₂, h₁⟩ := h₁
          cases h₁
          exact (recover_sinks h₂).decides a
      | reclaim =>
          rw [bailStep, Outcome.bind_eq_ok] at h₁
          obtain ⟨⟨s₂, r⟩, h₂, h₁⟩ := h₁
          cases h₁
          exact bail_decides ok h₂
      | ended =>
          cases h₁
          exact (Store.Upholds.refl _).decides a
  | crashed =>
      cases h
      exact ⟨(Store.Upholds.refl _).decides a, .crashed⟩

/-- A system of signals. -/
structure Sys.Leased (σ : Sys) : Prop where
  ok : σ.Ok
  store : σ.store.Leased
  procs : ∀ p ∈ σ.procs, p.Bails

theorem Sys.Leased.step {σ σ' : Sys} {l : Env × Action} (h : σ.Leased) (signalling : Signalling σ l)
    (next : Step cfg σ l σ') :
    σ'.Leased ∧ ∀ f ∈ σ.store.flags, f.Signals → f.Fate σ'.store l.2 := by
  have next : Omd.step cfg l.1 σ l.2 = .ok σ' := next
  obtain ⟨-, ok'⟩ := step_spec h.ok next
  have decided (decides : σ.store.Decides σ'.store l.2) (bails : ∀ p ∈ σ'.procs, p.Bails) :
      σ'.Leased ∧ ∀ f ∈ σ.store.flags, f.Signals → f.Fate σ'.store l.2 := by
    obtain ⟨leased, fates⟩ := decides h.store
    exact ⟨⟨ok', leased, bails⟩, fates⟩
  have stays {a : Action} : σ.store.Decides σ.store a := (Store.Upholds.refl _).decides a
  have replaced {i : ℕ} {p : Proc} (hp : p.Bails) : ∀ r ∈ σ.procs.set i p, r.Bails := by
    intro r hr
    rcases List.mem_or_eq_of_mem_set hr with hr | rfl
    · exact h.procs r hr
    · exact hp
  obtain ⟨env, a⟩ := l
  cases signalling with
  | call v signalling =>
      rw [Omd.step, Outcome.bind_eq_ok] at next
      obtain ⟨⟨s₁, r⟩, h₁, next⟩ := next
      cases next
      exact decided (verb_decides signalling h.ok.store h₁) h.procs
  | bail agent requestId =>
      cases next
      unfold Sys.spawn at decided ok' ⊢
      split at decided
      · exact decided stays h.procs
      · refine decided stays fun p hp => ?_
        rcases List.mem_append.mp hp with hp | hp
        · exact h.procs p hp
        · rw [List.mem_singleton.mp hp]
          exact .bail agent requestId .recover
  | recover =>
      rw [Omd.step] at next
      split at next
      · cases next
        exact decided stays h.procs
      · rw [Outcome.bind_eq_ok] at next
        obtain ⟨s₁, h₁, next⟩ := next
        cases next
        exact decided ((recover_sinks h₁).decides _) h.procs
  | resume i input =>
      rw [Omd.step] at next
      split at next
      · cases next
        exact decided stays h.procs
      · rename_i p hp
        rw [Outcome.bind_eq_ok] at next
        obtain ⟨⟨s₁, p'⟩, h₁, next⟩ := next
        cases next
        obtain ⟨decides, bails⟩ :=
          procStep_decides (h.procs p (List.mem_of_getElem? hp)) h.ok.store h₁
        exact decided decides (replaced bails)
  | crash i =>
      rw [Omd.step] at next
      split at next
      · cases next
        exact decided stays h.procs
      · cases next
        exact decided stays (replaced .crashed)

theorem ReachableBy.leased {σ : Sys} (h : ReachableBy cfg Signalling σ) : σ.Leased := by
  refine Transition.Run.invariant (I := Sys.Leased)
    (fun _ _ _ ih ok next => (ih.step ok next).1) h ?_
  exact ⟨.empty, .empty, by simp⟩

/-! ## The leases and the signals of a run -/

/-- The leases that are held for the owner and the key of the flag. -/
def Store.leasesFor (s : Store) (f : Flag) : List Orbit :=
  s.orbits.filter fun o => o.state = .HELD && o.kind = .flag_ephemeral &&
    some o.agentId = f.ownerAgent && o.resourceKey = some f.key

/-- Every signal is backed by one lease, and every lease that is held backs one signal. -/
structure Store.Corresponds (s : Store) : Prop where
  lease : ∀ f ∈ s.flags, f.Signals → ∃ o, s.leasesFor f = [o] ∧ o.Backs f
  flag : ∀ o ∈ s.orbits, o.Leases → ∃ f, s.ephemeralFlagsForLease o.orbitId = [f] ∧ o.Backs f

theorem Store.Leased.leasesFor (leased : s.Leased) {f : Flag} (hf : f ∈ s.flags) (ho : o ∈ s.orbits)
    (leases : o.Leases) (backs : o.Backs f) : s.leasesFor f = [o] := by
  have distinct : (s.leasesFor f).Nodup := (List.Nodup.of_map _ leased.ids).filter _
  refine List.perm_singleton.mp ((List.perm_ext_iff_of_nodup distinct (List.nodup_singleton o)).mpr
    fun o' => ?_)
  simp only [Store.leasesFor, List.mem_filter, Bool.and_eq_true, decide_eq_true_eq,
    List.mem_singleton]
  constructor
  · rintro ⟨ho', ⟨⟨held, kind⟩, -⟩, key⟩
    obtain ⟨f', hf', -, backs'⟩ := leased.flag o' ho' ⟨held, kind⟩
    have same : f' = f :=
      leased.flag_eq hf' hf (Option.some.inj (backs'.key.symm.trans key))
    rw [same] at backs'
    exact leased.ids.eq ho' ho (Option.some.inj (backs'.lease.symm.trans backs.lease))
  · rintro rfl
    exact ⟨ho, ⟨leases, backs.owner.symm⟩, backs.key⟩

theorem Store.Leased.corresponds (leased : s.Leased) : s.Corresponds where
  lease := by
    intro f hf signals
    obtain ⟨o, ho, leases, backs⟩ := leased.lease f hf signals
    exact ⟨o, leased.leasesFor hf ho leases backs, backs⟩
  flag := by
    intro o ho leases
    obtain ⟨f, hf, signals, backs⟩ := leased.flag o ho leases
    exact ⟨f, leased.ephemeralFlags hf signals backs ho, backs⟩

/-- In a coordinator that is used for signals the signals and their leases correspond.  A step
keeps up the lease of a signal, or releases it by a clear of the key, or breaks the flag and
leaves nobody waiting for its key. -/
theorem signals_correspond {σ : Sys} (h : ReachableBy cfg Signalling σ) :
    σ.store.Corresponds ∧
      ∀ l σ', Signalling σ l → Step cfg σ l σ' → ∀ o ∈ σ.store.orbits, o.Leases →
        (∃ o' ∈ σ'.store.orbits, o'.orbitId = o.orbitId ∧ o'.Leases) ∨
          ∃ f ∈ σ.store.flags, f.Signals ∧ o.Backs f ∧
            (f.BrokenIn σ'.store ∨ f.ClearedIn σ'.store ∧ ∃ agent requestId bailEpoch,
              l.2 = .call (.flagClear f.key agent requestId bailEpoch)) := by
  have leased := h.leased
  refine ⟨leased.store.corresponds, fun l σ' signalling next o ho leases => ?_⟩
  obtain ⟨leased', fates⟩ := leased.step signalling next
  obtain ⟨f, hf, signals, backs⟩ := leased.store.flag o ho leases
  cases fates f hf signals with
  | upheld f' mem signals' lease =>
      obtain ⟨o', ho', leases', backs'⟩ := leased'.store.lease f' mem signals'
      have id := backs'.lease.symm.trans (lease.trans backs.lease)
      exact Or.inl ⟨o', ho', Option.some.inj id, leases'⟩
  | cleared agent requestId bailEpoch clear ended =>
      exact Or.inr ⟨f, hf, signals, backs, Or.inr ⟨ended, agent, requestId, bailEpoch, clear⟩⟩
  | broken ended => exact Or.inr ⟨f, hf, signals, backs, Or.inl ended⟩

/-- A signal for ten seconds, and an agent that waits for its key. -/
def heardSignal : List (Env × Action) :=
  [ (Action.call (.flagSet "k" "up" (some "A") .EPHEMERAL (some 10) none none)).at 1,
    (Action.call (.flagWait "k" "done" (some 60) (some "B"))).at 2 ]

theorem heardSignal_signalling (l : Env × Action) (h : l ∈ heardSignal) (σ : Sys) :
    Signalling σ l := by
  simp only [heardSignal, List.mem_cons, List.not_mem_nil, or_false] at h
  rcases h with rfl | rfl
  · exact .call _ (.flagSet ..)
  · exact .call _ (.flagWait ..)

theorem signals_correspond_lapsed : ∃ σ σ', ReachableBy {} Signalling σ ∧ σ.store.Corresponds ∧
    Step {} σ ((Action.call .sweep).at 20) σ' ∧ ∃ o ∈ σ.store.orbits, o.Leases ∧
      ∃ f ∈ σ.store.flags, f.Signals ∧ o.Backs f ∧ f.BrokenIn σ'.store := by
  obtain ⟨σ, reach, ⟨o, ho, held, kind⟩, lapsed⟩ : ∃ σ, ReachableBy {} Signalling σ ∧
      (∃ o ∈ σ.store.orbits, o.state = .HELD ∧ o.kind = .flag_ephemeral) ∧
        (step {} ((Action.call .sweep).at 20).1 σ (.call .sweep)).toOption.any fun σ' =>
          decide (∀ o ∈ σ'.store.orbits, o.state ≠ .HELD) :=
    exists_reachableBy heardSignal heardSignal_signalling (by decide +kernel)
  obtain ⟨σ', next, ended⟩ := exists_step (l := (Action.call .sweep).at 20) lapsed
  obtain ⟨corresponds, fates⟩ := signals_correspond reach
  refine ⟨σ, σ', reach, corresponds, next, o, ho, ⟨held, kind⟩, ?_⟩
  rcases fates ((Action.call .sweep).at 20) σ' (.call _ .sweep) next o ho ⟨held, kind⟩ with
    ⟨o', ho', -, leases⟩ | ⟨f, hf, signals, backs, broken | ⟨-, agent, requestId, bailEpoch, clear⟩⟩
  · exact absurd leases.1 (ended o' ho')
  · exact ⟨f, hf, signals, backs, broken⟩
  · cases clear

end Omd
