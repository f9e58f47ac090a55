import Omd.Waiting

/-!
# Deadlines

The deadline of a barrier should end it: when a sweep comes at or after the deadline, the
barrier is no longer armed.  A sweep breaks a barrier from which somebody is missing, and
never trips one.  So it leaves armed, for good, a barrier from which nobody is missing any
more: the last one missing died and was shed, or all of them were.
-/

namespace Omd

open Lib

variable {cfg : Cfg} {now : Time} {s s' s₁ : Store} {c : Scope} {E : TaskId → Prop}
  {id : BarrierId} {b : Barrier}

/-- Nobody is missing from the barrier: the dead parties can be shed, and those that are
left have arrived. -/
structure Store.NobodyMissing (s : Store) (b : Barrier) : Prop where
  left : ∃ s₁, (deadParties s b = [] ∧ s₁ = s ∨
      deadParties s b ≠ [] ∧ b.policy = .shrink ∧
        (∀ d ∈ deadParties s b, taskDependents s d.taskId = []) ∧ s₁ = shrinkBarrier s b) ∧
    ∀ p ∈ liveParties s₁ b, p.arrived = true

/-- The sweep up to its barriers. -/
def sweepBefore (cfg : Cfg) (now : Time) (s : Store) : Except Fault Store := do
  let s ← reconcileAdmission cfg now s
  let s ← (s.dueOfKind .flag_ephemeral now).foldlM sweepFlagLease s
  sweepPermits cfg now s

/-! ## What a barrier was declared with -/

theorem Micro.terms (h : Micro c E s s') :
    s.barriers.map Barrier.terms <+: s'.barriers.map Barrier.terms := by
  cases h with
  | arm b _ _ _ _ _ _ _ frame =>
      rw [frame.terms, List.map_append]
      exact List.prefix_append _ _
  | trip id _ _ frame =>
      have same := map_setBarrier (g := Barrier.terms) s id
        (f := fun r => { r with state := .TRIPPED }) fun _ => rfl
      exact ⟨[], (List.append_nil _).trans (frame.terms.trans same).symm⟩
  | frame frame | enroll _ _ _ _ frame | agent _ _ _ _ frame | orbit _ _ _ _ _ _ frame
  | insert _ _ _ _ _ _ _ _ frame | reject _ _ _ _ frame | summary _ _ _ frame | task _ _ _ frame
  | declare _ _ frame | publish _ _ _ frame | request _ frame | waiters _ frame
  | slots _ _ _ _ frame | flags _ frame | stamp _ frame | archiveTasks _ _ _ _ frame
  | archiveOrbits _ _ _ frame => exact ⟨[], (List.append_nil _).trans frame.terms.symm⟩

theorem Micros.terms (h : Micros c E s s') :
    s.barriers.map Barrier.terms <+: s'.barriers.map Barrier.terms := by
  induction h with
  | refl => exact List.prefix_refl _
  | tail _ micro ih => exact ih.trans micro.terms

theorem Moves.terms (h : Moves c s s') :
    s.barriers.map Barrier.terms <+: s'.barriers.map Barrier.terms := by
  induction h with
  | refl => exact List.prefix_refl _
  | tail _ move ih =>
      obtain ⟨_, _, -, run⟩ := move.micros
      exact ih.trans run.terms

/-- A barrier has, later on, the terms it was declared with. -/
theorem Moves.barrier (h : Moves c s s') (hb : b ∈ s.barriers) :
    ∃ b' ∈ s'.barriers, b'.barrierId = b.barrierId ∧ b'.deadlineAt = b.deadlineAt := by
  have mem : b.terms ∈ s'.barriers.map Barrier.terms :=
    h.terms.subset (List.mem_map_of_mem hb)
  obtain ⟨b', hb', same⟩ := List.mem_map.mp mem
  exact ⟨b', hb', congrArg Prod.fst same, congrArg (fun t => t.2.2) same⟩

theorem sweepBefore_moves (ok : s.Ok) (h : sweepBefore cfg now s = .ok s') :
    Moves ⟨cfg, now, fun _ => True⟩ s s' := by
  rw [sweepBefore, Outcome.bind_eq_ok] at h
  obtain ⟨s₁, h₁, h⟩ := h
  rw [Outcome.bind_eq_ok] at h
  obtain ⟨s₂, h₂, h⟩ := h
  let c : Scope := ⟨cfg, now, fun _ => True⟩
  have reconciled : Takes c s s₁ :=
    reconcileAdmission_takes (c := c) trivial (fun _ _ => trivial) h₁
  have leases : Keeps c nobody s₁ s₂ := sweepFlagLeases_keeps (c := c) h₂
  have permits : Takes c s₂ s' := sweepPermits_takes (c := c) trivial h
  exact reconciled.trans (leases.takes.trans permits) ok

/-- Nothing is due, nobody is silent, and nothing is queued. -/
structure Store.Quiet (s : Store) (cfg : Cfg) (now : Time) : Prop where
  orbits : s.dueOrbits now = []
  leases : s.dueOfKind .flag_ephemeral now = []
  permits : s.dueOfKind .sem_permit now = []
  pending : ∀ o ∈ s.orbits, o.isPending = false
  agents : ∀ ttl ∈ cfg.agentTtl, s.staleAgents now ttl = []

instance : Decidable (s.Quiet cfg now) :=
  decidable_of_iff
    (s.dueOrbits now = [] ∧ s.dueOfKind .flag_ephemeral now = [] ∧
      s.dueOfKind .sem_permit now = [] ∧ (∀ o ∈ s.orbits, o.isPending = false) ∧
        ∀ ttl ∈ cfg.agentTtl, s.staleAgents now ttl = [])
    ⟨fun h => ⟨h.1, h.2.1, h.2.2.1, h.2.2.2.1, h.2.2.2.2⟩,
      fun h => ⟨h.orbits, h.leases, h.permits, h.pending, h.agents⟩⟩

theorem Store.Quiet.pendingOrbits (h : s.Quiet cfg now) : s.pendingOrbits = [] := by
  have none : s.orbits.filter Orbit.isPending = [] := by
    simpa [List.filter_eq_nil_iff] using h.pending
  rw [Store.pendingOrbits, none]
  rfl

theorem Store.Quiet.settle (h : s.Quiet cfg now) : Omd.settle cfg now s = .ok s := by
  have due : s.duePendingOrbits now = [] := by
    have none : s.orbits.filter (fun o => o.isPending && reached o.waitDeadline now) = [] := by
      refine List.filter_eq_nil_iff.mpr fun o ho => ?_
      rw [h.pending o ho]
      simp
    rw [Store.duePendingOrbits, none]
    rfl
  have ordered : orderedPending cfg s now = [] := by
    rw [orderedPending, h.pendingOrbits]
    rfl
  have waits : waitFor cfg s now = .ok [] := by
    rw [waitFor, h.pendingOrbits]
    rfl
  have cycles : denyReservationCycles cfg now s = .ok s := by
    rw [denyReservationCycles, h.pendingOrbits, List.length_nil, denyCyclesLoop, waits]
    rfl
  rw [Omd.settle, timeoutPending, due, List.foldlM_nil, pure_bind, cycles]
  show promotePending cfg now s = .ok s
  rw [promotePending, ordered]
  rfl

/-- When there is nothing to do the sweep comes to its barriers with the store it began with. -/
theorem Store.Quiet.sweepBefore (h : s.Quiet cfg now) : Omd.sweepBefore cfg now s = .ok s := by
  have zombies : reclaimZombies cfg now s = .ok s := by
    rw [reclaimZombies]
    cases limit : cfg.agentTtl with
    | none => rfl
    | some ttl =>
        dsimp only
        rw [h.agents ttl limit]
        rfl
  have reconciled : reconcileAdmission cfg now s = .ok s := by
    rw [reconcileAdmission, expireDue, h.orbits, List.foldlM_nil, pure_bind, zombies]
    exact h.settle
  rw [Omd.sweepBefore, reconciled]
  show (s.dueOfKind .flag_ephemeral now).foldlM sweepFlagLease s >>= sweepPermits cfg now = .ok s
  rw [h.leases, List.foldlM_nil, pure_bind, sweepPermits, h.permits]
  rfl

/-! ## One evaluation -/

/-- What the evaluation of another barrier leaves of this one. -/
structure Unmoved (id : BarrierId) (s s' : Store) : Prop where
  tasks : s'.tasks = s.tasks
  orbits : s'.orbits = s.orbits
  row : s'.getBarrier id = s.getBarrier id
  parties : s'.barrierParties.filter (fun p => p.barrierId = id) =
    s.barrierParties.filter fun p => p.barrierId = id

theorem Unmoved.refl (s : Store) : Unmoved id s s := ⟨rfl, rfl, rfl, rfl⟩

theorem Unmoved.trans (h : Unmoved id s s₁) (h' : Unmoved id s₁ s') : Unmoved id s s' :=
  ⟨h'.tasks.trans h.tasks, h'.orbits.trans h.orbits, h'.row.trans h.row,
    h'.parties.trans h.parties⟩

theorem unmoved_setBarrier {id' : BarrierId} (ne : id ≠ id') {f : Barrier → Barrier}
    (hf : ∀ r, (f r).barrierId = r.barrierId) : Unmoved id s (s.setBarrier id' f) := by
  refine ⟨rfl, rfl, ?_, rfl⟩
  refine (Table.get_modify (fun r h => (hf r).trans h) s.barriers).trans ?_
  simp only [if_neg ne]
  exact congrFun Option.map_id _

theorem unmoved_breakBarrier {reason : String} (ne : id ≠ b.barrierId)
    (h : breakBarrier s b reason = .ok s') : Unmoved id s s' := by
  rw [breakBarrier] at h
  split at h
  · cases h
    exact .refl s
  · rw [Outcome.bind_eq_ok] at h
    obtain ⟨state, -, h⟩ := h
    cases h
    refine unmoved_setBarrier ne ?_
    exact fun _ => rfl

theorem unmoved_shrinkBarrier (ne : id ≠ b.barrierId) : Unmoved id s (shrinkBarrier s b) := by
  have set : Unmoved id s (s.setBarrier b.barrierId fun r =>
      { r with parties := (liveParties s b).length }) := by
    refine unmoved_setBarrier ne ?_
    exact fun _ => rfl
  refine ⟨rfl, rfl, set.row, ?_⟩
  refine (List.filter_filter ..).trans (List.filter_congr fun p _ => ?_)
  by_cases hp : p.barrierId = id
  · simp [hp, ne]
  · simp [hp]

theorem unmoved_barrierEvalLive (ne : id ≠ b.barrierId) {plan : Option (List TripStep)}
    (h : barrierEvalLive now false s b = .ok (s', plan)) : Unmoved id s s' := by
  rw [barrierEvalLive] at h
  split at h
  · rw [Outcome.bind_eq_ok] at h
    obtain ⟨s₁, h₁, h⟩ := h
    cases h
    exact unmoved_breakBarrier ne h₁
  · rw [if_neg (by simp)] at h
    cases h
    exact .refl s

theorem unmoved_barrierEval {id' : BarrierId} (ne : id ≠ id') {plan : Option (List TripStep)}
    (h : barrierEval now s id' false = .ok (s', plan)) : Unmoved id s s' := by
  rw [barrierEval] at h
  split at h
  · cases h
    exact .refl s
  rename_i b hb
  have other : id ≠ b.barrierId := Table.key_of_get hb ▸ ne
  split at h
  · cases h
    exact .refl s
  dsimp only at h
  split at h
  · exact unmoved_barrierEvalLive other h
  split at h
  · exact (unmoved_shrinkBarrier other).trans (unmoved_barrierEvalLive other h)
  · rw [Outcome.bind_eq_ok] at h
    obtain ⟨s₁, h₁, h⟩ := h
    cases h
    exact unmoved_breakBarrier other h₁

/-- Who is missing from a barrier is judged by its own parties, the tasks and the orbits. -/
theorem Unmoved.partyAlive (h : Unmoved id s s') (p : BarrierParty) :
    Omd.partyAlive s' p = Omd.partyAlive s p := by
  have task : s'.getTask p.taskId = s.getTask p.taskId := by
    rw [Store.getTask, h.tasks]
    rfl
  have fence : partyWriteFence s' p.taskId = partyWriteFence s p.taskId := by
    simp only [partyWriteFence, Store.writesForTask, Store.orbitsForTask, h.orbits]
  rw [Omd.partyAlive, Omd.partyAlive, task, fence]

theorem Unmoved.partiesOf (h : Unmoved id s s') (generation : ℕ) :
    s'.partiesOf id generation = s.partiesOf id generation := by
  have narrow (t : Store) : (t.barrierParties.filter fun p =>
      p.barrierId = id && p.generation = generation) =
        (t.barrierParties.filter fun p => p.barrierId = id).filter fun p =>
          p.generation = generation := by
    rw [List.filter_filter]
    refine List.filter_congr fun p _ => ?_
    rw [Bool.and_comm]
  rw [Store.partiesOf, Store.partiesOf, narrow, narrow, h.parties]

theorem Unmoved.deadParties (h : Unmoved b.barrierId s s') :
    Omd.deadParties s' b = Omd.deadParties s b := by
  rw [Omd.deadParties, Omd.deadParties, h.partiesOf]
  exact List.filter_congr fun p _ => by rw [h.partyAlive]

theorem Unmoved.liveParties (h : Unmoved b.barrierId s s') :
    Omd.liveParties s' b = Omd.liveParties s b := by
  rw [Omd.liveParties, Omd.liveParties, h.partiesOf]
  exact List.filter_congr fun p _ => h.partyAlive p

theorem Unmoved.symm (h : Unmoved id s s') : Unmoved id s' s :=
  ⟨h.tasks.symm, h.orbits.symm, h.row.symm, h.parties.symm⟩

theorem getBarrier_shrinkBarrier : (shrinkBarrier s b).getBarrier b.barrierId =
    (s.getBarrier b.barrierId).map fun r => { r with parties := (liveParties s b).length } := by
  rw [shrinkBarrier]
  refine (getBarrier_setBarrier ?_).trans rfl
  exact fun _ => rfl

theorem Unmoved.shrink (h : Unmoved b.barrierId s s') :
    Unmoved b.barrierId (shrinkBarrier s b) (shrinkBarrier s' b) := by
  refine ⟨h.tasks, h.orbits, ?_, ?_⟩
  · rw [getBarrier_shrinkBarrier, getBarrier_shrinkBarrier, h.row, h.liveParties]
  · have order (t : Store) (dead : List TaskId) :
        ((t.barrierParties.filter fun p => !(p.barrierId = b.barrierId &&
          p.generation = b.generation && p.taskId ∈ dead)).filter fun p =>
            p.barrierId = b.barrierId) =
        (t.barrierParties.filter fun p => p.barrierId = b.barrierId).filter fun p =>
          !(p.barrierId = b.barrierId && p.generation = b.generation && p.taskId ∈ dead) := by
      rw [List.filter_filter, List.filter_filter]
      exact List.filter_congr fun p _ => Bool.and_comm _ _
    refine (order s' _).trans (Eq.trans ?_ (order s _).symm)
    rw [h.parties, h.deadParties]

theorem Unmoved.nobodyMissing (h : Unmoved b.barrierId s s') (none : s.NobodyMissing b) :
    s'.NobodyMissing b := by
  obtain ⟨s₁, shed, arrived⟩ := none.left
  rcases shed with ⟨dead, rfl⟩ | ⟨dead, policy, free, rfl⟩
  · refine ⟨s', Or.inl ⟨h.deadParties.trans dead, rfl⟩, ?_⟩
    rwa [h.liveParties]
  · refine ⟨_, Or.inr ⟨h.deadParties ▸ dead, policy, fun d hd => ?_, rfl⟩, ?_⟩
    · rw [taskDependents, h.tasks]
      exact free d (h.deadParties ▸ hd)
    · rwa [h.shrink.liveParties]

/-- At its deadline a barrier stays armed when everybody who is left has arrived. -/
theorem barrierEvalLive_armed {b₁ : Barrier} {plan : Option (List TripStep)}
    (armed : b.state = .ARMED) (found : s.getBarrier b.barrierId = some b₁)
    (armed₁ : b₁.state = .ARMED) (due : reached b.deadlineAt now = true)
    (h : barrierEvalLive now false s b = .ok (s', plan)) :
    (s'.getBarrier b.barrierId).map Barrier.state = some .ARMED ↔
      ∀ p ∈ liveParties s b, p.arrived = true := by
  rw [barrierEvalLive] at h
  split at h
  · rename_i missing
    rw [Outcome.bind_eq_ok] at h
    obtain ⟨s₁, h₁, h⟩ := h
    cases h
    rw [breakBarrier_broken armed found h₁]
    refine iff_of_false (by decide) fun all => ?_
    obtain ⟨p, hp, absent⟩ := List.any_eq_true.mp missing.2
    rw [all p hp] at absent
    cases absent
  · rename_i present
    rw [if_neg (by simp)] at h
    cases h
    rw [found]
    refine iff_of_true (congrArg some armed₁) fun p hp => ?_
    by_contra absent
    refine present ⟨due, List.any_eq_true.mpr ⟨p, hp, ?_⟩⟩
    simpa using absent

/-- At its deadline a barrier stays armed when nobody is missing. -/
theorem barrierEval_armed {plan : Option (List TripStep)} (armed : b.state = .ARMED)
    (found : s.getBarrier b.barrierId = some b) (due : reached b.deadlineAt now = true)
    (h : barrierEval now s b.barrierId false = .ok (s', plan)) :
    (s'.getBarrier b.barrierId).map Barrier.state = some .ARMED ↔ s.NobodyMissing b := by
  rw [barrierEval, found] at h
  dsimp only at h
  rw [if_neg (by simp [armed])] at h
  split at h
  · rename_i dead
    rw [barrierEvalLive_armed armed found armed due h]
    constructor
    · exact fun all => ⟨s, Or.inl ⟨dead, rfl⟩, all⟩
    · rintro ⟨s₁, ⟨-, rfl⟩ | ⟨some, -⟩, all⟩
      · exact all
      · exact absurd dead some
  rename_i dead
  split at h
  · rename_i shed
    have free : ∀ d ∈ deadParties s b, taskDependents s d.taskId = [] := fun d hd => by
      simpa using List.all_eq_true.mp shed.2 d hd
    have found₁ : (shrinkBarrier s b).getBarrier b.barrierId =
        some { b with parties := (liveParties s b).length } := by
      rw [getBarrier_shrinkBarrier, found]
      rfl
    rw [barrierEvalLive_armed armed found₁ armed due h]
    constructor
    · exact fun all => ⟨_, Or.inr ⟨dead, shed.1, free, rfl⟩, all⟩
    · rintro ⟨s₁, ⟨none, -⟩ | ⟨-, -, -, rfl⟩, all⟩
      · exact absurd none dead
      · exact all
  · rename_i kept
    rw [Outcome.bind_eq_ok] at h
    obtain ⟨s₁, h₁, h⟩ := h
    cases h
    rw [breakBarrier_broken armed found h₁]
    refine iff_of_false (by decide) fun none_missing => ?_
    obtain ⟨s₁, shed, -⟩ := none_missing
    rcases shed with ⟨none, -⟩ | ⟨-, policy, free, -⟩
    · exact dead none
    · refine kept ⟨policy, List.all_eq_true.mpr fun d hd => ?_⟩
      rw [free d hd]
      rfl

/-! ## The sweep -/

theorem barrierEvalAll_unmoved {ids : List BarrierId} (other : id ∉ ids)
    (h : barrierEvalAll now ids s = .ok s') : Unmoved id s s' := by
  refine Outcome.foldlM_induction (P := fun t => Unmoved id s t) (.refl s) ?_ h
  intro id' hid t t' before h
  rw [Outcome.bind_eq_ok] at h
  obtain ⟨⟨t₁, plan⟩, eval, h⟩ := h
  cases h
  refine before.trans (unmoved_barrierEval ?_ eval)
  rintro rfl
  exact other hid

theorem barrierEvalAll_armed {ids : List BarrierId} (distinct : ids.Nodup)
    (armed : b.state = .ARMED) (found : s.getBarrier b.barrierId = some b)
    (due : reached b.deadlineAt now = true)
    (mem : b.barrierId ∈ ids) (h : barrierEvalAll now ids s = .ok s') :
    (s'.getBarrier b.barrierId).map Barrier.state = some .ARMED ↔ s.NobodyMissing b := by
  induction ids generalizing s with
  | nil => cases mem
  | cons id ids ih =>
      rw [barrierEvalAll, List.foldlM_cons, Outcome.bind_eq_ok] at h
      obtain ⟨s₁, eval, h⟩ := h
      rw [Outcome.bind_eq_ok] at eval
      obtain ⟨⟨s₂, plan⟩, eval, same⟩ := eval
      cases same
      obtain ⟨absent, distinct⟩ := List.nodup_cons.mp distinct
      by_cases hid : b.barrierId = id
      · subst hid
        have rest : Unmoved b.barrierId s₂ s' := barrierEvalAll_unmoved absent h
        rw [rest.row]
        exact barrierEval_armed armed found due eval
      · have first : Unmoved b.barrierId s s₂ := unmoved_barrierEval hid eval
        rw [ih distinct (first.row.trans found) ((List.mem_cons.mp mem).resolve_left hid) h]
        exact ⟨first.symm.nobodyMissing, first.nobodyMissing⟩

/-- The sweep leaves its barriers as their evaluation does. -/
theorem sweepInline_barriers (h : sweepInline cfg now s = .ok s') :
    ∃ s₁ s₂, sweepBefore cfg now s = .ok s₁ ∧ barrierEvalAll now
      ((s₁.barriers.filter fun b => b.state = .ARMED).map Barrier.barrierId) s₁ = .ok s₂ ∧
        s'.barriers = s₂.barriers := by
  rw [sweepInline, Outcome.bind_eq_ok] at h
  obtain ⟨t₁, h₁, h⟩ := h
  rw [sweepSide, Outcome.bind_eq_ok] at h
  obtain ⟨t₂, h₂, h⟩ := h
  rw [Outcome.bind_eq_ok] at h
  obtain ⟨t₃, h₃, h⟩ := h
  rw [Outcome.bind_eq_ok] at h
  obtain ⟨t₄, h₄, h⟩ := h
  cases h
  refine ⟨t₃, t₄, ?_, h₄, ?_⟩
  · rw [sweepBefore, Outcome.bind_eq_ok]
    refine ⟨t₁, h₁, ?_⟩
    rw [Outcome.bind_eq_ok]
    exact ⟨t₂, h₂, h₃⟩
  · cases cfg.idemTtl <;> cases cfg.terminalRetention <;> rfl

/-- A barrier is armed exactly when the row that is found is. -/
theorem Store.Ok.disarmed (ok : s.Ok) : (∀ b' ∈ s.barriers, b'.barrierId = id →
    b'.state ≠ .ARMED) ↔ (s.getBarrier id).map Barrier.state ≠ some .ARMED := by
  constructor
  · intro none armed
    obtain ⟨b', hget, state⟩ := Option.map_eq_some_iff.mp armed
    exact none b' (Table.mem_of_get hget) (Table.key_of_get hget) state
  · rintro none b' hb' rfl armed
    rw [Store.getBarrier, ok.barrierIds.get_of_mem hb'] at none
    exact none (congrArg some armed)

/-- A sweep at or after the deadline of a barrier ends it, unless the barrier is armed when the
sweep comes to it and nobody is missing.  So it was before the sweep, if nothing else was due. -/
theorem overdue_disarmed_iff {σ : Sys} (reachable : Reachable cfg σ) (hb : b ∈ σ.store.barriers)
    {d : Time} (deadline : b.deadlineAt = some d) (due : d ≤ now)
    (h : sweepInline cfg now σ.store = .ok s') :
    ∃ s₁, sweepBefore cfg now σ.store = .ok s₁ ∧
      ((∀ b' ∈ s'.barriers, b'.barrierId = b.barrierId → b'.state ≠ .ARMED) ↔
        ∀ b₁ ∈ s₁.barriers, b₁.barrierId = b.barrierId → b₁.state = .ARMED →
          ¬ s₁.NobodyMissing b₁) ∧
      (σ.store.Quiet cfg now → s₁ = σ.store) := by
  have ok : σ.store.Ok := reachable.ok.store
  have ok' : s'.Ok := ok.moves (sweepInline_takes_free h ok)
  obtain ⟨s₁, s₂, before, eval, same⟩ := sweepInline_barriers h
  refine ⟨s₁, before, ?_, fun quiet => Except.ok.inj (before.symm.trans quiet.sweepBefore)⟩
  have moves := sweepBefore_moves ok before
  have ok₁ : s₁.Ok := ok.moves moves
  obtain ⟨b₁, hb₁, id, deadline₁⟩ := moves.barrier hb
  have due₁ : reached b₁.deadlineAt now = true := by
    rw [deadline₁, deadline]
    exact decide_eq_true due
  have found : s₁.getBarrier b₁.barrierId = some b₁ := ok₁.barrierIds.get_of_mem hb₁
  have row : s'.getBarrier b.barrierId = s₂.getBarrier b₁.barrierId := by
    rw [Store.getBarrier, same, id]
    rfl
  rw [ok'.disarmed, row]
  constructor
  · intro ended b₂ hb₂ id₂ armed none
    cases ok₁.barrier_eq hb₁ hb₂ (id.trans id₂.symm)
    refine ended ((barrierEvalAll_armed ?_ armed found due₁ ?_ eval).mpr none)
    · exact (ok₁.barrierIds.filter _)
    · exact List.mem_map_of_mem (List.mem_filter.mpr ⟨hb₁, decide_eq_true armed⟩)
  · intro missing ended
    by_cases armed : b₁.state = .ARMED
    · refine missing b₁ hb₁ id armed ((barrierEvalAll_armed ?_ armed found due₁ ?_ eval).mp ended)
      · exact (ok₁.barrierIds.filter _)
      · exact List.mem_map_of_mem (List.mem_filter.mpr ⟨hb₁, decide_eq_true armed⟩)
    · have left : Unmoved b₁.barrierId s₁ s₂ := by
        refine barrierEvalAll_unmoved (fun mem => ?_) eval
        obtain ⟨b₂, hb₂, id₂⟩ := List.mem_map.mp mem
        obtain ⟨hb₂, armed₂⟩ := List.mem_filter.mp hb₂
        cases ok₁.barrier_eq hb₁ hb₂ id₂.symm
        exact armed (of_decide_eq_true armed₂)
      rw [left.row, found] at ended
      exact armed (Option.some.inj ended)

/-! ## A barrier that breaks, and one that stays -/

/-- Two parties of a barrier whose deadline is at 13; the first arrives. -/
def halfArrived (policy : BarrierPolicy) : List (Env × Action) :=
  [ (Action.call (.declare { taskId := "T", writes := ["a"] })).at 1,
    (Action.call (.declare { taskId := "U", writes := ["b"] })).at 1,
    (Action.call (.claim { agentId := "A", pathspec := ["a"], taskId := some "T" })).at 2,
    (Action.call (.claim { agentId := "B", pathspec := ["b"], taskId := some "U" })).at 2,
    (Action.call (.barrierDeclare "x" ["T", "U"] policy (some 10))).at 3,
    (Action.arrive { name := "x", agentId := "A", taskId := "T" }).at 4,
    (Action.resume 0 {}).at 4,
    (Action.resume 0 {}).at 4 ]

/-- The barriers that a sweep leaves. -/
def sweptBarriers (cfg : Cfg) (now : Time) (s : Store) : Option (List Barrier) :=
  (sweepInline cfg now s).toOption.map Store.barriers

/-- The other party does not come. -/
theorem halfArrived_breaks : ∃ σ, Reachable {} σ ∧
    (∃ b ∈ σ.store.barriers, b.state = .ARMED ∧ b.deadlineAt = some 13) ∧
    sweepBefore {} 20 σ.store = .ok σ.store ∧ ∀ b₁ ∈ σ.store.barriers,
      b₁.barrierId = ("x", 0) → b₁.state = .ARMED → ¬ σ.store.NobodyMissing b₁ := by
  have run : ∃ σ, Reachable {} σ ∧
      (∃ b ∈ σ.store.barriers, b.state = .ARMED ∧ b.deadlineAt = some 13 ∧
        b.barrierId = ("x", 0)) ∧
      σ.store.Quiet {} 20 ∧
      ((sweptBarriers {} 20 σ.store).any fun bs => bs.all fun b => b.state ≠ .ARMED) = true :=
    exists_reachable (halfArrived .break_) (by decide +kernel)
  obtain ⟨σ, reachable, ⟨b, hb, armed, deadline, id⟩, quiet, swept⟩ := run
  cases h : sweepInline {} 20 σ.store with
  | error e => simp [sweptBarriers, h, Except.toOption] at swept
  | ok s' =>
      simp only [sweptBarriers, h, Except.toOption, Option.map_some, Option.any_some,
        List.all_eq_true, decide_eq_true_eq] at swept
      obtain ⟨s₁, before, ends, same⟩ :=
        overdue_disarmed_iff reachable hb deadline (by norm_num) h
      rw [same quiet] at before ends
      refine ⟨σ, reachable, ⟨b, hb, armed, deadline⟩, before, ?_⟩
      rw [← id]
      exact ends.mp fun b' hb' _ => swept b' hb'

/-- The other party gives up its lease. -/
def shedParty : List (Env × Action) :=
  halfArrived .shrink ++ [(Action.call (.release 1 "B" (some 2) none none)).at 5]

/-- The other party dies, and nobody is missing any more. -/
theorem halfArrived_stays : ∃ σ, Reachable {} σ ∧
    (∃ b ∈ σ.store.barriers, b.state = .ARMED ∧ b.deadlineAt = some 13) ∧
    ∃ s', sweepInline {} 20 σ.store = .ok s' ∧
      ∃ b' ∈ s'.barriers, b'.barrierId = ("x", 0) ∧ b'.state = .ARMED := by
  have run : ∃ σ, Reachable {} σ ∧
      (∃ b ∈ σ.store.barriers, b.state = .ARMED ∧ b.deadlineAt = some 13) ∧
      ((sweptBarriers {} 20 σ.store).any fun bs => bs.any fun b =>
        b.barrierId = ("x", 0) && b.state = .ARMED) = true :=
    exists_reachable shedParty (by decide +kernel)
  obtain ⟨σ, reachable, armed, swept⟩ := run
  refine ⟨σ, reachable, armed, ?_⟩
  cases h : sweepInline {} 20 σ.store with
  | error e => simp [sweptBarriers, h, Except.toOption] at swept
  | ok s' =>
      simp only [sweptBarriers, h, Except.toOption, Option.map_some, Option.any_some,
        List.any_eq_true, Bool.and_eq_true, decide_eq_true_eq] at swept
      exact ⟨s', rfl, swept⟩

end Omd
