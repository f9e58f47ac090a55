import Omd.Effects.Flags
import Omd.Slots

/-!
# The effect of a reconciliation

Expiry, timeout, denial, promotion, the reclaim of an agent and the sweep, each as a run of
changes.  The reclaim of an agent is a group of its own, so the sweep is a run of moves.
-/

namespace Omd

open Lib

variable {c : Scope} {E : TaskId → Prop} {s s' : Store}

/-! ## Snapshots -/

theorem distinct_insertionSort {r : Orbit → Orbit → Prop} [DecidableRel r] {xs : List Orbit}
    (h : Table.Distinct Orbit.orbitId xs) :
    Table.Distinct Orbit.orbitId (xs.insertionSort r) :=
  ((List.perm_insertionSort r xs).map Orbit.orbitId).nodup_iff.mpr h

theorem mem_pendingOrbits {o : Orbit} :
    o ∈ s.pendingOrbits ↔ o ∈ s.orbits ∧ o.isPending = true := by
  rw [Store.pendingOrbits, List.mem_insertionSort, List.mem_filter]

theorem mem_heldOrbits {o : Orbit} : o ∈ s.heldOrbits ↔ o ∈ s.orbits ∧ o.isHeld = true :=
  List.mem_filter

theorem mem_orderedPending {cfg : Cfg} {now : Time} {o : Orbit} :
    o ∈ orderedPending cfg s now ↔ o ∈ s.orbits ∧ o.isPending = true := by
  rw [orderedPending, List.mem_insertionSort, mem_pendingOrbits]

theorem isPending_iff {o : Orbit} : o.isPending = true ↔ o.state = .PENDING ∧ o.kind = .orbit := by
  simp [Orbit.isPending]

theorem isHeld_iff {o : Orbit} : o.isHeld = true ↔ o.state = .HELD ∧ o.kind = .orbit := by
  simp [Orbit.isHeld]

theorem isDue_iff {o : Orbit} {now : Time} : o.isDue now = true ↔
    o.kind = .orbit ∧ o.state = .HELD ∧ o.merging = false ∧ reached o.expiresAt now = true := by
  simp [Orbit.isDue, Orbit.isHeld]
  tauto

theorem Store.Ok.distinct_pendingOrbits (ok : s.Ok) :
    Table.Distinct Orbit.orbitId s.pendingOrbits :=
  distinct_insertionSort (ok.orbitIds.filter _)

/-- The transitions of the orbit machine that the loops ask for. -/
theorem advanceOrbit_eq {state state' : OrbitState} {trigger : OrbitTrigger}
    (h : advanceOrbit state trigger = .ok state') : orbitTransition state trigger = some state' :=
  legal_eq_ok.mp h

/-! ## Expiry, timeout, denial -/

theorem expireOrbit_wrote {o : Orbit} (due : o.isDue c.now = true)
    (h : expireOrbit c.now s o = .ok s') : Wrote c E s o s' := by
  rw [expireOrbit, Outcome.bind_eq_ok] at h
  obtain ⟨s₁, h₁, h⟩ := h
  obtain ⟨id, target, hid, htarget, h₁⟩ := reduceOrbitLifecycle_spec h₁
  cases htarget
  cases h
  exact .reduced (.refl s) h₁ hid rfl (isDue_iff.mp due).1 rfl rfl rfl
    ⟨rfl, .expire due rfl,
      fun _ => .released (by simp [Orbit.live, (isDue_iff.mp due).2.1]) rfl rfl rfl⟩

theorem expireDue_keeps (h : expireDue c.now s = .ok s') : Keeps c E s s' := by
  refine Keeps.foldlM (fun ok => ok.orbitIds.filter _)
    (fun o ho => List.mem_of_mem_filter ho) ?_ h
  intro o ho s₁ s₂ _ _ _ h₁
  exact expireOrbit_wrote (List.mem_filter.mp ho).2 h₁

theorem timeoutOrbit_wrote {o : Orbit} (pending : o.isPending = true)
    (h : timeoutOrbit c.now s o = .ok s') : Wrote c E s o s' := by
  obtain ⟨state, kind⟩ := isPending_iff.mp pending
  rw [timeoutOrbit, Outcome.bind_eq_ok] at h
  obtain ⟨id, hid, h⟩ := h
  rw [Outcome.bind_eq_ok] at h
  obtain ⟨s₁, h₁, h⟩ := h
  cases h
  exact .reduced (.refl s) (assertAdmissionProjection_spec h₁) hid (by rw [state]; rfl) kind rfl
    rfl rfl ⟨rfl, .deny state rfl, fun _ => .released (by simp [Orbit.live, state]) rfl rfl rfl⟩

theorem timeoutPending_keeps (h : timeoutPending c.now s = .ok s') : Keeps c E s s' := by
  have hmem : ∀ o ∈ s.duePendingOrbits c.now, o ∈ s.orbits ∧ o.isPending = true := by
    intro o ho
    rw [Store.duePendingOrbits, List.mem_insertionSort, List.mem_filter, Bool.and_eq_true] at ho
    exact ⟨ho.1, ho.2.1⟩
  refine Keeps.foldlM (fun ok => distinct_insertionSort (ok.orbitIds.filter _))
    (fun o ho => (hmem o ho).1) ?_ h
  intro o ho s₁ s₂ _ _ _ h₁
  exact timeoutOrbit_wrote (hmem o ho).2 h₁

theorem victimOf_mem {os : List Orbit} {v : Orbit} (h : victimOf os = some v) : v ∈ os := by
  induction os generalizing v with
  | nil => cases h
  | cons o os ih =>
      rw [victimOf] at h
      split at h
      · cases h
        exact List.mem_cons_self ..
      · rename_i w hw
        dsimp only at h
        split at h
        · cases h
          exact List.mem_cons_self ..
        · cases h
          exact List.mem_cons_of_mem _ (ih hw)

/-- A wait is asserted by a queued row. -/
theorem waitFor_pending {cfg : Cfg} {now : Time} {waits : List Wait}
    (h : waitFor cfg s now = .ok waits) {w : Wait} (hw : w ∈ waits) :
    ∃ p ∈ s.pendingOrbits, w.orbitId = p.orbitId := by
  rw [waitFor, Outcome.bind_eq_ok] at h
  obtain ⟨lists, hlists, h⟩ := h
  cases h
  obtain ⟨l, hl, hw⟩ := List.mem_flatten.mp hw
  obtain ⟨p, hp, hpl⟩ := Outcome.exists_of_mapM_ok_mem hlists l hl
  refine ⟨p, hp, ?_⟩
  rw [waitsOf] at hpl
  split at hpl
  · cases hpl
    cases hw
  · rw [Outcome.bind_eq_ok] at hpl
    obtain ⟨request, -, hpl⟩ := hpl
    rw [Outcome.bind_eq_ok] at hpl
    obtain ⟨decision, -, hpl⟩ := hpl
    cases hpl
    obtain ⟨id, -, hid⟩ := List.mem_filterMap.mp hw
    split at hid
    · cases hid
    · split at hid
      · cases hid
        rfl
      · cases hid

theorem mem_cycleSources {cfg : Cfg} {now : Time} {waits : List Wait} {cycle : List AgentId}
    {o : Orbit} (ok : s.Ok) (hwaits : waitFor cfg s now = .ok waits)
    (h : o ∈ cycleSources s waits cycle) : o ∈ s.orbits ∧ o.isPending = true := by
  rw [cycleSources, List.mem_filter, List.mem_filterMap] at h
  obtain ⟨⟨id, hid, hget⟩, -⟩ := h
  obtain ⟨w, hw, rfl⟩ := List.mem_map.mp (List.mem_dedup.mp hid)
  obtain ⟨p, hp, hwp⟩ := waitFor_pending hwaits (List.mem_filter.mp hw).1
  obtain ⟨hps, hpending⟩ := mem_pendingOrbits.mp hp
  obtain ⟨ho, hoid⟩ := ok.getOrbit.mp hget
  cases ok.orbit_eq ho hps (hoid.trans hwp)
  exact ⟨ho, hpending⟩

theorem denyVictim_wrote {reason : TerminalReason} {victim : Orbit}
    (pending : victim.isPending = true)
    (h : denyVictim c.cfg c.now reason s victim = .ok s') : Wrote c E s victim s' := by
  obtain ⟨state, kind⟩ := isPending_iff.mp pending
  rw [denyVictim, Outcome.bind_eq_ok] at h
  obtain ⟨decision, -, h⟩ := h
  rw [Outcome.bind_eq_ok] at h
  obtain ⟨id, hid, h⟩ := h
  rw [Outcome.bind_eq_ok] at h
  obtain ⟨s₁, h₁, h⟩ := h
  cases h
  exact .reduced (.refl s) (assertAdmissionProjection_spec h₁) hid (by rw [state]; rfl) kind rfl
    rfl rfl ⟨rfl, .deny state rfl, fun _ => .released (by simp [Orbit.live, state]) rfl rfl rfl⟩

theorem denyCyclesLoop_keeps {reason : TerminalReason} {fuel : ℕ}
    (h : denyCyclesLoop c.cfg c.now reason fuel s = .ok s') : Keeps c E s s' := by
  induction fuel generalizing s with
  | zero => cases h
  | succ fuel ih =>
      intro ok
      rw [denyCyclesLoop, Outcome.bind_eq_ok] at h
      obtain ⟨waits, hwaits, h⟩ := h
      split at h
      · cases h
        exact ⟨.refl, rfl⟩
      · split at h
        · cases h
        · rename_i victim hvictim
          rw [Outcome.bind_eq_ok] at h
          obtain ⟨s₁, h₁, h⟩ := h
          obtain ⟨hmem, hpending⟩ := mem_cycleSources ok hwaits (victimOf_mem hvictim)
          exact ((denyVictim_wrote hpending h₁).keeps hmem).trans (ih h) ok

theorem denyReservationCycles_keeps {reason : TerminalReason}
    (h : denyReservationCycles c.cfg c.now s reason = .ok s') : Keeps c E s s' :=
  denyCyclesLoop_keeps h

/-! ## Promotion -/

theorem pendingOwnerFresh_working {cfg : Cfg} {o : Orbit} {now : Time}
    (h : pendingOwnerFresh cfg s o now = true) :
    ∃ a ∈ s.agents, a.agentId = o.agentId ∧ a.state = .WORKING := by
  rw [pendingOwnerFresh] at h
  split at h
  · cases h
  · rename_i a hget
    split at h
    · cases h
    · rename_i hworking
      exact ⟨a, Table.mem_of_get hget, Table.key_of_get hget, not_not.mp hworking⟩

theorem grantPromotion_wrote {o : Orbit} {d : AdmissionDecision} (pending : o.isPending = true)
    (owner : ∃ a ∈ s.agents, a.agentId = o.agentId ∧ a.state = .WORKING)
    (decision : admissionDecisionOf c.cfg s o c.now = .ok d) (grantable : d.grantable = true)
    (h : grantPromotion c.now s o = .ok s') : Wrote c E s o s' := by
  obtain ⟨state, kind⟩ := isPending_iff.mp pending
  rw [grantPromotion, Outcome.bind_eq_ok] at h
  obtain ⟨id, hid, h⟩ := h
  rw [Outcome.bind_eq_ok] at h
  obtain ⟨s₁, h₁, h⟩ := h
  cases h
  exact .reduced (frame_bumpFence s) (assertAdmissionProjection_spec h₁) hid (by rw [state]; rfl)
    kind rfl rfl rfl
    ⟨rfl, .promote pending rfl rfl owner ⟨d, decision, grantable⟩, fun _ => .same rfl rfl⟩

theorem blockPromotion_wrote {o : Orbit} {d : AdmissionDecision} (pending : o.isPending = true)
    (h : blockPromotion s o d = .ok s') : Wrote c E s o s' := by
  rw [blockPromotion, Outcome.bind_eq_ok] at h
  obtain ⟨id, -, h⟩ := h
  rw [Outcome.bind_eq_ok] at h
  obtain ⟨s₁, h₁, h⟩ := h
  cases h
  rw [(assertAdmissionProjection_spec h₁).silent rfl]
  exact .silent (.refl s) (.silent fun _ => ⟨rfl, Or.inr (Or.inr rfl)⟩)
    ⟨rfl, .keep rfl rfl rfl (fun _ => Or.inl rfl) (fun ended => by
      rw [Orbit.live, (isPending_iff.mp pending).1] at ended
      cases ended), fun _ => .same rfl rfl⟩

theorem promoteOrbit_wrote {o : Orbit} (pending : o.isPending = true)
    (h : promoteOrbit c.cfg c.now s o = .ok s') : Wrote c E s o s' := by
  rw [promoteOrbit] at h
  split at h
  · cases h
    exact .nothing (.refl s)
  · split at h
    · cases h
      exact .nothing (.refl s)
    · rename_i hfresh
      split at h
      · cases h
        exact .nothing (.refl s)
      · rw [Outcome.bind_eq_ok] at h
        obtain ⟨d, hd, h⟩ := h
        split at h
        · rename_i hgrantable
          exact grantPromotion_wrote pending (pendingOwnerFresh_working (by simpa using hfresh)) hd
            hgrantable h
        · exact blockPromotion_wrote pending h

theorem promotePending_keeps (h : promotePending c.cfg c.now s = .ok s') : Keeps c E s s' := by
  refine Keeps.foldlM (fun ok => distinct_insertionSort ok.distinct_pendingOrbits)
    (fun o ho => (mem_orderedPending.mp ho).1) ?_ h
  intro o ho s₁ s₂ _ _ _ h₁
  exact promoteOrbit_wrote (mem_orderedPending.mp ho).2 h₁

theorem settle_keeps (h : settle c.cfg c.now s = .ok s') : Keeps c E s s' := by
  rw [settle, Outcome.bind_eq_ok] at h
  obtain ⟨s₁, h₁, h⟩ := h
  rw [Outcome.bind_eq_ok] at h
  obtain ⟨s₂, h₂, h⟩ := h
  exact ((timeoutPending_keeps h₁).trans (denyReservationCycles_keeps h₂)).trans
    (promotePending_keeps h)

/-! ## Semaphores -/

/-- The permit that is granted. -/
theorem grantPermit_eq (agent : AgentId) (sem : String) (ttl : Option ℚ) :
    ∃ o : Orbit, Frame (s.addOrbit o) (grantPermit c.cfg c.now s agent sem ttl) ∧
      o.kind = .sem_permit ∧ o.state = .HELD ∧ o.agentId = agent ∧ o.orbitId = s.uuid ∧
      o.resourceKey = some sem ∧ o.taskId = none ∧ o.intentKey = none := by
  refine ⟨_, { orbits := rfl, uuid := Nat.le_succ _, fence := Nat.le_succ _ }, ?_, ?_, ?_, ?_, ?_,
    ?_, ?_⟩ <;> rfl

/-- A permit for one who does not wait in line. -/
theorem grantPermit_keeps {agent : AgentId} {sem : String} (ttl : Option ℚ)
    (owner : s.Alive agent) (first : s.activePermitFor sem agent = none) (slot : s.HasSlot sem)
    (direct : ¬ c.may (.serve sem)) :
    Keeps c E s (grantPermit c.cfg c.now s agent sem ttl) := by
  intro _
  obtain ⟨o, frame, kind, state, hagent, id, key, untasked, intent⟩ :=
    grantPermit_eq (c := c) (s := s) agent sem ttl
  have row : NewRow c s o :=
    .permit kind state untasked (Or.inl (hagent ▸ owner)) ⟨sem, key, hagent ▸ first, slot⟩ intent
  have line : Lined c s o s.semWaiters := by
    refine .stays fun sem' _ key' => ?_
    cases key.symm.trans key'
    exact direct
  refine ⟨.single (.insert o [] row (.silent (by simp [kind])) id (Nat.lt_succ_self _)
    (fun h => ?_) (frame.semWaiters ▸ line) { frame with outbox := ?_, semWaiters := rfl }), rfl⟩
  · rw [kind] at h
    cases h
  · exact frame.outbox.trans (List.append_nil _).symm

/-- A permit for the first in line. -/
theorem servePermit_keeps {w : SemWaiter} (next : s.Next w)
    (first : s.activePermitFor w.semId w.agentId = none) :
    Keeps c E s ((grantPermit c.cfg c.now s w.agentId w.semId w.ttl).setSemWaiter w.waiterId
      fun r => { r with state := .GRANTED, permitId := some s.uuid }) := by
  intro _
  obtain ⟨o, frame, kind, state, hagent, id, key, untasked, intent⟩ :=
    grantPermit_eq (c := c) (s := s) w.agentId w.semId w.ttl
  have row : NewRow c s o :=
    .permit kind state untasked (Or.inr ⟨w, next.mem, hagent.symm, next.waiting⟩)
      ⟨w.semId, key, hagent ▸ first, next.slot⟩ intent
  have line : Lined c s o (s.granted w o.orbitId) := .served w kind key hagent next
  rw [id] at line
  refine ⟨.single (.insert o [] row (.silent (by simp [kind])) id (Nat.lt_succ_self _)
    (fun h => ?_) line { frame with outbox := ?_, semWaiters := rfl }), rfl⟩
  · rw [kind] at h
    cases h
  · exact frame.outbox.trans (List.append_nil _).symm

theorem setSemWaiter_keeps {id : ℕ} {f : SemWaiter → SemWaiter}
    (hf : ∀ w ∈ s.semWaiters, w.waiterId = id → w.GaveUp (f w)) :
    Keeps c E s (s.setSemWaiter id f) := by
  refine fun _ => ⟨.single (.waiters (.update _ (fun w hw => ?_) rfl) (.refl _)), rfl⟩
  split
  · rename_i hid
    exact Or.inr (hf w hw hid)
  · exact Or.inl rfl

/-- The line for a semaphore: those who wait for it, the first one first. -/
structure Store.Line (s : Store) (sem : String) (ws : List SemWaiter) : Prop where
  waiting : ∀ w ∈ ws, w ∈ s.semWaiters ∧ w.semId = sem ∧ w.state = .WAITING
  all : ∀ w ∈ s.semWaiters, w.semId = sem → w.state = .WAITING → w ∈ ws
  sorted : ws.Pairwise fun a b =>
    b.priority < a.priority ∨ a.priority = b.priority ∧ a.enqueuedSeq ≤ b.enqueuedSeq
  distinct : Table.Distinct SemWaiter.waiterId ws

theorem Store.Ok.line (ok : s.Ok) (sem : String) : s.Line sem (s.waitingSemWaiters sem) := by
  have mem (w : SemWaiter) : w ∈ s.waitingSemWaiters sem ↔
      w ∈ s.semWaiters ∧ w.semId = sem ∧ w.state = .WAITING := by
    rw [Store.waitingSemWaiters, List.mem_insertionSort, List.mem_filter, Bool.and_eq_true,
      decide_eq_true_eq, decide_eq_true_eq]
  refine ⟨fun w => (mem w).mp, fun w hw key waits => (mem w).mpr ⟨hw, key, waits⟩, ?_, ?_⟩
  · let r (a b : SemWaiter) : Prop :=
      b.priority < a.priority ∨ a.priority = b.priority ∧ a.enqueuedSeq ≤ b.enqueuedSeq
    have total : Std.Total r := ⟨fun a b => by simp only [r]; omega⟩
    have trans : IsTrans SemWaiter r := ⟨fun a b c => by simp only [r]; omega⟩
    exact List.pairwise_insertionSort r _
  · exact ((List.perm_insertionSort _ _).map SemWaiter.waiterId).nodup_iff.mpr
      (ok.waiterIds.filter _)

section

variable {sem : String} {w : SemWaiter} {ws : List SemWaiter}

/-- The head of the line is served when there is a slot. -/
theorem Store.Line.next (h : s.Line sem (w :: ws)) (slot : s.HasSlot sem) : s.Next w := by
  obtain ⟨mem, key, waiting⟩ := h.waiting w (List.mem_cons_self ..)
  refine ⟨mem, waiting, key.symm ▸ slot, fun r hr hkey waits => ?_⟩
  rcases List.mem_cons.mp (h.all r hr (hkey.trans key) waits) with rfl | hr
  · exact Or.inr ⟨rfl, le_rfl⟩
  · exact (List.pairwise_cons.mp h.sorted).1 r hr

/-- Behind the head of the line, once it was served, the line is as it was. -/
theorem Store.Line.tail (h : s.Line sem (w :: ws)) {s₁ : Store} {permit : OrbitId}
    (rows : s₁.semWaiters = s.granted w permit) : s₁.Line sem ws := by
  have distinct := h.distinct
  rw [Table.Distinct, List.map_cons, List.nodup_cons] at distinct
  refine ⟨fun r hr => ?_, fun r hr key waits => ?_, (List.pairwise_cons.mp h.sorted).2, distinct.2⟩
  · obtain ⟨mem, key, waits⟩ := h.waiting r (List.mem_cons_of_mem _ hr)
    refine ⟨rows ▸ Table.mem_modify.mpr (Or.inl ⟨mem, fun hid => distinct.1 ?_⟩), key, waits⟩
    exact hid ▸ List.mem_map_of_mem hr
  · rcases Table.mem_modify.mp (rows ▸ hr) with ⟨mem, other⟩ | ⟨r₀, -, -, rfl⟩
    · rcases List.mem_cons.mp (h.all r mem key waits) with rfl | hr
      · exact absurd rfl other
      · exact hr
    · cases waits

end

/-- The line is served in order, until it or the slots are at an end. -/
theorem promoteSemWaitersLoop_serves {sem : Semaphore} {ws : List SemWaiter}
    (row : s.getSemaphore sem.semId = some sem) (line : s.Line sem.semId ws) :
    Keeps c E s (promoteSemWaitersLoop c.cfg c.now sem ws s) ∧
      (promoteSemWaitersLoop c.cfg c.now sem ws s).ServedAt sem.semId := by
  induction ws generalizing s with
  | nil =>
      refine ⟨.refl s, fun w hw key waits => ?_⟩
      cases line.all w hw key waits
  | cons w ws ih =>
      rw [promoteSemWaitersLoop]
      split
      · rename_i full
        refine ⟨.refl s, fun _ _ _ _ slot => ?_⟩
        obtain ⟨row', found, free⟩ := slot
        cases row.symm.trans found
        exact absurd full free.not_ge
      · rename_i free
        have slot : s.HasSlot sem.semId := ⟨sem, row, not_le.mp free⟩
        have next : s.Next w := line.next slot
        have key : w.semId = sem.semId := (line.waiting w (List.mem_cons_self ..)).2.1
        split
        · rename_i permit _
          have reused : Keeps c E s (s.setSemWaiter w.waiterId fun r =>
              { r with state := .GRANTED, permitId := some permit.orbitId }) := fun _ =>
            ⟨.single (.waiters (.reuse w permit.orbitId next rfl) (.refl _)), rfl⟩
          obtain ⟨rest, served⟩ := ih (s := s.setSemWaiter w.waiterId fun r =>
            { r with state := .GRANTED, permitId := some permit.orbitId }) row (line.tail rfl)
          exact ⟨reused.trans rest, served⟩
        · rename_i first
          have granted := servePermit_keeps (c := c) (E := E) next (key.symm ▸ first)
          rw [key] at granted
          obtain ⟨rest, served⟩ := ih (s := (grantPermit c.cfg c.now s w.agentId sem.semId
            w.ttl).setSemWaiter w.waiterId fun r =>
              { r with state := .GRANTED, permitId := some s.uuid }) row (line.tail rfl)
          exact ⟨granted.trans rest, served⟩

theorem promoteSemWaiters_keeps (sem : String) :
    Keeps c E s (promoteSemWaiters c.cfg c.now s sem) := by
  intro ok
  rw [promoteSemWaiters]
  split
  · exact ⟨.refl, rfl⟩
  · rename_i row found
    cases Table.key_of_get found
    exact (promoteSemWaitersLoop_serves found (ok.line _)).1 ok

/-- A semaphore whose line was promoted is served. -/
theorem promoteSemWaiters_served {cfg : Cfg} {now : Time} (sem : String) (ok : s.Ok) :
    (promoteSemWaiters cfg now s sem).ServedAt sem := by
  rw [promoteSemWaiters]
  split
  · rename_i none
    rintro w - - - ⟨row, found, -⟩
    rw [none] at found
    cases found
  · rename_i row found
    cases Table.key_of_get found
    exact (promoteSemWaitersLoop_serves (c := .plain cfg now) (E := nobody) found (ok.line _)).2

theorem promoteSems_keeps (sems : List String) :
    Keeps c E s (sems.foldl (promoteSemWaiters c.cfg c.now) s) := by
  induction sems generalizing s with
  | nil => exact .refl s
  | cons sem sems ih => exact (promoteSemWaiters_keeps sem).trans ih

/-- A list of semaphores whose lines were promoted is served. -/
theorem promoteSems_served {cfg : Cfg} {now : Time} {sems : List String} (ok : s.Ok) :
    ∀ sem ∈ sems, (sems.foldl (promoteSemWaiters cfg now) s).ServedAt sem := by
  induction sems generalizing s with
  | nil => exact fun sem hsem => absurd hsem List.not_mem_nil
  | cons sem sems ih =>
      have ok₁ : (promoteSemWaiters cfg now s sem).Ok :=
        ok.micros (promoteSemWaiters_keeps (c := .plain cfg now) (E := nobody) sem ok).1
      intro sem' hsem
      by_cases later : sem' ∈ sems
      · exact ih ok₁ sem' later
      · rw [(List.mem_cons.mp hsem).resolve_right later]
        exact (promoteSemWaiters_served sem ok).micros ok₁
          (promoteSems_keeps (c := .plain cfg now) (E := nobody) sems ok₁).1 id

/-! ## The reclaim of one agent -/

theorem mem_heldOfKind {kind : OrbitKind} {o : Orbit} (h : o ∈ s.heldOfKind kind) :
    o ∈ s.orbits ∧ o.kind = kind ∧ o.state = .HELD := by
  simpa [Store.heldOfKind] using h

theorem Store.Ok.distinct_heldOfKind (ok : s.Ok) (kind : OrbitKind) :
    Table.Distinct Orbit.orbitId (s.heldOfKind kind) := ok.orbitIds.filter _

theorem expireHeld_wrote {o : Orbit} (kind : o.kind ≠ .orbit)
    (change : ∀ o' : Orbit, o'.state = .EXPIRED → OrbitChange c E s o o')
    (h : expireHeld c.now s o = .ok s') : Wrote c E s o s' := by
  rw [expireHeld, Outcome.bind_eq_ok] at h
  obtain ⟨state, hstate, h⟩ := h
  cases h
  cases hstate
  exact .silent (.refl s) (.silent fun h => absurd h kind)
    ⟨rfl, change _ rfl, fun h => absurd h kind⟩

/-- What the expiry of a held row leaves. -/
theorem expireHeld_row {now : Time} {o : Orbit} (ok : s.Ok) (ho : o ∈ s.orbits)
    (h : expireHeld now s o = .ok s') :
    ∃ o' ∈ s'.orbits, o'.orbitId = o.orbitId ∧ o'.state = .EXPIRED := by
  rw [expireHeld, Outcome.bind_eq_ok] at h
  obtain ⟨state, hstate, h⟩ := h
  cases h
  cases hstate
  exact ⟨_, (ok.mem_setOrbit ho _ _).mpr (Or.inr rfl), rfl, rfl⟩

theorem frame_readSignal (s : Store) (p : Prop) [Decidable p] (orbit : OrbitId) :
    Frame s (if p then clearReadStaleSignal s orbit else s) := by
  split
  · exact frame_clearReadStaleSignal s orbit
  · exact .refl s

theorem Wrote.after {s₁ : Store} {o : Orbit} (h : Wrote c E s o s₁) (frame : Frame s₁ s') :
    Wrote c E s o s' := by
  cases h with
  | nothing h => exact .nothing (h.trans frame)
  | row f news step announced h => exact .row f news step announced (h.trans frame)

/-- The event of a reclaim. -/
theorem reclaimOrbit_spec {o : Orbit} (may : c.reclaims o.agentId)
    (unpinned : c.may (.bail o.agentId) ∨ s.Unpinned o) (kind : o.kind = .orbit)
    (live : o.live = true) (ok : s.Ok) (ho : o ∈ s.orbits)
    (h : reclaimOrbit c.now s o = .ok s') : Wrote c E s o s' ∧
      ∃ o' ∈ s'.orbits, o'.orbitId = o.orbitId ∧ o'.state.terminal = true := by
  rw [reclaimOrbit] at h
  dsimp only at h
  rw [Outcome.bind_eq_ok] at h
  obtain ⟨s₁, h₁, h⟩ := h
  rw [Outcome.bind_eq_ok] at h
  obtain ⟨state, hstate, h⟩ := h
  cases h
  obtain ⟨id, target, hid, htarget, reduced⟩ := reduceOrbitLifecycle_spec h₁
  rw [Orbit.live, Bool.or_eq_true, decide_eq_true_eq, decide_eq_true_eq] at live
  -- a held row expires and a queued row is denied
  have after : state = target ∧ state.terminal = true := by
    have hstate := advanceOrbit_eq hstate
    rcases live with hs | hs <;> simp only [hs] at hstate htarget <;> cases hstate <;>
      cases htarget <;> exact ⟨rfl, rfl⟩
  have notifies : (if o.state = .HELD then AdmissionEvent.LEASE_OWNER_RECLAIMED
      else .WAIT_OWNER_RECLAIMED).notifies = true := by
    split <;> rfl
  have step (event : AdmissionEvent) (reason : TerminalReason) : OrbitStep c E s o { o with
      state := state
      releasedAt := some c.now
      merging := false
      decisionType := some event
      blockerIds := []
      terminalReason := some reason } :=
    ⟨rfl, .reclaimed may kind (by simpa [Orbit.live] using live) after.2 unpinned,
      fun _ => .released (by simpa [Orbit.live] using live)
        (Orbit.live_of_terminal after.2) rfl rfl⟩
  constructor
  · exact Wrote.after (.reduced (.refl s) reduced hid rfl kind notifies after.1 rfl (step _ _))
      (frame_readSignal _ _ _)
  · rw [(frame_readSignal _ _ _).orbits, reduced.store]
    exact ⟨_, ((ok.announce _).mem_setOrbit ho _ _).mpr (Or.inr rfl), rfl, after.2⟩

theorem reclaimFlagLease_wrote {o : Orbit} (kind : o.kind = .flag_ephemeral)
    (held : o.state = .HELD) (h : reclaimFlagLease c.now s o = .ok s') : Wrote c E s o s' := by
  have frame := frame_breakEphemeralFlagsForLease s o.orbitId
  rw [reclaimFlagLease, expireHeld, Outcome.bind_eq_ok] at h
  obtain ⟨state, hstate, h⟩ := h
  cases h
  cases hstate
  have other : o.kind ≠ .orbit := by simp [kind]
  exact .silent frame (.silent fun h => absurd h other)
    ⟨rfl, .lease kind held rfl, fun h => absurd h other⟩

theorem reclaimFlagLease_row {now : Time} {o : Orbit} (ok : s.Ok) (ho : o ∈ s.orbits)
    (h : reclaimFlagLease now s o = .ok s') :
    ∃ o' ∈ s'.orbits, o'.orbitId = o.orbitId ∧ o'.state = .EXPIRED :=
  have frame := frame_breakEphemeralFlagsForLease s o.orbitId
  expireHeld_row (frame.ok ok) (frame.orbits ▸ ho) h

theorem reclaimedState_cases {cfg : Cfg} {t : Task} {state : TaskState}
    (h : reclaimedState cfg t = .ok state) :
    state = .PENDING ∧ t.reclaims + 1 ≤ cfg.maxReclaims ∨
      state = .POISONED ∧ cfg.maxReclaims < t.reclaims + 1 := by
  rw [reclaimedState, Outcome.bind_eq_ok] at h
  obtain ⟨aborted, habort, h⟩ := h
  have : aborted = .ABORTED := by
    have habort := legal_eq_ok.mp habort
    cases hs : t.state <;> rw [hs] at habort <;> cases habort <;> rfl
  subst this
  split at h
  · rename_i often
    cases h
    exact Or.inr ⟨rfl, often⟩
  · rename_i seldom
    cases h
    exact Or.inl ⟨rfl, not_lt.mp seldom⟩

theorem reclaimTask_wrote {t : Task} {agent : AgentId} (may : c.reclaims agent)
    (owner : t.agentId = some agent) (exempt : E t.taskId)
    (h : reclaimTask c.cfg s t = .ok s') : WroteTask c E s t s' := by
  rw [reclaimTask] at h
  split at h
  · rename_i busy
    rw [Outcome.bind_eq_ok] at h
    obtain ⟨state, hstate, h⟩ := h
    cases h
    have requeued : Requeued c t
        { t with state := state, agentId := none, reclaims := t.reclaims + 1 } :=
      ⟨busy, reclaimedState_cases hstate, rfl, rfl⟩
    refine .row _ ?_ (.refl _)
    exact ⟨rfl, .same rfl rfl, Or.inr ⟨requeued, exempt⟩, id,
      .reclaim owner may exempt requeued rfl rfl⟩
  · cases h
    exact .nothing (.refl s)

theorem mem_heldBy {kind : OrbitKind} {agent : AgentId} {o : Orbit} :
    o ∈ s.heldOfKindBy kind agent ↔
      o ∈ s.orbits ∧ o.kind = kind ∧ o.state = .HELD ∧ o.agentId = agent := by
  simp only [Store.heldOfKindBy, Store.heldOfKind, List.mem_filter, Bool.and_eq_true,
    decide_eq_true_eq, and_assoc]

theorem Store.Ok.distinct_heldOfKindBy (ok : s.Ok) (kind : OrbitKind) (agent : AgentId) :
    Table.Distinct Orbit.orbitId (s.heldOfKindBy kind agent) :=
  (ok.distinct_heldOfKind kind).filter _

/-- Of the kinds that were reclaimed already nothing is held. -/
def Store.Freed (s : Store) (agent : AgentId) (kinds : List OrbitKind) : Prop :=
  ∀ o ∈ s.orbits, o.agentId = agent → o.kind ∈ kinds → o.state ≠ .HELD

/-- The reclaim of the held rows of one more kind. -/
theorem freeKind {agent : AgentId} {kind : OrbitKind} {kinds : List OrbitKind}
    {f : Store → Orbit → Except Fault Store}
    (body : ∀ o ∈ s.orbits, o.kind = kind → o.state = .HELD → o.agentId = agent → ∀ s₁ s₂, s₁.Ok →
      o ∈ s₁.orbits → f s₁ o = .ok s₂ → Wrote c E s₁ o s₂ ∧
        ∃ o' ∈ s₂.orbits, o'.orbitId = o.orbitId ∧ o'.state = .EXPIRED)
    (h : (s.heldOfKindBy kind agent).foldlM f s = .ok s') (ok : s.Ok)
    (freed : s.Freed agent kinds) :
    Looped c E s (s.heldOfKindBy kind agent) (fun _ o' => o'.state = .EXPIRED) s' ∧
      s'.Freed agent (kind :: kinds) := by
  have loop : Looped c E s (s.heldOfKindBy kind agent) (fun _ o' => o'.state = .EXPIRED) s' := by
    refine foldlM_orbits (ok.distinct_heldOfKindBy kind agent) (fun o ho => (mem_heldBy.mp ho).1) ?_
      h ok
    intro o ho s₁ s₂ ok₁ _ ho₁ h₁
    obtain ⟨mem, hkind, hheld, hagent⟩ := mem_heldBy.mp ho
    exact body o mem hkind hheld hagent s₁ s₂ ok₁ ho₁ h₁
  refine ⟨loop, fun o ho hagent hkind hheld => ?_⟩
  rcases loop.row ok ho with ⟨x, -, -, hexpired⟩ | ⟨hmem, hne⟩
  · rw [hexpired] at hheld
    cases hheld
  · rcases List.mem_cons.mp hkind with hkind | hkind
    · exact hne o (mem_heldBy.mpr ⟨hmem, hkind, hheld, hagent⟩) rfl
    · exact freed o hmem hagent hkind hheld

/-- What the reclaim of the tokens, leases, permits and waits leaves. -/
structure SideFreed (c : Scope) (E : TaskId → Prop) (agent : AgentId) (s s' : Store) : Prop where
  run : Micros c E s s'
  tasks : s'.tasks = s.tasks
  agents : s'.agents = s.agents
  freed : s'.Freed agent [.sem_permit, .flag_ephemeral, .merge_token]
  held : ∀ o ∈ s'.orbits, o.state = .HELD → o ∈ s.orbits
  waiters : ∀ w ∈ s'.semWaiters, w.agentId = agent → w.state ≠ .WAITING

/-- After the reclaim of the held rows of one kind, what is held was held before. -/
theorem Looped.heldFrom {kind : OrbitKind} {agent : AgentId}
    (h : Looped c E s (s.heldOfKindBy kind agent) (fun _ o' => o'.state = .EXPIRED) s') (ok : s.Ok)
    {o : Orbit} (ho : o ∈ s'.orbits) (held : o.state = .HELD) : o ∈ s.orbits := by
  rcases h.row ok ho with ⟨x, -, -, expired⟩ | ⟨mem, -⟩
  · cases held.symm.trans expired
  · exact mem

theorem reclaimSideLeases_spec {agent : AgentId} (may : c.reclaims agent)
    (serves : ∀ o ∈ s.heldOfKindBy .sem_permit agent, ∀ sem, o.resourceKey = some sem →
      c.may (.serve sem))
    (h : reclaimSideLeases c.now agent s = .ok s') (ok : s.Ok) : SideFreed c E agent s s' := by
  rw [reclaimSideLeases, Outcome.bind_eq_ok] at h
  obtain ⟨s₁, h₁, h⟩ := h
  rw [Outcome.bind_eq_ok] at h
  obtain ⟨s₂, h₂, h⟩ := h
  rw [Outcome.bind_eq_ok] at h
  obtain ⟨s₃, h₃, h⟩ := h
  cases h
  have freed₀ : s.Freed agent [] := by simp [Store.Freed]
  obtain ⟨tokens, freed₁⟩ := freeKind (E := E) (fun o _ hkind hheld hagent s₁ s₂ ok₁ ho h =>
    ⟨expireHeld_wrote (by simp [hkind]) (fun o' ho' =>
      .token hkind hheld (Or.inr (hagent ▸ may)) (by rw [ho']; rfl)) h, expireHeld_row ok₁ ho h⟩)
    h₁ ok freed₀
  have okT := ok.micros tokens.run
  obtain ⟨flags, freed₂⟩ := freeKind (E := E) (fun o _ hkind hheld _ s₁ s₂ ok₁ ho h =>
    ⟨reclaimFlagLease_wrote hkind hheld h, reclaimFlagLease_row ok₁ ho h⟩) h₂ okT freed₁
  have ok₂ := okT.micros flags.run
  obtain ⟨permits, freed₃⟩ := freeKind (E := E) (fun o mem hkind hheld hagent s₁ s₂ ok₁ ho h =>
    have mem : o ∈ s.orbits := tokens.heldFrom ok (flags.heldFrom okT mem hheld) hheld
    have serves := serves o (mem_heldBy.mpr ⟨mem, hkind, hheld, hagent⟩)
    ⟨expireHeld_wrote (by simp [hkind]) (fun o' ho' => .permit hkind hheld
      (Or.inr (Or.inl (hagent ▸ may))) serves (by rw [ho']; rfl)) h, expireHeld_row ok₁ ho h⟩)
    h₃ ok₂ freed₂
  have waiters : Micro c E s₃ (s₃.cancelSemWaiters agent) := by
    refine .waiters (.update _ (fun w _ => ?_) rfl) (.refl _)
    split
    · rename_i own
      exact Or.inr ⟨rfl, by simp [own.2], Or.inl rfl⟩
    · exact Or.inl rfl
  refine ⟨((tokens.run.trans flags.run).trans permits.run).tail waiters,
    permits.tasks.trans (flags.tasks.trans tokens.tasks),
    permits.agents.trans (flags.agents.trans tokens.agents), freed₃, fun o ho held =>
      tokens.heldFrom ok (flags.heldFrom okT (permits.heldFrom ok₂ ho held) held) held, ?_⟩
  intro w hw hagent hwaiting
  obtain ⟨w₀, -, rfl⟩ := List.mem_map.mp hw
  by_cases hc : w₀.agentId = agent ∧ w₀.state = .WAITING
  · rw [if_pos hc] at hwaiting
    cases hwaiting
  · rw [if_neg hc] at hagent hwaiting
    exact hc ⟨hagent, hwaiting⟩

/-- The path orbits of a reclaimed agent end, and what was freed before stays free. -/
theorem reclaimOrbits_spec {agent : AgentId} {kinds : List OrbitKind} (may : c.reclaims agent)
    (unpinned : c.may (.bail agent) ∨ ∀ o ∈ s.orbits, o.agentId = agent → s.Unpinned o)
    (h : (s.orbitsOwnedByAgent agent).foldlM (reclaimOrbit c.now) s = .ok s') (ok : s.Ok)
    (freed : s.Freed agent kinds) (path : .orbit ∉ kinds) :
    Looped c E s (s.orbitsOwnedByAgent agent) (fun _ o' => o'.state.terminal = true) s' ∧
      s'.Freed agent (.orbit :: kinds) ∧
      ∀ o ∈ s'.orbits, o.agentId = agent → o.isPending = false := by
  have hmem : ∀ o, o ∈ s.orbitsOwnedByAgent agent ↔
      o ∈ s.orbits ∧ o.agentId = agent ∧ o.kind = .orbit ∧ o.live = true := by
    intro o
    simp only [Store.orbitsOwnedByAgent, Orbit.live, List.mem_filter, Bool.and_eq_true,
      decide_eq_true_eq, and_assoc]
  have loop : Looped c E s (s.orbitsOwnedByAgent agent)
      (fun _ o' => o'.state.terminal = true) s' := by
    refine foldlM_orbits (ok.orbitIds.filter _) (fun o ho => ((hmem o).mp ho).1) ?_ h ok
    intro o ho s₁ s₂ ok₁ tasks ho₁ h₁
    obtain ⟨hmem, hagent, hkind, hlive⟩ := (hmem o).mp ho
    refine reclaimOrbit_spec (hagent ▸ may) ?_ hkind hlive ok₁ ho₁ h₁
    rcases unpinned with bails | unpinned
    · exact Or.inl (hagent ▸ bails)
    · exact Or.inr fun t ht => unpinned o hmem hagent t (tasks ▸ ht)
  have dead : ∀ o ∈ s'.orbits, o.agentId = agent → o.kind = .orbit → o.live = false := by
    intro o ho hagent hkind
    rcases loop.row ok ho with ⟨x, -, -, hterminal⟩ | ⟨ho, hne⟩
    · cases hs : o.state <;> rw [hs] at hterminal <;> simp_all [Orbit.live, OrbitState.terminal]
    · rw [Bool.eq_false_iff]
      exact fun hlive => hne o ((hmem o).mpr ⟨ho, hagent, hkind, hlive⟩) rfl
  refine ⟨loop, fun o ho hagent hkind hheld => ?_, fun o ho hagent => ?_⟩
  · rcases List.mem_cons.mp hkind with hkind | hkind
    · simpa [Orbit.live, hheld] using dead o ho hagent hkind
    · rcases loop.row ok ho with ⟨x, hx, hid, -⟩ | ⟨hmem', -⟩
      · obtain ⟨o₀, ho₀, hrow⟩ := loop.back o ho
        have same := ok.orbit_eq ho₀ ((hmem x).mp hx).1 (hrow.orbitId.symm.trans hid.symm)
        rw [hrow.kind, same, ((hmem x).mp hx).2.2.1] at hkind
        exact path hkind
      · exact freed o hmem' hagent hkind hheld
  · rw [Bool.eq_false_iff]
    intro hpending
    obtain ⟨hstate, hkind⟩ := isPending_iff.mp hpending
    simpa [Orbit.live, hstate] using dead o ho hagent hkind

/-- What the reclaim of the tasks of an agent leaves. -/
structure TasksFreed (c : Scope) (E : TaskId → Prop) (agent : AgentId) (s s' : Store) : Prop where
  run : Micros c E s s'
  orbits : s'.orbits = s.orbits
  agents : s'.agents = s.agents
  semWaiters : s'.semWaiters = s.semWaiters
  rows : ∀ t' ∈ s'.tasks,
    t' ∈ s.tasks ∧ (t'.agentId = some agent → t'.state.inProgress = false) ∨
      ∃ t ∈ s.tasks, t'.taskId = t.taskId ∧ t.agentId = some agent ∧ Requeued c t t'

theorem Requeued.idle {t t' : Task} (h : Requeued c t t') : t'.state.inProgress = false := by
  rcases h.state with ⟨state, -⟩ | ⟨state, -⟩
  · rw [state]
    rfl
  · rw [state]
    rfl

theorem reclaimTasks_spec {agent : AgentId} (may : c.reclaims agent)
    (exempt : ∀ t ∈ s.tasks, t.agentId = some agent → E t.taskId)
    (h : reclaimTasks c.cfg c.now agent s = .ok s') (ok : s.Ok) : TasksFreed c E agent s s' := by
  rw [reclaimTasks, Outcome.bind_eq_ok] at h
  obtain ⟨s₁, h₁, h⟩ := h
  have hmem : ∀ t, t ∈ s.tasksForAgent agent ↔ t ∈ s.tasks ∧ t.agentId = some agent := by
    intro t
    simp [Store.tasksForAgent]
  have frame := frame_barrierEvalAll h
  have body : ∀ t ∈ s.tasksForAgent agent, ∀ s₂ s₃, s₂.Ok → t ∈ s₂.tasks →
      reclaimTask c.cfg s₂ t = .ok s₃ → WroteTask c E s₂ t s₃ ∧ ∃ t' ∈ s₃.tasks,
        t'.taskId = t.taskId ∧ (t' = t ∧ t.state.inProgress = false ∨ Requeued c t t') := by
    intro t ht s₂ s₃ ok₂ ht₂ hstep
    obtain ⟨hts, howner⟩ := (hmem t).mp ht
    have wrote := reclaimTask_wrote (E := E) may howner (exempt t hts howner) hstep
    refine ⟨wrote, ?_⟩
    rw [reclaimTask] at hstep
    split at hstep
    · rename_i busy
      rw [Outcome.bind_eq_ok] at hstep
      obtain ⟨state, hstate, hstep⟩ := hstep
      cases hstep
      exact ⟨_, (ok₂.mem_setTask ht₂ _ _).mpr (Or.inr rfl), rfl,
        Or.inr ⟨busy, reclaimedState_cases hstate, rfl, rfl⟩⟩
    · rename_i idle
      cases hstep
      exact ⟨t, ht₂, rfl, Or.inl ⟨rfl, by simpa using idle⟩⟩
  have loop := foldlM_tasks (E := E) (ok.taskIds.filter _) (fun t ht => ((hmem t).mp ht).1) body
    h₁ ok
  refine ⟨loop.run.tail (.frame frame), frame.orbits.trans loop.orbits,
    frame.agents.trans loop.agents, frame.semWaiters.trans loop.semWaiters, fun t' ht' => ?_⟩
  rcases loop.row ok (frame.tasks ▸ ht') with ⟨x, hx, hid, hrow⟩ | ⟨ht, hne⟩
  · obtain ⟨hxs, howner⟩ := (hmem x).mp hx
    rcases hrow with ⟨rfl, idle⟩ | requeued
    · exact Or.inl ⟨hxs, fun _ => idle⟩
    · exact Or.inr ⟨x, hxs, hid.symm, howner, requeued⟩
  · exact Or.inl ⟨ht, fun howner => absurd rfl (hne t' ((hmem t').mpr ⟨ht, howner⟩))⟩

/-- The summary of a reclaim. -/
theorem enqueueAgentReclaimed_keeps {agent : AgentId} {final : Option Orbit}
    (known : ∃ a ∈ s.agents, a.agentId = agent)
    (freed : ∀ o, final = some o → o ∈ s.orbits ∧ o.state.terminal = true)
    (h : enqueueAgentReclaimed s agent final = .ok s') : Keeps c E s s' := by
  intro ok
  unfold enqueueAgentReclaimed at h
  cases final with
  | some o =>
      obtain ⟨rfl, -⟩ := enqueueOutbox_eq h
      exact ⟨.single (.summary _ rfl (Or.inl ⟨o, (freed o rfl).1, (freed o rfl).2, rfl⟩) (.refl _)),
        rfl⟩
  | none =>
      obtain ⟨rfl, -⟩ := enqueueOutbox_eq h
      obtain ⟨a, ha, rfl⟩ := known
      refine ⟨.single (.summary _ rfl (Or.inr ⟨a, ha, ?_⟩) (.refl _)), rfl⟩
      rw [ok.getAgent.mpr ⟨ha, rfl⟩]
      rfl

theorem agents_enqueueAgentReclaimed {agent : AgentId} {final : Option Orbit}
    (h : enqueueAgentReclaimed s agent final = .ok s') : s'.agents = s.agents := by
  unfold enqueueAgentReclaimed at h
  cases final <;> (obtain ⟨rfl, -⟩ := enqueueOutbox_eq h; rfl)

theorem setAgentState_keeps (agents : c.may .agents) {id : AgentId} {state : AgentState}
    (step : ∀ a ∈ s.agents, a.agentId = id → a.state ≠ .RETIRED ∧
      (state = .RETIRED → s.Vacant id)) : Keeps c E s (s.setAgentState id state) :=
  setAgent_keeps agents fun a ha hid =>
    ⟨rfl, le_rfl, Or.inr ⟨(step a ha hid).1, fun h => hid ▸ (step a ha hid).2 h⟩⟩

theorem bumpBailEpoch_keeps (agents : c.may .agents) (id : AgentId) :
    Keeps c E s (s.bumpBailEpoch id) :=
  setAgent_keeps agents fun _ _ _ => ⟨rfl, Nat.le_succ _, Or.inl rfl⟩

/-- The agent that a reclaim is about, from its first write on. -/
theorem mem_leavingAgent {id : AgentId} {state : AgentState} {a : Agent}
    (h : a ∈ ((s.setAgentState id state).bumpBailEpoch id).agents) (hid : a.agentId = id) :
    a.state = state := by
  rcases Table.mem_modify.mp h with ⟨-, hne⟩ | ⟨b, hb, hbid, rfl⟩
  · exact absurd hid hne
  · rcases Table.mem_modify.mp hb with ⟨-, hne⟩ | ⟨d, -, -, rfl⟩
    · exact absurd hbid hne
    · rfl

theorem exists_leavingAgent {id : AgentId} {state : AgentState} {a : Agent}
    (h : s.getAgent id = some a) :
    ∃ b ∈ ((s.setAgentState id state).bumpBailEpoch id).agents, b.agentId = id := by
  have hid := Table.key_of_get h
  have left : { a with state := state } ∈ (s.setAgentState id state).agents :=
    Table.mem_modify.mpr (Or.inr ⟨a, Table.mem_of_get h, hid, rfl⟩)
  exact ⟨_, Table.mem_modify.mpr (Or.inr ⟨_, left, hid, rfl⟩), hid⟩

/-- The end of a reclaim: the agent retires, its summary goes out, and its slots are handed
on. -/
theorem retire_keeps {agent : AgentId} {ids : List OrbitId} {sems : List String} {s₁ : Store}
    (agents : c.may .agents) (alive : s.Alive agent) (vacant : s.Vacant agent)
    (known : ∃ a ∈ s.agents, a.agentId = agent)
    (ended : s.Ok → ∀ id ∈ ids, ∃ o ∈ s.orbits, o.orbitId = id ∧ o.state.terminal = true)
    (h : enqueueAgentReclaimed (s.setAgentState agent .RETIRED) agent
      (ids.getLast?.bind (s.setAgentState agent .RETIRED).getOrbit) = .ok s₁) :
    Keeps c E s (sems.foldl (promoteSemWaiters c.cfg c.now) s₁) := by
  intro ok
  have retired : Keeps c E s (s.setAgentState agent .RETIRED) :=
    setAgentState_keeps agents fun a ha hid => ⟨alive a ha hid, fun _ => vacant⟩
  have known' : ∃ a ∈ (s.setAgentState agent .RETIRED).agents, a.agentId = agent := by
    obtain ⟨a, ha, hid⟩ := known
    exact ⟨_, Table.mem_modify.mpr (Or.inr ⟨a, ha, hid, rfl⟩), hid⟩
  refine ((retired.trans (enqueueAgentReclaimed_keeps known' (fun o ho => ?_) h)).trans
    (promoteSems_keeps sems)) ok
  rw [Option.bind_eq_some_iff] at ho
  obtain ⟨id, hlast, hget⟩ := ho
  obtain ⟨r, hr, hid, hterminal⟩ := ended ok id (List.mem_of_getLast? hlast)
  obtain ⟨ho, hoid⟩ := (ok.micros (retired ok).1).getOrbit.mp hget
  cases ok.orbit_eq hr ho (hid.trans hoid.symm)
  exact ⟨ho, hterminal⟩

/-- Nothing that the end of a reclaim hands on is a path orbit. -/
theorem retire_frees {cfg : Cfg} {now : Time} {agent : AgentId} {ids : List OrbitId}
    {sems : List String} {s₁ : Store} (alive : s.Alive agent) (vacant : s.Vacant agent)
    (known : ∃ a ∈ s.agents, a.agentId = agent)
    (ended : s.Ok → ∀ id ∈ ids, ∃ o ∈ s.orbits, o.orbitId = id ∧ o.state.terminal = true)
    (h : enqueueAgentReclaimed (s.setAgentState agent .RETIRED) agent
      (ids.getLast?.bind (s.setAgentState agent .RETIRED).getOrbit) = .ok s₁) (ok : s.Ok) :
    ∀ o ∈ (sems.foldl (promoteSemWaiters cfg now) s₁).orbits, o.agentId = agent →
      o.kind = .orbit → o.live = false := by
  have retired : Keeps ⟨cfg, now, (· = .agents)⟩ nobody s
      (sems.foldl (promoteSemWaiters cfg now) s₁) := retire_keeps rfl alive vacant known ended h
  intro o' ho' hagent hkind
  rw [Bool.eq_false_iff]
  intro live
  obtain ⟨o, ho, same, live₀⟩ := (retired ok).1.liveFrom ok (by simp) o' ho' hkind live
  have owner : o.agentId = agent := same.agentId ▸ hagent
  rw [Orbit.live, Bool.or_eq_true, decide_eq_true_eq, decide_eq_true_eq] at live₀
  rcases live₀ with held | pending
  · exact vacant.held o ho owner held
  · have idle := vacant.pending o ho owner
    rw [Orbit.isPending, same.kind.symm.trans hkind, pending] at idle
    cases idle

/-- What it is that no merge of an agent is pinned. -/
theorem no_pin {agent : AgentId} {t : Task} {o : Orbit} (pin : activeConnectPin s agent = false)
    (ht : t ∈ s.tasks) (owner : t.agentId = some agent) (connecting : t.state = .CONNECTING)
    (ho : o ∈ s.orbits) : ¬ o.Pinned t.taskId := by
  intro pinned
  have listed : o ∈ s.pinnedOrbitsForTask t.taskId := by
    simp [Store.pinnedOrbitsForTask, ho, pinned.kind, pinned.task, pinned.merging]
  have own : t ∈ s.tasksForAgent agent := by simp [Store.tasksForAgent, ht, owner]
  rw [activeConnectPin, List.any_eq_false] at pin
  have empty := pin t own
  simp only [connecting, decide_true, Bool.true_and, Bool.not_eq_true', Bool.not_eq_false,
    List.isEmpty_iff] at empty
  rw [empty] at listed
  cases listed

/-- What the reclaim of an agent that is not retired does. -/
theorem reclaimAgentCore_reclaims {agent : AgentId} {voluntary : Bool} {r : Reclaimed} {a : Agent}
    (agents : c.may .agents)
    (may : c.may (.bail agent) ∨ c.may (.zombie agent) ∧ activeConnectPin s agent = false)
    (registered : s.getAgent agent = some a) (working : a.state ≠ .RETIRED)
    (h : reclaimAgentCore c.cfg c.now voluntary s agent = .ok (s', r)) (ok : s.Ok) :
    AgentReclaimed c agent s s' := by
  -- the group may hand on what the permits of the agent took
  let sems := ((s.heldOfKindBy .sem_permit agent).filterMap Orbit.resourceKey).dedup
  have reclaims : (c.serving sems).reclaims agent := may.elim Or.inr fun h => Or.inl h.1
  have agents' : (c.serving sems).may .agents := agents
  have serves : ∀ o ∈ s.heldOfKindBy .sem_permit agent, ∀ sem, o.resourceKey = some sem →
      (c.serving sems).may (.serve sem) := fun o ho sem key =>
    List.mem_dedup.mpr (List.mem_filterMap.mpr ⟨o, ho, key⟩)
  rw [reclaimAgentCore, registered] at h
  dsimp only at h
  rw [if_neg working, Outcome.bind_eq_ok] at h
  obtain ⟨s₁, h₁, h⟩ := h
  rw [Outcome.bind_eq_ok] at h
  obtain ⟨s₂, h₂, h⟩ := h
  rw [Outcome.bind_eq_ok] at h
  obtain ⟨s₃, h₃, h⟩ := h
  rw [Outcome.bind_eq_ok] at h
  obtain ⟨s₄, h₄, h⟩ := h
  cases h
  have leaving : (if voluntary then AgentState.BAILING else .ZOMBIE) ≠ .RETIRED := by
    split <;> simp
  have row : s.Alive agent := by
    intro b hb hid
    rwa [ok.agentIds.eq hb (Table.mem_of_get registered)
      (hid.trans (Table.key_of_get registered).symm)]
  -- up to its tasks the reclaim leaves the table of tasks as it was
  obtain ⟨run₀, tasks₀⟩ := ((setAgentState_keeps (E := s.ownedBy agent) agents'
    fun b hb hid => ⟨row b hb hid, fun h => absurd h leaving⟩).trans
      (bumpBailEpoch_keeps agents' agent)) ok
  have ok₀ := ok.micros run₀
  have side := reclaimSideLeases_spec (E := s.ownedBy agent) reclaims (by exact serves) h₁
    ok₀
  have ok₁ := ok₀.micros side.run
  have unpinned : (c.serving sems).may (.bail agent) ∨
      ∀ o ∈ s₁.orbits, o.agentId = agent → s₁.Unpinned o := by
    refine may.imp id fun ⟨_, pin⟩ o ho owner t ht of connecting pinned => ?_
    subst owner
    exact no_pin pin (tasks₀ ▸ side.tasks ▸ ht) of connecting (side.held o ho pinned.state) pinned
  obtain ⟨loop, freed, pending⟩ := reclaimOrbits_spec (E := s.ownedBy agent) reclaims unpinned h₂
    ok₁ side.freed (by simp)
  have ok₂ := ok₁.micros loop.run
  have tasks : s₂.tasks = s.tasks := loop.tasks.trans (side.tasks.trans tasks₀)
  have done := reclaimTasks_spec (E := s.ownedBy agent) reclaims
    (fun t ht howner => ⟨t, tasks ▸ ht, rfl, howner⟩) h₃ ok₂
  have ok₃ := ok₂.micros done.run
  have agents₃ := done.agents.trans (loop.agents.trans side.agents)
  have vacant : s₃.Vacant agent := by
    refine ⟨fun o ho hagent => ?_, fun o ho => ?_, fun w hw => ?_, fun t ht howner => ?_⟩
    · rw [done.orbits] at ho
      exact freed o ho hagent (by cases o.kind <;> simp)
    · rw [done.orbits] at ho
      exact pending o ho
    · rw [done.semWaiters, loop.semWaiters] at hw
      exact side.waiters w hw
    · rcases done.rows t ht with ⟨-, idle⟩ | ⟨_, -, -, -, requeued⟩
      · exact idle howner
      · exact requeued.idle
  have alive : s₃.Alive agent := by
    intro b hb hid
    rw [mem_leavingAgent (agents₃ ▸ hb) hid]
    exact leaving
  have ended : s₃.Ok → ∀ id ∈ (s₁.orbitsOwnedByAgent agent).map Orbit.orbitId,
      ∃ o ∈ s₃.orbits, o.orbitId = id ∧ o.state.terminal = true := by
    intro _ id hid
    obtain ⟨x, hx, rfl⟩ := List.mem_map.mp hid
    obtain ⟨o, ho, hoid, hterminal⟩ := loop.done x hx
    exact ⟨o, done.orbits ▸ ho, hoid, hterminal⟩
  have known := agents₃ ▸ exists_leavingAgent registered
  obtain ⟨run₄, tasks₄⟩ := retire_keeps (E := s.ownedBy agent) agents' alive vacant known
    ended h₄ ok₃
  have run := (((run₀.trans side.run).trans loop.run).trans done.run).trans run₄
  have left : Keeps _ (s.ownedBy agent) s₃ ([].foldl (promoteSemWaiters c.cfg c.now) s₄) :=
    retire_keeps agents' alive vacant known ended h₄
  have ok₄ := ok₃.micros (left ok₃).1
  have retired : s₄.Retired agent := by
    obtain ⟨b, hb, hid⟩ := known
    rw [Store.Retired, agents_enqueueAgentReclaimed h₄]
    exact ⟨_, Table.mem_modify.mpr (Or.inr ⟨b, hb, hid, rfl⟩), hid, rfl⟩
  have served : ∀ sem ∈ sems, (sems.foldl (promoteSemWaiters c.cfg c.now) s₄).ServedAt sem :=
    promoteSems_served ok₄
  have hands : Keeps (c.serving sems) (s.ownedBy agent) s₄ _ := promoteSems_keeps sems
  refine ⟨may, row, retired.micros ok₄ (hands ok₄).1, ⟨sems, run, served⟩, fun t ht => ?_, ?_⟩
  · rw [← tasks]
    rcases done.rows t (tasks₄ ▸ ht) with kept | ⟨t₀, ht₀, hid, owner, requeued⟩
    · exact Or.inl kept
    · exact Or.inr ⟨t₀, ht₀, hid, owner, requeued.busy, requeued.state, requeued.count,
        requeued.freed⟩
  · exact retire_frees alive vacant known ended h₄ ok₃

theorem reclaimAgentCore_takes {agent : AgentId} {voluntary : Bool} {r : Reclaimed}
    (agents : c.may .agents)
    (may : c.may (.bail agent) ∨ c.may (.zombie agent) ∧ activeConnectPin s agent = false)
    (h : reclaimAgentCore c.cfg c.now voluntary s agent = .ok (s', r)) : Takes c s s' := by
  intro ok
  cases registered : s.getAgent agent with
  | none =>
      rw [reclaimAgentCore, registered] at h
      cases h
      exact .refl
  | some a =>
      by_cases working : a.state = .RETIRED
      · rw [reclaimAgentCore, registered] at h
        dsimp only at h
        rw [if_pos working] at h
        cases h
        exact .refl
      · exact .single (.reclaimed agent
          (reclaimAgentCore_reclaims agents may registered working h ok))

/-! ## The sweep -/

theorem reclaimZombie_takes {a : Agent} (agents : c.may .agents) (may : c.may (.zombie a.agentId))
    (h : reclaimZombie c.cfg c.now s a = .ok s') : Takes c s s' := by
  rw [reclaimZombie] at h
  split at h
  · cases h
    exact .refl _
  · rename_i hpin
    rw [Outcome.bind_eq_ok] at h
    obtain ⟨⟨s₁, r⟩, h₁, h⟩ := h
    cases h
    exact reclaimAgentCore_takes agents (Or.inr ⟨may, by simpa using hpin⟩) h₁

/-- The agents that are silent for longer than their window. -/
def Store.Stale (s : Store) (cfg : Cfg) (now : Time) (agent : AgentId) : Prop :=
  ∃ ttl, cfg.agentTtl = some ttl ∧ ∃ a ∈ s.agents, a.agentId = agent ∧ a.isStale now ttl = true

theorem Takes.foldlM {α : Type} {f : Store → α → Except Fault Store} {xs : List α}
    (body : ∀ x ∈ xs, ∀ s₁ s₂, f s₁ x = .ok s₂ → Takes c s₁ s₂)
    (h : xs.foldlM f s = .ok s') : Takes c s s' :=
  Outcome.foldlM_induction (P := Takes c s) (.refl s)
    (fun x hx _ _ h₁ h₂ => h₁.trans (body x hx _ _ h₂)) h

theorem reclaimZombies_takes (agents : c.may .agents)
    (may : ∀ a, s.Stale c.cfg c.now a → c.may (.zombie a))
    (h : reclaimZombies c.cfg c.now s = .ok s') : Takes c s s' := by
  rw [reclaimZombies] at h
  split at h
  · cases h
    exact .refl s
  · rename_i ttl httl
    refine Takes.foldlM (fun a ha s₁ s₂ h => ?_) h
    obtain ⟨ha, hstale⟩ := List.mem_filter.mp ha
    exact reclaimZombie_takes agents (may _ ⟨ttl, httl, a, ha, rfl, hstale⟩) h

/-- Expiry leaves the agents. -/
theorem expireDue_agents {now : Time} (h : expireDue now s = .ok s') : s'.agents = s.agents := by
  refine Outcome.foldlM_induction (P := fun t : Store => t.agents = s.agents) rfl ?_ h
  intro o _ s₁ s₂ hs h
  rw [expireOrbit, Outcome.bind_eq_ok] at h
  obtain ⟨s₃, h₃, h⟩ := h
  obtain ⟨id, target, -, -, reduced⟩ := reduceOrbitLifecycle_spec h₃
  cases h
  rw [reduced.store]
  exact hs

theorem reconcileAdmission_takes (agents : c.may .agents)
    (may : ∀ a, s.Stale c.cfg c.now a → c.may (.zombie a))
    (h : reconcileAdmission c.cfg c.now s = .ok s') : Takes c s s' := by
  rw [reconcileAdmission, Outcome.bind_eq_ok] at h
  obtain ⟨s₁, h₁, h⟩ := h
  rw [Outcome.bind_eq_ok] at h
  obtain ⟨s₂, h₂, h⟩ := h
  refine (((expireDue_keeps h₁).takes).trans (reclaimZombies_takes agents ?_ h₂)).trans
    (settle_keeps h).takes
  rintro a ⟨ttl, httl, row, hrow, hstale⟩
  exact may a ⟨ttl, httl, row, expireDue_agents h₁ ▸ hrow, hstale⟩

theorem reclaimAgent_takes {agent : AgentId} {voluntary : Bool} {r : Reclaimed}
    (agents : c.may .agents)
    (may : c.may (.bail agent) ∨ c.may (.zombie agent) ∧ activeConnectPin s agent = false)
    (h : reclaimAgent c.cfg c.now voluntary s agent = .ok (s', r)) : Takes c s s' := by
  rw [reclaimAgent] at h
  split at h
  · cases h
    exact .refl s
  · split at h
    · cases h
      exact .refl s
    · rw [Outcome.bind_eq_ok] at h
      obtain ⟨⟨s₁, r₁⟩, h₁, h⟩ := h
      rw [Outcome.bind_eq_ok] at h
      obtain ⟨s₂, h₂, h⟩ := h
      rw [Outcome.bind_eq_ok] at h
      obtain ⟨s₃, h₃, h⟩ := h
      cases h
      exact ((reclaimAgentCore_takes agents may h₁).trans (expireDue_keeps h₂).takes).trans
        (settle_keeps h₃).takes

/-- Once the rows have been stamped each one that ended has its stamp. -/
theorem stampTerminal_stamped (s : Store) (now : Time) {o : Orbit}
    (ho : o ∈ (s.stampTerminal now).orbits) (ended : o.state.terminal = true) :
    o.terminalAt ≠ none := by
  obtain ⟨o₀, -, rfl⟩ := List.mem_map.mp ho
  by_cases missing : o₀.state.terminal = true ∧ o₀.terminalAt = none
  · simp [missing]
  · rw [if_neg missing] at ended ⊢
    exact fun none => missing ⟨ended, none⟩

theorem gcTerminal_does (free : Collecting c.may) {retention : ℚ}
    (retains : c.cfg.terminalRetention = some retention) :
    Does c E s (s.gcTerminal c.now retention) := by
  rw [Store.gcTerminal]
  refine Does.trans (.micro fun _ => .stamp c.now (.refl _) rfl) ?_
  refine Does.trans (.micro fun _ => .archiveTasks
    ((s.stampTerminal c.now).taskArchivable (c.now - retention)) ?_ ?_ (fun t _ _ => free.2 t)
      (.refl _)) (.micro fun _ => .archiveOrbits _ ?_ ?_ (.refl _)
        ⟨free.1, fun o => stampTerminal_stamped s c.now, retention, retains, rfl⟩)
  · intro t _ ht
    simp only [Store.taskArchivable, Bool.and_eq_true] at ht
    exact ht.1.1
  · intro t _ ht r hr live
    simp only [Store.taskArchivable, Bool.and_eq_true, List.all_eq_true, Bool.or_eq_true,
      decide_eq_true_eq] at ht
    exact (ht.2 r hr).resolve_left (by simp [live])
  · intro o _ ho
    simp only [Store.orbitArchivable, Bool.and_eq_true] at ho
    exact ho.1.1
  · intro o _ ho t ht hlive
    simp only [Store.orbitArchivable, Bool.and_eq_true, List.all_eq_true, Bool.or_eq_true,
      decide_eq_true_eq] at ho
    rcases ho.2 t ht with h | h
    · rw [hlive] at h
      cases h
    · exact Ne.symm h.1

theorem gcIdem_does {ttl : ℚ} (limit : c.cfg.idemTtl = some ttl) :
    Does c E s (s.gcIdem (c.now - ttl)) := by
  refine .micro fun _ => .request (.drop _ (fun r _ hr => ?_) rfl) (.refl _)
  rw [Bool.and_eq_true, decide_eq_true_eq] at hr
  cases hcompleted : r.completedAt with
  | none => simp [hcompleted] at hr
  | some t =>
      simp only [hcompleted, decide_eq_true_eq] at hr
      exact .expired limit hr.1 hcompleted hr.2

theorem sweepFlagLease_wrote {o : Orbit} (kind : o.kind = .flag_ephemeral)
    (held : o.state = .HELD) (h : sweepFlagLease s o = .ok s') : Wrote c E s o s' := by
  rw [sweepFlagLease, Outcome.bind_eq_ok] at h
  obtain ⟨state, hstate, h⟩ := h
  cases h
  cases hstate
  have other : o.kind ≠ .orbit := by simp [kind]
  exact .silent (frame_breakEphemeralFlagsForLease s o.orbitId) (.silent fun h => absurd h other)
    ⟨rfl, .lease kind held rfl, fun h => absurd h other⟩

theorem mem_dueOfKind {kind : OrbitKind} {now : Time} {o : Orbit}
    (h : o ∈ s.dueOfKind kind now) : o ∈ s.orbits ∧ o.kind = kind ∧ o.state = .HELD :=
  mem_heldOfKind (List.mem_of_mem_filter h)

theorem sweepFlagLeases_keeps
    (h : (s.dueOfKind .flag_ephemeral c.now).foldlM sweepFlagLease s = .ok s') :
    Keeps c E s s' := by
  refine Keeps.foldlM (fun ok => (ok.distinct_heldOfKind _).filter _)
    (fun o ho => (mem_dueOfKind ho).1) ?_ h
  intro o ho s₁ s₂ _ _ _ h
  exact sweepFlagLease_wrote (mem_dueOfKind ho).2.1 (mem_dueOfKind ho).2.2 h

/-- The lapsed permits end, and their slots are handed on. -/
theorem sweepPermits_takes (lapse : c.may .lapse) (h : sweepPermits c.cfg c.now s = .ok s') :
    Takes c s s' := by
  rw [sweepPermits, Outcome.bind_eq_ok] at h
  obtain ⟨s₁, h₁, h⟩ := h
  cases h
  intro ok
  let sems := ((s.dueOfKind .sem_permit c.now).filterMap Orbit.resourceKey).dedup
  have expired : Keeps (c.serving sems) nobody s s₁ := by
    refine Keeps.foldlM (fun ok => (ok.distinct_heldOfKind _).filter _)
      (fun o ho => (mem_dueOfKind ho).1) ?_ h₁
    intro o ho s₂ s₃ _ _ _ h
    obtain ⟨-, hkind, hheld⟩ := mem_dueOfKind ho
    have due : reached o.expiresAt c.now = true := (List.mem_filter.mp ho).2
    have serves : ∀ sem, o.resourceKey = some sem → (c.serving sems).may (.serve sem) :=
      fun sem key => List.mem_dedup.mpr (List.mem_filterMap.mpr ⟨o, ho, key⟩)
    exact expireHeld_wrote (by simp [hkind]) (fun o' ho' =>
      .permit hkind hheld (Or.inl ⟨lapse, due⟩) serves (by rw [ho']; rfl)) h
  obtain ⟨run, -⟩ := (expired.trans (promoteSems_keeps sems)) ok
  exact .single (.handed sems ⟨run, promoteSems_served (ok.micros (expired ok).1)⟩)

theorem sweepSide_takes (archive : Collecting c.may)
    (h : sweepSide c.cfg c.now s = .ok s') : Takes c s s' := by
  rw [sweepSide, Outcome.bind_eq_ok] at h
  obtain ⟨s₁, h₁, h⟩ := h
  rw [Outcome.bind_eq_ok] at h
  obtain ⟨s₂, h₂, h⟩ := h
  rw [Outcome.bind_eq_ok] at h
  obtain ⟨s₃, h₃, h⟩ := h
  cases h
  have flags : Takes c s s₁ := (sweepFlagLeases_keeps h₁).takes
  have permits : Takes c s₁ s₂ := sweepPermits_takes archive.1 h₂
  refine ((flags.trans permits).trans (frame_barrierEvalAll h₃).takes).trans (Does.takes ?_)
  cases hlimit : c.cfg.idemTtl <;> cases retains : c.cfg.terminalRetention
  · exact .refl _
  · exact gcTerminal_does archive retains
  · exact gcIdem_does hlimit
  · exact (gcIdem_does hlimit).trans (gcTerminal_does archive retains)

theorem sweepInline_takes (agents : c.may .agents) (archive : Collecting c.may)
    (may : ∀ a, s.Stale c.cfg c.now a → c.may (.zombie a))
    (h : sweepInline c.cfg c.now s = .ok s') : Takes c s s' := by
  rw [sweepInline, Outcome.bind_eq_ok] at h
  obtain ⟨s₁, h₁, h⟩ := h
  exact (reconcileAdmission_takes agents may h₁).trans (sweepSide_takes archive h)

end Omd
