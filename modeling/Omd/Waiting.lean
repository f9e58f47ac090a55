import Omd.Steps

/-!
# The answers of calls that wait

A semaphore request that joins the line, an arrival that is not the last and a claim that
is queued are answered at once, and the caller asks again.  What the table of requests
keeps as the answer of such a call must not be the wait.  The wrapper keeps every success,
and a wait in line and an armed barrier count as one; a queued claim does not.
-/

namespace Omd

open Lib

variable {cfg : Cfg} {env : Env} {now : Time} {σ : Sys} {a : Action} {c : Scope}
  {E : TaskId → Prop} {s s₁ s' : Store} {id : RequestId} {args : IdemArgs} {r : Reply}

/-- The states that a call waits in. -/
def ReplyState.waits : ReplyState → Bool
  | .WAITING | .barrier .ARMED | .barrier .TRIPPING | .orbit .PENDING | .task .PENDING => true
  | _ => false

/-- The reply reports a wait. -/
def Reply.waits (r : Reply) : Bool := r.state.any ReplyState.waits

/-- The requests of the verbs that may have to wait. -/
def IdemArgs.polls : IdemArgs → Bool
  | .acquire .. | .barrier_arrive .. | .claim .. => true
  | _ => false

/-- No wait is kept as an answer. -/
def Store.KeepsNoWait (s : Store) : Prop :=
  ∀ row ∈ s.idempotency, row.status = .DONE → row.argHash.polls = true →
    ∀ r, row.response = some r → r.waits = false

/-! ## The table of requests -/

/-- A change of the store leaves the requests alone, or is a change of them. -/
theorem Micro.requests (h : Micro c E s s') :
    s'.idempotency = s.idempotency ∨ IdemChange c s s'.idempotency := by
  cases h with
  | request change frame => exact Or.inr change
  | frame frame | enroll _ _ _ _ frame | agent _ _ _ _ frame | orbit _ _ _ _ _ _ frame
  | insert _ _ _ _ _ _ _ _ frame | reject _ _ _ _ frame | summary _ _ _ frame | task _ _ _ frame
  | declare _ _ frame | publish _ _ _ frame | waiters _ frame | slots _ _ _ _ frame | flags _ frame
  | arm _ _ _ _ _ _ _ _ frame | trip _ _ _ frame | stamp _ frame | archiveTasks _ _ _ _ frame
  | archiveOrbits _ _ _ frame => exact Or.inl frame.idempotency

/-- The answers that a change may give decide whether it keeps a wait. -/
theorem Store.KeepsNoWait.micro (h : s.KeepsNoWait) (step : Micro c E s s')
    (answers : ∀ id args r, c.may (.answer id args r) → args.polls = true → r.waits = false) :
    s'.KeepsNoWait := by
  rcases step.requests with same | change
  · rw [Store.KeepsNoWait, same]
    exact h
  intro row' hrow done polls r response
  cases change with
  | reserve id agent args new rows =>
      rw [rows] at hrow
      rcases List.mem_append.mp hrow with hrow | hrow
      · exact h row' hrow done polls r response
      · rw [List.mem_singleton.mp hrow] at done
        cases done
  | update p f step rows =>
      rw [rows] at hrow
      obtain ⟨row, hmem, rfl⟩ := List.mem_map.mp hrow
      by_cases hp : p row = true
      · simp only [hp, if_true] at done polls response
        cases step row hmem hp with
        | finish reply may inflight eq =>
            rw [eq] at polls response
            cases response
            exact answers _ _ _ may polls
        | bind _ _ _ inflight _ eq | takeover _ _ inflight eq =>
            rw [eq] at done
            cases inflight.symm.trans done
        | retry _ _ eq | reopen _ eq =>
            rw [eq] at done
            cases done
      · simp only [hp] at done polls response
        exact h row hmem done polls r response
  | drop p step rows =>
      rw [rows] at hrow
      exact h row' (List.mem_of_mem_filter hrow) done polls r response

/-! ## One permit for each agent -/

/-- The row is a permit of the semaphore that the agent holds. -/
structure Orbit.IsPermit (o : Orbit) (sem : String) (agent : AgentId) : Prop where
  kind : o.kind = .sem_permit
  state : o.state = .HELD
  sem : o.resourceKey = some sem
  agent : o.agentId = agent

/-- No agent holds two permits of a semaphore. -/
def Store.OnePermit (s : Store) : Prop :=
  ∀ sem agent, ∀ p ∈ s.orbits, ∀ p' ∈ s.orbits,
    p.IsPermit sem agent → p'.IsPermit sem agent → p = p'

theorem activePermitFor_eq_none {sem : String} {agent : AgentId} :
    s.activePermitFor sem agent = none ↔ ∀ p ∈ s.orbits, ¬ p.IsPermit sem agent := by
  rw [Store.activePermitFor, List.find?_eq_none]
  constructor
  · intro h p hp permit
    refine h p ?_ (by simpa using permit.agent)
    simp [Store.activePermits, Store.heldOfKind, hp, permit.kind, permit.state, permit.sem]
  · intro h p hp owner
    simp only [Store.activePermits, Store.heldOfKind, List.mem_filter, Bool.and_eq_true,
      decide_eq_true_eq] at hp
    exact h p hp.1.1 ⟨hp.1.2.1, hp.1.2.2, hp.2, by simpa using owner⟩

theorem activePermitFor_spec {sem : String} {agent : AgentId} {p : Orbit}
    (h : s.activePermitFor sem agent = some p) : p ∈ s.orbits ∧ p.IsPermit sem agent := by
  have owner : p.agentId = agent := by simpa using List.find?_some h
  have mem := List.mem_of_find?_eq_some h
  simp only [Store.activePermits, Store.heldOfKind, List.mem_filter, Bool.and_eq_true,
    decide_eq_true_eq] at mem
  exact ⟨mem.1.1, mem.1.2.1, mem.1.2.2, mem.2, owner⟩

/-- A permit that is held after a change was held before. -/
theorem OrbitStep.permit {o o' : Orbit} (h : OrbitStep c E s o o') {sem : String}
    {agent : AgentId} (permit : o'.IsPermit sem agent) : o.IsPermit sem agent :=
  have active := h.wasActive ⟨permit.kind, permit.state, permit.sem⟩
  ⟨active.kind, active.state, active.key, h.row.agentId ▸ permit.agent⟩

theorem Store.OnePermit.micro (h : s.OnePermit) (ok : s.Ok) (step : Micro c E s s') :
    s'.OnePermit := by
  have ok' := ok.micro step
  intro sem agent p hp p' hp' permit permit'
  have rows := step.orbits ok
  -- a new permit is the first of its agent, and an old one was held before
  have fresh {q o : Orbit} (row : NewRow c s q) (held : q.IsPermit sem agent) (ho : o ∈ s.orbits)
      (permit : o.IsPermit sem agent) : False := by
    cases row with
    | held claimed | queued claimed => cases claimed.kind.symm.trans held.kind
    | lease kind | token kind => cases kind.symm.trans held.kind
    | permit _ _ _ _ first =>
        obtain ⟨sem', key, none, -⟩ := first
        rw [held.sem] at key
        cases key
        rw [held.agent] at none
        exact activePermitFor_eq_none.mp none o ho permit
  rcases rows.back hp with ⟨o, ho, h₁⟩ | ⟨row, new⟩
  · have old := h₁.permit permit
    rcases rows.back hp' with ⟨o', ho', h₂⟩ | ⟨row', -⟩
    · have same := h sem agent o ho o' ho' old (h₂.permit permit')
      refine ok'.orbit_eq hp hp' ?_
      rw [h₁.row.orbitId, h₂.row.orbitId, same]
    · exact (fresh row' permit' ho old).elim
  · rcases rows.back hp' with ⟨o', ho', h₂⟩ | ⟨row', new'⟩
    · exact (fresh row permit ho' (h₂.permit permit')).elim
    · exact ok'.orbit_eq hp hp' (new.trans new'.symm)

theorem Store.OnePermit.moves (h : s.OnePermit) (ok : s.Ok) (run : Moves c s s') :
    s'.OnePermit :=
  (Moves.invariant (fun _ _ ok ih move =>
    move.invariant (fun _ _ _ _ _ ok ih step => ih.micro ok step) ok ih) run ok h).2

/-! ## Acquiring -/

/-- A live agent without a permit finds no slot, or somebody else in line, and may wait. -/
structure Store.Queues (s : Store) (q : AcquireArgs) : Prop where
  alive : checkAlive s (some q.agentId) q.bailEpoch = none
  unheld : s.activePermitFor q.sem q.agentId = none
  full : ∃ sem, s.getSemaphore q.sem = some sem ∧
    ((s.activePermits q.sem).length < sem.maxPermits →
      hasEarlierWaiter s q.sem q.priority q.agentId = true)
  patient : q.noWait = false

/-- What `acquire` answers, and what it leaves, after its sweep. -/
inductive Acquires (s : Store) (q : AcquireArgs) (s' : Store) : Reply → Prop
  | refused {r : Reply} (no : r.ok = some false) (final : r.waits = false) : Acquires s q s' r
  | reuse {p : Orbit} (held : s.activePermitFor q.sem q.agentId = some p)
      (orbits : s'.orbits = s.orbits) : Acquires s q s' (acquiredReply p.orbitId p.fence true)
  | grant {p : Orbit} (unheld : s.activePermitFor q.sem q.agentId = none)
      (orbits : s'.orbits = s.orbits ++ [p]) : Acquires s q s' (acquiredReply p.orbitId p.fence)
  | wait {w : SemWaiter} (queues : s.Queues q) (orbits : s'.orbits = s.orbits)
      (mem : w ∈ s'.semWaiters) (agent : w.agentId = q.agentId) (sem : w.semId = q.sem)
      (state : w.state = .WAITING) :
      Acquires s q s' { ok := some true, state := some .WAITING, waiter := some w.waiterId }

theorem grantPermit_orbits {agent : AgentId} {sem : String} {ttl : Option ℚ} :
    ∃ p, (grantPermit cfg now s agent sem ttl).orbits = s.orbits ++ [p] ∧ p.orbitId = s.uuid ∧
      p.fence = some (s.fence + 1) := ⟨_, rfl, rfl, rfl⟩

theorem acquireWait_spec {q : AcquireArgs} :
    ∃ w ∈ (acquireWait cfg now s q).1.semWaiters, w.waiterId = s.uuid ∧ w.agentId = q.agentId ∧
      w.semId = q.sem ∧ w.state = .WAITING :=
  ⟨_, List.mem_append_right _ (List.mem_singleton_self _), rfl, rfl, rfl, rfl⟩

theorem acquireBody_spec {q : AcquireArgs} {result : Result}
    (h : acquireBody cfg now s q = .ok (s', result)) :
    ∃ s₁, sweepInline cfg now s = .ok s₁ ∧ Acquires s₁ q s' result.reply := by
  rw [acquireBody, Outcome.bind_eq_ok] at h
  obtain ⟨s₁, sweep, h⟩ := h
  refine ⟨s₁, sweep, ?_⟩
  split at h
  · rename_i dead hdead
    cases h
    have no := ok_of_dead hdead
    have state := state_of_dead hdead
    exact .refused no (by rw [Result.set, Reply.waits, state]; rfl)
  rename_i alive
  split at h
  · cases h
    exact .refused rfl rfl
  rename_i sem hsem
  have agents : ∃ rows, s₁.upsertAgent q.agentId now = { s₁ with agents := rows } := by
    rw [Store.upsertAgent]
    split
    · exact ⟨_, rfl⟩
    · exact ⟨_, rfl⟩
  obtain ⟨rows, eq⟩ := agents
  rw [eq, acquireDecide] at h
  split at h
  · rename_i p held
    cases h
    exact .reuse held rfl
  rename_i unheld
  split at h
  · cases h
    have permit :
        ∃ p, (grantPermit cfg now { s₁ with agents := rows } q.agentId q.sem q.ttl).orbits =
        s₁.orbits ++ [p] ∧ p.orbitId = s₁.uuid ∧ p.fence = some (s₁.fence + 1) :=
      grantPermit_orbits
    obtain ⟨p, orbits, id, fence⟩ := permit
    have granted : Acquires s₁ q _ (acquiredReply p.orbitId p.fence) := .grant unheld orbits
    rw [id, fence] at granted
    exact granted
  rename_i full
  split at h
  · cases h
    exact .refused rfl rfl
  · rename_i patient
    have queues : s₁.Queues q := by
      refine ⟨alive, unheld, ⟨sem, hsem, fun free => ?_⟩, by simpa using patient⟩
      by_contra earlier
      rw [Bool.not_eq_true] at earlier
      exact full ⟨free, by rw [Bool.not_eq_true']; exact earlier⟩
    have waiter : ∃ w ∈ (acquireWait cfg now { s₁ with agents := rows } q).1.semWaiters,
        w.waiterId = s₁.uuid ∧ w.agentId = q.agentId ∧ w.semId = q.sem ∧ w.state = .WAITING :=
      acquireWait_spec
    obtain ⟨w, mem, id, agent, sem, state⟩ := waiter
    have waits : Acquires s₁ q (acquireWait cfg now { s₁ with agents := rows } q).1
        { ok := some true, state := some .WAITING, waiter := some w.waiterId } :=
      .wait queues rfl mem agent sem state
    rw [id] at waits
    cases h
    exact waits

/-- An answer of `acquire` about a permit, or about a wait, is about what it leaves. -/
theorem Acquires.current {q : AcquireArgs} (h : Acquires s q s' r) (one : s.OnePermit) :
    (r.state = some .WAITING → (∀ p ∈ s'.orbits, ¬ p.IsPermit q.sem q.agentId) ∧
      ∃ w ∈ s'.semWaiters, r.waiter = some w.waiterId ∧ w.agentId = q.agentId ∧
        w.semId = q.sem ∧ w.state = .WAITING) ∧
    (r.ok = some true → ∀ p ∈ s'.orbits, p.IsPermit q.sem q.agentId →
      r.state = some .ACQUIRED ∧ r.orbitId = some p.orbitId ∧ r.fence = p.fence) := by
  cases h with
  | refused no final =>
      refine ⟨fun waits => ?_, fun yes => ?_⟩
      · rw [Reply.waits, waits] at final
        cases final
      · cases no.symm.trans yes
  | @reuse p₀ held orbits =>
      refine ⟨fun waits => (by cases waits), fun _ p hp permit => ?_⟩
      obtain ⟨mem, own⟩ := activePermitFor_spec held
      cases one _ _ p₀ mem p (orbits ▸ hp) own permit
      exact ⟨rfl, rfl, rfl⟩
  | grant unheld orbits =>
      refine ⟨fun waits => (by cases waits), fun _ p hp permit => ?_⟩
      rw [orbits] at hp
      rcases List.mem_append.mp hp with hp | hp
      · exact absurd permit (activePermitFor_eq_none.mp unheld p hp)
      · cases List.mem_singleton.mp hp
        exact ⟨rfl, rfl, rfl⟩
  | wait queues orbits mem agent sem state =>
      have none := activePermitFor_eq_none.mp queues.unheld
      refine ⟨fun _ => ⟨?_, _, mem, rfl, agent, sem, state⟩, fun _ p hp permit => ?_⟩
      · rw [orbits]
        exact none
      · exact absurd permit (none p (orbits ▸ hp))

theorem Acquires.waits {q : AcquireArgs} (h : Acquires s q s' r) (waits : r.waits = true) :
    s.Queues q := by
  cases h with
  | refused no final => cases final.symm.trans waits
  | reuse held orbits => cases waits
  | grant unheld orbits => cases waits
  | wait queues => exact queues

/-! ## Arriving -/

/-- The armed barrier neither breaks nor trips when it is evaluated after an arrival: nobody
is dead who is not shed, and no deadline is past, and of those left somebody is missing. -/
structure Store.StaysArmed (now : Time) (s : Store) (b : Barrier) : Prop where
  left : ∃ s₁, (deadParties s b = [] ∧ s₁ = s ∨
      deadParties s b ≠ [] ∧ b.policy = .shrink ∧
        (∀ d ∈ deadParties s b, taskDependents s d.taskId = []) ∧ s₁ = shrinkBarrier s b) ∧
    (liveParties s₁ b = [] ∨
      reached b.deadlineAt now = false ∧ ∃ p ∈ liveParties s₁ b, p.arrived = false)

/-- A live agent arrives for a party of an armed barrier, and the barrier stays armed. -/
structure Store.ArrivesEarly (now : Time) (s : Store) (q : ArriveArgs) : Prop where
  alive : checkAlive s (some q.agentId) q.bailEpoch = none
  early : ∃ b fence, s.barrierByName q.name = some b ∧ b.state = .ARMED ∧
    (s.getBarrierParty b.barrierId b.generation q.taskId).isSome ∧
    partyWriteFence s q.taskId = some fence ∧ (q.fence = none ∨ q.fence = some fence) ∧
    (markArrived s b q fence).StaysArmed now b

/-- The barrier a name stands for is found by its identifier. -/
theorem Store.Ok.getBarrier_of_name (ok : s.Ok) {name : String} {b : Barrier}
    (h : s.barrierByName name = some b) : s.getBarrier b.barrierId = some b := by
  exact ok.barrierIds.get_of_mem (barrierByName_spec.1 b h).1

theorem getBarrier_setBarrier {id : BarrierId} {f : Barrier → Barrier}
    (hf : ∀ r, (f r).barrierId = r.barrierId) :
    (s.setBarrier id f).getBarrier id = (s.getBarrier id).map f := by
  refine (Table.get_modify (fun r h => (hf r).trans h) s.barriers).trans ?_
  simp only [if_true]
  rfl

theorem breakBarrier_broken {b b₀ : Barrier} {reason : String} (armed : b.state = .ARMED)
    (found : s.getBarrier b.barrierId = some b₀) (h : breakBarrier s b reason = .ok s') :
    (s'.getBarrier b.barrierId).map Barrier.state = some .BROKEN := by
  rw [breakBarrier, armed] at h
  simp only [reduceCtorEq, or_self, if_false] at h
  rw [Outcome.bind_eq_ok] at h
  obtain ⟨state, advance, h⟩ := h
  cases advance
  cases h
  rw [getBarrier_setBarrier, found]
  · rfl
  · exact fun _ => rfl

/-- After an arrival, an armed barrier that is not filled is broken or stays armed. -/
theorem barrierEval_waits {b : Barrier} (armed : b.state = .ARMED)
    (found : s.getBarrier b.barrierId = some b)
    (h : barrierEval now s b.barrierId true = .ok (s', none)) :
    (s'.getBarrier b.barrierId).map Barrier.state = some .BROKEN ∨ s.StaysArmed now b := by
  have live {s₁ : Store} {b₁ : Barrier} (found : s₁.getBarrier b.barrierId = some b₁)
      (h : barrierEvalLive now true s₁ b = .ok (s', none)) :
      (s'.getBarrier b.barrierId).map Barrier.state = some .BROKEN ∨
        (liveParties s₁ b = [] ∨
          reached b.deadlineAt now = false ∧ ∃ p ∈ liveParties s₁ b, p.arrived = false) := by
    rw [barrierEvalLive] at h
    split at h
    · rw [Outcome.bind_eq_ok] at h
      obtain ⟨s₂, broken, h⟩ := h
      cases h
      exact Or.inl (breakBarrier_broken armed found broken)
    rename_i due
    split at h
    · rw [Outcome.bind_eq_ok] at h
      obtain ⟨state, -, h⟩ := h
      cases h
    rename_i full
    refine Or.inr ?_
    by_cases empty : liveParties s₁ b = []
    · exact Or.inl empty
    have missing : ∃ p ∈ liveParties s₁ b, p.arrived = false := by
      by_contra all
      simp only [not_exists, not_and, Bool.not_eq_false] at all
      exact full ⟨rfl, empty, List.all_eq_true.mpr all⟩
    obtain ⟨p, hp, absent⟩ := missing
    refine Or.inr ⟨?_, p, hp, absent⟩
    by_contra past
    rw [Bool.not_eq_false] at past
    exact due ⟨past, List.any_eq_true.mpr ⟨p, hp, by rw [absent]; rfl⟩⟩
  rw [barrierEval, found] at h
  dsimp only at h
  rw [if_neg (by simp [armed])] at h
  split at h
  · rename_i none_
    rcases live found h with broken | left
    · exact Or.inl broken
    · exact Or.inr ⟨s, Or.inl ⟨none_, rfl⟩, left⟩
  rename_i some_
  split at h
  · rename_i shed
    have found' : (shrinkBarrier s b).getBarrier b.barrierId =
        some { b with parties := (liveParties s b).length } := by
      rw [shrinkBarrier]
      refine (getBarrier_setBarrier ?_).trans ?_
      · exact fun _ => rfl
      · rw [Store.getBarrier] at found ⊢
        rw [found]
        rfl
    rcases live found' h with broken | left
    · exact Or.inl broken
    · refine Or.inr ⟨_, Or.inr ⟨some_, shed.1, fun d hd => ?_, rfl⟩, left⟩
      simpa using List.all_eq_true.mp shed.2 d hd
  · rw [Outcome.bind_eq_ok] at h
    obtain ⟨s₂, broken, h⟩ := h
    cases h
    exact Or.inl (breakBarrier_broken armed found broken)

/-- A name goes on to stand for the same barrier while none is added. -/
theorem barrierByName_of_keys (ok : s.Ok) (ok' : s'.Ok)
    (keys : s'.barriers.map Barrier.key = s.barriers.map Barrier.key) {name : String}
    {b b' : Barrier} (h : s.barrierByName name = some b)
    (found : s'.getBarrier b.barrierId = some b') : s'.barrierByName name = some b' := by
  obtain ⟨mem, hname, latest⟩ := barrierByName_spec.1 b h
  have mem' : b' ∈ s'.barriers := Table.mem_of_get found
  have old {x : Barrier} (hx : x ∈ s'.barriers) : ∃ y ∈ s.barriers, y.key = x.key := by
    have key : x.key ∈ s.barriers.map Barrier.key := keys ▸ List.mem_map_of_mem hx
    exact List.mem_map.mp key
  obtain ⟨y, hy, same⟩ := old mem'
  have id' : b'.barrierId = b.barrierId := Table.key_of_get found
  have id : y.barrierId = b.barrierId := (congrArg Prod.fst same).trans id'
  cases ok.barrier_eq hy mem id
  cases hby : s'.barrierByName name with
  | none =>
      refine absurd ?_ (barrierByName_spec.2 hby b' mem')
      exact (congrArg (fun k => k.2.1) same).symm.trans hname
  | some x =>
      obtain ⟨hx, hxname, top⟩ := barrierByName_spec.1 x hby
      obtain ⟨z, hz, hkey⟩ := old hx
      have genz : z.generation = x.generation := congrArg (fun k => k.2.2) hkey
      have gen : b.generation = b'.generation := congrArg (fun k => k.2.2) same
      have below : x.generation ≤ b.generation :=
        genz ▸ latest z hz ((congrArg (fun k => k.2.1) hkey).trans hxname)
      have above : b.generation ≤ x.generation :=
        gen ▸ top b' mem' ((congrArg (fun k => k.2.1) same).symm.trans hname)
      have named := ok'.barriers.named x.key (List.mem_map_of_mem hx)
      have named' := ok'.barriers.named b'.key (List.mem_map_of_mem mem')
      have key : x.key.2 = b'.key.2 := by
        rw [← same]
        exact Prod.ext (hxname.trans hname.symm) (le_antisymm below above)
      exact congrArg some (ok'.barrier_eq hx mem' (named.trans (key.trans named'.symm)))

theorem sweepInline_takes_free (h : sweepInline cfg now s = .ok s') :
    Takes ⟨cfg, now, fun _ => True⟩ s s' :=
  sweepInline_takes (c := ⟨cfg, now, fun _ => True⟩) trivial ⟨trivial, fun _ => trivial⟩
    (fun _ _ => trivial) h

theorem arriveBody_waits {q : ArriveArgs} {result : Result} {trip : Option Trip} (ok : s.Ok)
    (h : arriveBody cfg now s q = .ok ((s', result), trip)) (waits : result.reply.waits = true) :
    ∃ s₁, sweepInline cfg now s = .ok s₁ ∧
      (∃ b, s'.barrierByName q.name = some b ∧ result.reply.state = some (.barrier b.state)) ∧
      (result.reply.isSuccess = true → s₁.ArrivesEarly now q) := by
  rw [arriveBody, Outcome.bind_eq_ok] at h
  obtain ⟨s₁, sweep, h⟩ := h
  have ok₁ : s₁.Ok := ok.moves (sweepInline_takes_free sweep ok)
  refine ⟨s₁, sweep, ?_⟩
  split at h
  · rename_i dead hdead
    cases h
    rw [Result.set, Reply.waits, state_of_dead hdead] at waits
    cases waits
  rename_i alive
  split at h
  · cases h
    cases waits
  rename_i b hb
  split at h
  · cases h
    cases waits
  · rename_i tripping
    cases h
    exact ⟨⟨b, hb, by rw [tripping]; rfl⟩, fun success => by cases success⟩
  · rename_i tripped
    cases h
    rw [Result.set, Reply.waits, tripped] at waits
    cases waits
  · rename_i consumed
    cases h
    rw [Result.set, Reply.waits, consumed] at waits
    cases waits
  rename_i armed
  rw [arriveArmed] at h
  split at h
  · cases h
    cases waits
  rename_i party hparty
  split at h
  · cases h
    cases waits
  rename_i fence hfence
  split at h
  · cases h
    cases waits
  rename_i current
  rw [Outcome.bind_eq_ok] at h
  obtain ⟨⟨s₂, plan⟩, eval, h⟩ := h
  have found : (markArrived s₁ b q fence).getBarrier b.barrierId = some b :=
    ok₁.getBarrier_of_name hb
  dsimp only at h
  split at h
  · cases h
    cases waits
  cases h
  have ended : Frame s₁ s' := (frame_markArrived b q fence).trans (frame_barrierEval eval)
  cases hget : s'.getBarrier b.barrierId with
  | none =>
      rw [Result.set, Reply.waits, hget] at waits
      cases waits
  | some b' =>
      rw [Result.set, Reply.waits, hget] at waits
      refine ⟨⟨b', barrierByName_of_keys ok₁ (ended.ok ok₁) ended.barriers hb hget, ?_⟩,
        fun _ => ⟨alive, b, fence, hb, armed, ?_, hfence, ?_, ?_⟩⟩
      · rfl
      · rw [hparty]
        rfl
      · by_cases none : q.fence = none
        · exact Or.inl none
        · by_contra other
          exact current ⟨none, fun same => other (Or.inr same)⟩
      · refine (barrierEval_waits armed found eval).resolve_left fun broken => ?_
        rw [hget] at broken
        cases b'
        cases broken
        cases waits

/-! ## Claiming -/

theorem claimSwept_waits {q : ClaimArgs} {result : Result} {rollover : Option ℕ}
    (h : claimSwept cfg s q rollover now = .ok (s', result)) (waits : result.reply.waits = true) :
    ∃ o ∈ s'.orbits, result.reply.orbitId = some o.orbitId ∧ o.state = .PENDING := by
  have row {dup : Orbit} {s₁ : Store} (mem : dup ∈ s₁.orbits)
      (waits : (dedupReply dup).waits = true) :
      ∃ o ∈ s₁.orbits, (dedupReply dup).orbitId = some o.orbitId ∧ o.state = .PENDING := by
    refine ⟨dup, mem, rfl, ?_⟩
    cases hstate : dup.state with
    | PENDING => rfl
    | HELD | RELEASED | EXPIRED | DENIED =>
        simp [dedupReply, Reply.waits, hstate, ReplyState.waits] at waits
  rw [claimSwept] at h
  split at h
  · rename_i dead hdead
    cases h
    rw [Result.set, Reply.waits, state_of_dead hdead] at waits
    cases waits
  dsimp only at h
  rw [Outcome.bind_eq_ok] at h
  obtain ⟨gen, hgen, h⟩ := h
  cases gen with
  | inl reply =>
      cases h
      unfold claimGeneration at hgen
      split at hgen
      · cases hgen
      · split at hgen <;> cases hgen
      · cases hgen
      rename_i dup latest
      rw [Outcome.bind_eq_ok] at hgen
      obtain ⟨same, -, hgen⟩ := hgen
      split at hgen
      · cases hgen
        cases waits
      split at hgen
      · split at hgen
        · cases hgen
          cases waits
        · cases hgen
      · cases hgen
        refine row ?_ waits
        unfold Store.latestOrbitByRequest at latest
        split at latest
        · cases latest
        · exact List.mem_of_mem_filter ((latestOf_spec latest).1)
  | inr generation =>
      dsimp only at h
      split at h
      · rename_i reply hintent
        cases h
        rw [claimIntent] at hintent
        split at hintent
        · cases hintent
        rename_i dup found
        split at hintent
        · cases hintent
        split at hintent
        · cases hintent
          cases waits
        · cases hintent
          exact row (List.mem_of_find?_eq_some found) waits
      split at h
      · cases h
        cases waits
      rw [claimDecide, Outcome.bind_eq_ok] at h
      obtain ⟨d, -, h⟩ := h
      split at h
      · rw [claimGrant, Outcome.bind_eq_ok] at h
        obtain ⟨s₁, -, h⟩ := h
        dsimp only at h
        rw [Outcome.bind_eq_ok] at h
        obtain ⟨s₂, -, h⟩ := h
        cases h
        cases waits
      split at h
      · rw [claimOverload, Outcome.bind_eq_ok] at h
        obtain ⟨s₁, -, h⟩ := h
        cases h
        cases waits
      rw [claimQueue, Outcome.bind_eq_ok] at h
      obtain ⟨s₁, queued, h⟩ := h
      rw [Outcome.bind_eq_ok] at h
      obtain ⟨cycle, -, h⟩ := h
      split at h
      · rw [Outcome.bind_eq_ok] at h
        obtain ⟨s₂, -, h⟩ := h
        cases h
        cases waits
      · cases h
        rw [queueRow, Outcome.bind_eq_ok] at queued
        obtain ⟨s₂, -, queued⟩ := queued
        cases queued
        exact ⟨_, List.mem_append_right _ (List.mem_singleton_self _), rfl, rfl⟩

/-! ## Retries -/

/-- The request was not answered for good. -/
def Store.Unanswered (s : Store) (id : Option RequestId) : Prop :=
  ∀ row ∈ s.idempotency, some row.requestId = id → row.status ≠ .DONE

/-- What a hit answers: a refusal, or what was kept. -/
theorem enterIdem_hit {agent : Option AgentId} (h : enterIdem s id agent args = .ok (.inl r)) :
    r.ok = some false ∧ r.state = none ∨ ∃ row ∈ s.idempotency, row.requestId = id ∧
      row.status = .DONE ∧ row.argHash = args ∧
        r = { row.response.getD {} with replayed := true } := by
  rw [enterIdem] at h
  split at h
  · cases h
    exact Or.inl ⟨rfl, rfl⟩
  split at h
  · cases h
  rename_i row hrow
  split at h
  · cases h
    exact Or.inl ⟨rfl, rfl⟩
  rename_i same
  split at h
  · rename_i done
    cases h
    refine Or.inr ⟨row, Table.mem_of_get hrow, Table.key_of_get hrow, done, ?_, rfl⟩
    by_contra other
    exact same (Or.inr other)
  · split at h <;> cases h
  · cases h
    exact Or.inl ⟨rfl, rfl⟩

/-- A hit reports no wait. -/
theorem Store.KeepsNoWait.hit (kept : s.KeepsNoWait) {agent : Option AgentId}
    (polls : args.polls = true) (h : enterIdem s id agent args = .ok (.inl r)) :
    r.waits = false := by
  rcases enterIdem_hit h with ⟨-, state⟩ | ⟨row, hrow, -, done, same, rfl⟩
  · rw [Reply.waits, state]
    rfl
  · cases response : row.response with
    | none => rfl
    | some r₀ => exact kept row hrow done (same ▸ polls) r₀ response

/-- What an exact retry is told.  A wait that it reports is one that the store has, and
after `acquire` a permit that the agent was granted is the answer. -/
structure Store.AnswersNow (cfg : Cfg) (s : Store) : Prop where
  acquire : ∀ now q s' r, acquire cfg now s q = .ok (s', r) → r.waits = true →
    r.state = some .WAITING ∧ (∀ p ∈ s'.orbits, ¬ p.IsPermit q.sem q.agentId) ∧
      ∃ w ∈ s'.semWaiters, r.waiter = some w.waiterId ∧ w.agentId = q.agentId ∧
        w.semId = q.sem ∧ w.state = .WAITING
  granted : ∀ now q s' r, Omd.acquire cfg now s q = .ok (s', r) → s.Unanswered q.requestId →
    r.ok = some true → ∀ p ∈ s'.orbits, p.IsPermit q.sem q.agentId →
      r.state = some .ACQUIRED ∧ r.orbitId = some p.orbitId ∧ r.fence = p.fence
  arrive : ∀ now q s' r trip, barrierArrive cfg now s q = .ok ((s', r), trip) →
    r.waits = true → ∃ b, s'.barrierByName q.name = some b ∧ r.state = some (.barrier b.state)
  claim : ∀ now q s' r, Omd.claim cfg now s q = .ok (s', r) → r.waits = true →
    ∃ o ∈ s'.orbits, r.orbitId = some o.orbitId ∧ o.state = .PENDING

/-- An answer of `acquire` that is no hit is about what it leaves. -/
theorem acquire_cases {q : AcquireArgs} (ok : s.Ok) (one : s.OnePermit)
    (h : acquire cfg now s q = .ok (s', r)) :
    (∃ id, q.requestId = some id ∧
      enterIdem s id (some q.agentId) q.idemArgs = .ok (.inl r)) ∨
    ∃ s₁, s₁.OnePermit ∧ Acquires s₁ q s' r := by
  rw [acquire, Outcome.bind_eq_ok] at h
  obtain ⟨⟨s₁, result⟩, h₁, h⟩ := h
  cases h
  rcases withIdem_cases ok h₁ with ⟨id, hid, hit, -⟩ | ⟨s₂, s₃, entered, ok₂, body, left⟩
  · exact Or.inl ⟨id, hid, hit⟩
  refine Or.inr ?_
  obtain ⟨s₄, sweep, answered⟩ := acquireBody_spec body
  have one₂ : s₂.OnePermit := by
    rw [Store.OnePermit, entered.orbits]
    exact one
  refine ⟨s₄, one₂.moves ok₂ (sweepInline_takes_free sweep ok₂), ?_⟩
  rw [left]
  generalize result.reply = r at answered
  cases answered with
  | refused no final => exact .refused no final
  | reuse held orbits => exact .reuse held orbits
  | grant unheld orbits => exact .grant unheld orbits
  | wait queues orbits mem agent sem state => exact .wait queues orbits mem agent sem state

theorem Store.KeepsNoWait.answersNow (kept : s.KeepsNoWait) (ok : s.Ok) (one : s.OnePermit) :
    s.AnswersNow cfg where
  acquire := by
    intro now q s' r h waits
    rcases acquire_cases ok one h with ⟨id, -, hit⟩ | ⟨s₁, one₁, answered⟩
    · cases (kept.hit rfl hit).symm.trans waits
    · have state : r.state = some .WAITING := by
        cases answered with
        | refused no final => cases final.symm.trans waits
        | reuse | grant => cases waits
        | wait => rfl
      exact ⟨state, (answered.current one₁).1 state⟩
  granted := by
    intro now q s' r h unanswered yes
    rcases acquire_cases ok one h with ⟨id, hid, hit⟩ | ⟨s₁, one₁, answered⟩
    · rcases enterIdem_hit hit with ⟨no, -⟩ | ⟨row, hrow, same, done, -⟩
      · cases no.symm.trans yes
      · exact absurd done (unanswered row hrow (by rw [same, hid]))
    · exact (answered.current one₁).2 yes
  arrive := by
    intro now q s' r trip h waits
    unfold barrierArrive at h
    split at h
    · rw [Outcome.bind_eq_ok] at h
      obtain ⟨⟨⟨s₁, result⟩, trip₁⟩, body, h⟩ := h
      cases h
      obtain ⟨-, -, now, -⟩ := arriveBody_waits ok body waits
      exact now
    rename_i id hid
    rw [Outcome.bind_eq_ok] at h
    obtain ⟨hit, henter, h⟩ := h
    cases hit with
    | inl reply =>
        cases h
        cases (kept.hit rfl henter).symm.trans waits
    | inr s₁ =>
        rw [Outcome.bind_eq_ok] at h
        obtain ⟨⟨⟨s₂, result⟩, trip₁⟩, body, h⟩ := h
        rw [Outcome.bind_eq_ok] at h
        obtain ⟨s₃, h₃, h⟩ := h
        cases h
        obtain ⟨-, ok₁⟩ := enterIdem_apart ok henter
        obtain ⟨-, -, now, -⟩ := arriveBody_waits ok₁ body waits
        rw [exitIdem_eq h₃]
        exact now
  claim := by
    intro now q s' r h waits
    rw [Omd.claim, if_neg (by simp)] at h
    split at h
    · rename_i reply invalid
      cases h
      rw [ClaimArgs.validate] at invalid
      repeat' split at invalid
      all_goals cases invalid
      all_goals cases waits
    rename_i q' _
    rw [claimSection] at h
    split at h
    · rename_i reply overload
      cases h
      rw [replayTerminalClaimOverload] at overload
      split at overload
      · cases overload
      split at overload
      · cases overload
      split at overload
      · cases overload
      split at overload
      · rename_i rejected
        cases overload
        rw [Reply.waits, rejected.1] at waits
        cases waits
      · cases overload
    split at h
    · rename_i reply gate
      cases h
      unfold taskGate at gate
      split at gate
      · cases gate
      split at gate
      · cases gate
        cases waits
      split at gate
      · cases gate
      · cases gate
        cases waits
    rw [Outcome.bind_eq_ok] at h
    obtain ⟨⟨s₁, result⟩, h₁, h⟩ := h
    cases h
    rcases withIdem_cases ok h₁ with ⟨id, -, hit, -⟩ | ⟨s₂, s₃, -, -, body, left⟩
    · cases (kept.hit rfl hit).symm.trans waits
    dsimp only at body
    rw [Outcome.bind_eq_ok] at body
    obtain ⟨s₄, -, body⟩ := body
    have current := claimSwept_waits body waits
    rw [left]
    exact current

/-! ## Runs -/

/-- No request is answered with a wait that the wrapper keeps: a request of `acquire` finds a
slot, and one of `barrier_arrive` is the last that its barrier waits for. -/
structure Prompt (cfg : Cfg) (σ : Sys) (l : Env × Action) : Prop where
  acquire : ∀ q id s₀ s₁, l.2 = .call (.acquire q) → q.requestId = some id →
    enterIdem σ.store id (some q.agentId) q.idemArgs = .ok (.inr s₀) →
    sweepInline cfg l.1.now s₀ = .ok s₁ → ¬ s₁.Queues q
  arrive : ∀ q id input s₀ s₁, σ.Cut l.2 (.arrive q .arrive) input → q.requestId = some id →
    enterIdem σ.store id (some q.agentId) q.idemArgs = .ok (.inr s₀) →
    sweepInline cfg l.1.now s₀ = .ok s₁ → ¬ s₁.ArrivesEarly l.1.now q

/-- How a barrier ended is no wait. -/
theorem Reply.EndedBarrier.final (h : r.EndedBarrier) : r.waits = false := by
  obtain ⟨b, state, armed, tripping⟩ := h
  rw [Reply.waits, state]
  cases b with
  | ARMED => exact absurd rfl armed
  | TRIPPING => exact absurd rfl tripping
  | TRIPPED | BROKEN | CONSUMED => rfl

/-- An answer of a claim that is kept is no wait. -/
theorem Reply.Settled.noWait (h : r.Settled) : r.waits = false := by
  rw [Reply.waits]
  rcases h.about with state | state | ⟨st, state⟩
  · rw [state]
    rfl
  · rw [state]
    rfl
  · rw [state]
    cases st with
    | PENDING => exact absurd state h.state
    | HELD | RELEASED | EXPIRED | DENIED => rfl

/-- An action that keeps no wait may answer no call with a wait. -/
theorem Prompt.answers (prompt : Prompt cfg σ (env, a)) (ok : σ.Ok)
    (h : Answers cfg env σ a id args r) (polls : args.polls = true) : r.waits = false := by
  cases h with
  | @verb v _ _ s' _ eq request =>
      cases v with
      | cancelWait _ _ _ _ rid | renew _ _ _ _ rid | release _ _ _ rid | start _ _ rid
      | commit _ _ _ _ rid | finish _ _ _ rid | cancel _ rid | readRefresh _ _ _ rid
      | barrierAbort _ _ rid | barrierConsume _ _ rid | flagSet _ _ _ _ _ rid
      | flagClear _ _ rid | semRelease _ _ _ rid =>
          cases rid with
          | none => cases request
          | some rid =>
              cases request
              cases polls
      | _ => cases request
  | claim _ _ _ _ settled => exact settled.noWait
  | nested _ _ _ _ _ settled => exact settled.noWait
  | member _ _ _ settled => exact settled.noWait
  | rollover => cases polls
  | start => cases polls
  | bail => cases polls
  | reserve => cases polls
  | connect => cases polls
  | acquire eq request enter body reply =>
      subst reply
      obtain ⟨s₁, sweep, answered⟩ := acquireBody_spec body
      by_contra waits
      rw [Bool.not_eq_false] at waits
      exact prompt.acquire _ _ _ _ eq request enter sweep (answered.waits waits)
  | arrive cut request enter body reply _ success =>
      subst reply
      by_contra waits
      rw [Bool.not_eq_false] at waits
      obtain ⟨s₁, sweep, -, early⟩ := arriveBody_waits (enterIdem_apart ok.store enter).2 body waits
      exact prompt.arrive _ _ _ _ _ cut request enter sweep (early success)
  | @trip q _ _ trip _ cut _ success =>
      obtain ⟨i, -, found⟩ := cut
      have pc := (ok.procs _ (List.mem_of_getElem? found)).trip q _ rfl
      exact (pc.reply trip _ rfl success).final
  | raised _ _ ended => exact ended.final
  | recovered _ reply =>
      cases reply with
      | merged => cases polls
      | barrier state ended => exact Reply.EndedBarrier.final ⟨_, state, ended⟩

/-- In a run whose steps keep no wait, no answer that is kept is a wait, and what an exact
retry is told is so. -/
theorem waits_not_kept (run : ReachableBy cfg (Prompt cfg) σ) :
    σ.store.KeepsNoWait ∧ σ.store.AnswersNow cfg := by
  have one : σ.store.OnePermit :=
    Sys.Ok.empty.run_invariant (fun _ _ _ _ ok h step => h.micro ok step) run
      (by intro _ _ p hp; cases hp)
  have kept : σ.Ok ∧ σ.store.KeepsNoWait := by
    refine run.invariant (I := fun τ => τ.Ok ∧ τ.store.KeepsNoWait) (fun τ l τ' ih prompt h => ?_)
      ⟨Sys.Ok.empty, by intro row hrow; cases hrow⟩
    have h : step cfg l.1 τ l.2 = .ok τ' := h
    obtain ⟨left, ok'⟩ := step_spec ih.1 h
    refine ⟨ok', left.invariant (fun may E s s' licensed _ kept step => ?_) ih.1.store ih.2⟩
    refine kept.micro step fun id args r may polls => ?_
    cases licensed _ may with
    | answer h => exact prompt.answers ih.1 h polls
  exact ⟨kept.2, kept.2.answersNow kept.1.store one⟩

/-- A call without a request identifier keeps no answer. -/
theorem Prompt.call {v : Verb} (free : ∀ q, v = .acquire q → q.requestId = none) :
    Prompt cfg σ (env, .call v) where
  acquire := by
    intro q id s₀ s₁ eq request
    cases eq
    cases (free q rfl).symm.trans request
  arrive := by
    rintro q id input s₀ s₁ ⟨i, eq, -⟩
    cases eq

/-- A claim that waits behind another, and a request that waits in line. -/
def queuedClaim : List (Env × Action) :=
  [ (Action.call (.claim { agentId := "A", pathspec := ["a"] })).at 1,
    (Action.call (.claim { agentId := "B", pathspec := ["a"], requestId := some "r" })).at 2,
    (Action.call (.semDeclare "s" 1)).at 3,
    (Action.call (.acquire { agentId := "A", sem := "s" })).at 4,
    (Action.call (.acquire { agentId := "B", sem := "s" })).at 5 ]

theorem queuedClaim_not_kept : ∃ σ : Sys, σ.store.pendingQueueStats.1 = 1 ∧
    (σ.store.waitingSemWaiters "s").length = 1 ∧ σ.store.KeepsNoWait ∧
      σ.store.AnswersNow {} := by
  have prompt : ∀ l ∈ queuedClaim, ∀ σ, Prompt {} σ l := by
    intro l hl σ
    simp only [queuedClaim, List.mem_cons, List.not_mem_nil, or_false] at hl
    rcases hl with rfl | rfl | rfl | rfl | rfl
    · exact .call (by simp)
    · exact .call (by simp)
    · exact .call (by simp)
    · exact .call (by rintro q ⟨⟩; rfl)
    · exact .call (by rintro q ⟨⟩; rfl)
  have run : ∃ σ, ReachableBy {} (Prompt {}) σ ∧ σ.store.pendingQueueStats.1 = 1 ∧
      (σ.store.waitingSemWaiters "s").length = 1 :=
    exists_reachableBy queuedClaim prompt (by decide +kernel)
  obtain ⟨σ, run, pending, waiting⟩ := run
  exact ⟨σ, pending, waiting, waits_not_kept run⟩

/-! ## A wait that is kept -/

/-- A request that waits for the permit of another agent, which then is released. -/
def keptWait : List (Env × Action) :=
  [ (Action.call (.semDeclare "s" 1)).at 1,
    (Action.call (.acquire { agentId := "A", sem := "s" })).at 2,
    (Action.call (.acquire { agentId := "B", sem := "s", requestId := some "r" })).at 3,
    (Action.call (.semRelease 0 "A" (some 1) none none)).at 4 ]

/-- The answer that a retry of the request gets, and the permit that its agent has then. -/
def retriedWait (s : Store) : Option (Option ReplyState × Option Orbit) :=
  (acquire {} 5 s { agentId := "B", sem := "s", requestId := some "r" }).toOption.map
    fun r => (r.2.state, r.1.activePermitFor "s" "B")

/-- A reachable retry is told to wait for a permit that its agent has. -/
theorem acquire_keeps_wait : ∃ σ, Reachable {} σ ∧ ¬ σ.store.KeepsNoWait ∧
    ¬ σ.store.AnswersNow {} := by
  have run : ∃ σ, Reachable {} σ ∧ (σ.store.idempotency.any fun row =>
      row.status = .DONE && row.argHash.polls && row.response.any Reply.waits) = true ∧
      ((retriedWait σ.store).any fun r => r.1 = some .WAITING && r.2.isSome) = true :=
    exists_reachable keptWait (by decide +kernel)
  obtain ⟨σ, reachable, kept, replayed⟩ := run
  refine ⟨σ, reachable, fun none => ?_, fun now => ?_⟩
  · simp only [List.any_eq_true, Bool.and_eq_true, decide_eq_true_eq, Option.any_eq_true] at kept
    obtain ⟨row, hrow, ⟨done, polls⟩, r, response, waits⟩ := kept
    cases (none row hrow done polls r response).symm.trans waits
  · rw [retriedWait] at replayed
    cases h : acquire {} 5 σ.store
        { agentId := "B", sem := "s", requestId := some "r" } with
    | error e => simp [h, Except.toOption] at replayed
    | ok x =>
        simp only [h, Except.toOption, Option.map_some, Option.any_some, Bool.and_eq_true,
          decide_eq_true_eq] at replayed
        obtain ⟨p, hp⟩ := Option.isSome_iff_exists.mp replayed.2
        obtain ⟨mem, permit⟩ := activePermitFor_spec hp
        have waits : x.2.waits = true := by
          rw [Reply.waits, replayed.1]
          rfl
        exact (now.acquire 5 _ x.1 x.2 h waits).2.1 p mem permit

end Omd
