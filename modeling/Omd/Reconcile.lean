import Omd.Store
import Omd.Lib.Digraph

/-!
# Reconciliation of the admission tables

Leases lapse, requests time out, ranks change with age, and space becomes free; each of
these is settled inside the critical section of whichever verb comes next, always in the
order of `_reconcile_admission`: expire what was held, time out what was queued, deny
what would deadlock, promote what may run.

Every write goes through the semantic admission machine first.  `semanticStep` is its
transition table and `assertAdmissionProjection` the check that its answer projects to
the state the caller is about to store.
-/

namespace Omd

open Lib

/-- The parameters a coordinator is started with.  A switch that is off reads `none`. -/
structure Cfg where
  policy : QueuePolicy := .default
  agentTtl : Option ℚ := some 90
  maxReclaims : ℕ := 3
  admissionWaitTimeout : ℚ := 3600
  admissionQueueCapacity : ℕ := 1024
  idemTtl : Option ℚ := some 3600
  terminalRetention : Option ℚ := none

/-! ## The semantic admission machine -/

/-- The states of a request, finer than those its row can store. -/
inductive SemanticState
  | REQUESTED | PENDING | HELD | RELEASED | EXPIRED | DENIED
  | REJECTED | CANCELLED | TIMED_OUT
  deriving DecidableEq, Repr

/-- The transition table of the admission machine. -/
def semanticStep : SemanticState → AdmissionEvent → Option SemanticState
  | .REQUESTED, .ADMISSION_GRANTED => some .HELD
  | .REQUESTED, .ADMISSION_QUEUED => some .PENDING
  | .REQUESTED, .ADMISSION_DENIED => some .DENIED
  | .REQUESTED, .ADMISSION_REJECTED => some .REJECTED
  | .REQUESTED, .CANCEL => some .CANCELLED
  | .PENDING, .PROMOTION_GRANTED => some .HELD
  | .PENDING, .PROMOTION_BLOCKED => some .PENDING
  | .PENDING, .PROMOTION_DENIED => some .DENIED
  | .PENDING, .WAIT_TIMEOUT => some .TIMED_OUT
  | .PENDING, .CANCEL => some .CANCELLED
  | .PENDING, .WAIT_OWNER_RECLAIMED => some .CANCELLED
  | .HELD, .RENEW => some .HELD
  | .HELD, .RELEASE => some .RELEASED
  | .HELD, .LEASE_EXPIRED => some .EXPIRED
  | .HELD, .LEASE_OWNER_RECLAIMED => some .EXPIRED
  | _, _ => none

/-- `project_legacy`: what a row stores for a semantic state. -/
def projectLegacy : SemanticState → Option OrbitState
  | .REQUESTED | .REJECTED => none
  | .PENDING => some .PENDING
  | .HELD => some .HELD
  | .RELEASED => some .RELEASED
  | .EXPIRED => some .EXPIRED
  | .DENIED | .CANCELLED | .TIMED_OUT => some .DENIED

/-- The semantic state a stored row is taken to be in. -/
def OrbitState.semantic : OrbitState → SemanticState
  | .PENDING => .PENDING
  | .HELD => .HELD
  | .RELEASED => .RELEASED
  | .EXPIRED => .EXPIRED
  | .DENIED => .DENIED

/-- The events that enqueue a notification. -/
def AdmissionEvent.notifies : AdmissionEvent → Bool
  | .PROMOTION_BLOCKED | .RENEW => false
  | _ => true

/-- The request, generation and orbit an event speaks of. -/
structure AdmissionIdentity where
  requestId : RequestId
  requestGeneration : ℕ
  orbitId : OrbitId

/-- `_admission_identity` of a stored row.  A row without a digest has its pathspec
normalised, which fails on an empty one. -/
def admissionIdentity (o : Orbit) : Except Fault AdmissionIdentity :=
  let identity := ⟨o.requestId.getD (RequestId.internal o.orbitId), o.requestGeneration, o.orbitId⟩
  match o.pathspecDigest with
  | some _ => .ok identity
  | none => do
      let _ ← normalizePathspec o.pathspec
      .ok identity

/-- `enqueue_admission_outbox`.  An event has one row; its identifier is new, so a second
one collides. -/
def Store.enqueueOutbox (s : Store) (row : OutboxRow) : Except Fault Store :=
  if row ∈ s.outbox then .error (.runtimeError "admission outbox event_id collision")
  else .ok { s with outbox := s.outbox ++ [row] }

/-- `_enqueue_admission_notification`. -/
def Store.enqueueNotification (s : Store) (event : AdmissionEvent) (id : AdmissionIdentity) :
    Except Fault Store :=
  if event.notifies then
    s.enqueueOutbox ⟨event, id.requestId, id.requestGeneration, some id.orbitId⟩
  else .ok s

/-- `_assert_admission_projection`.  `guard` is the time guard of the event. -/
def assertAdmissionProjection (s : Store) (state : SemanticState) (event : AdmissionEvent)
    (id : AdmissionIdentity) (guard : Bool) (expected : Option OrbitState) :
    Except Fault Store :=
  match if guard then semanticStep state event else none with
  | none => .error (.runtimeError "admission reducer rejected authority decision")
  | some st =>
      if projectLegacy st = expected then s.enqueueNotification event id
      else .error (.runtimeError "admission projection mismatch")

/-- The legacy states `_reduce_orbit_lifecycle` accepts events into. -/
def lifecycleTarget : AdmissionEvent → Option OrbitState
  | .RENEW => some .HELD
  | .RELEASE => some .RELEASED
  | .LEASE_EXPIRED => some .EXPIRED
  | .WAIT_OWNER_RECLAIMED => some .DENIED
  | .LEASE_OWNER_RECLAIMED => some .EXPIRED
  | _ => none

/-- `_reduce_orbit_lifecycle`. -/
def reduceOrbitLifecycle (s : Store) (o : Orbit) (event : AdmissionEvent) (guard : Bool := true) :
    Except Fault Store :=
  match lifecycleTarget event with
  | none => .error (.valueError "unsupported orbit lifecycle event")
  | some target => do
      let id ← admissionIdentity o
      assertAdmissionProjection s o.state.semantic event id guard (some target)

/-! ## Expiry and timeout -/

/-- One round of the expiry loop of `_reconcile_admission`. -/
def expireOrbit (now : Time) (s : Store) (o : Orbit) : Except Fault Store := do
  let s ← reduceOrbitLifecycle s o .LEASE_EXPIRED (reached o.expiresAt now)
  let state ← advanceOrbit .HELD .expire
  .ok (s.setOrbit o.orbitId fun r =>
    { r with
      state := state
      releasedAt := some now
      decisionType := some .LEASE_EXPIRED
      terminalReason := some .lease_expired })

/-- The expiry loop of `_reconcile_admission`. -/
def expireDue (now : Time) (s : Store) : Except Fault Store :=
  (s.dueOrbits now).foldlM (expireOrbit now) s

/-- One round of `_timeout_pending`. -/
def timeoutOrbit (now : Time) (s : Store) (o : Orbit) : Except Fault Store := do
  let id ← admissionIdentity o
  let s ← assertAdmissionProjection s .PENDING .WAIT_TIMEOUT id (reached o.waitDeadline now)
    (some .DENIED)
  let state ← advanceOrbit .PENDING .deny
  .ok (s.setOrbit o.orbitId fun r =>
    { r with
      state := state
      releasedAt := some now
      decisionType := some .WAIT_TIMEOUT
      blockerIds := []
      terminalReason := some .wait_timeout })

/-- `_timeout_pending`. -/
def timeoutPending (now : Time) (s : Store) : Except Fault Store :=
  (s.duePendingOrbits now).foldlM (timeoutOrbit now) s

/-! ## Decisions -/

/-- The effective priority in `_rank_observation`. -/
def rankObservation (cfg : Cfg) (o : Orbit) (observedAt : Time) : Option ℤ :=
  cfg.policy.effectivePriority o.priority o.policyVersion o.enqueuedAt observedAt
    (o.state ≠ .PENDING)

/-- The rank of a stored row. -/
def Orbit.rank (cfg : Cfg) (observedAt : Time) (o : Orbit) : Option Rank :=
  cfg.policy.rankKey o.priority o.queueSeq o.policyVersion o.enqueuedAt observedAt

/-- The sort key of `_ordered_pending`: rows without a rank come first. -/
def orderKey (cfg : Cfg) (observedAt : Time) (o : Orbit) : ℕ ×ₗ (ℤ ×ₗ (ℤ ×ₗ ℕ)) :=
  match o.rank cfg observedAt with
  | none =>
      let seq := match o.queueSeq with
        | some q => if q = 0 then -1 else q
        | none => -1
      toLex (0, toLex (0, toLex (seq, o.orbitId)))
  | some r => toLex (1, toLex ((ofLex r).1, toLex ((ofLex r).2, o.orbitId)))

/-- `_ordered_pending`. -/
def orderedPending (cfg : Cfg) (s : Store) (observedAt : Time) : List Orbit :=
  s.pendingOrbits.insertionSort fun a b => orderKey cfg observedAt a ≤ orderKey cfg observedAt b

/-- `decide_admission` over the rows of the store. -/
def Store.decide (cfg : Cfg) (s : Store) (request : AdmissionRequest) (observedAt : Time) :
    Except Fault AdmissionDecision :=
  decideAdmission cfg.policy request (s.heldOrbits.map Orbit.row) (s.pendingOrbits.map Orbit.row)
    observedAt

/-- `_admission_decision`. -/
def admissionDecision (cfg : Cfg) (s : Store) (pathspec : List String) (mode : Mode)
    (priority : ℤ) (queueSeq : Option ℤ) (orbitId : Option OrbitId)
    (policyVersion : Option PolicyVersion) (enqueuedAt : Option Time) (observedAt : Time) :
    Except Fault AdmissionDecision := do
  let request ← AdmissionRequest.build pathspec mode priority queueSeq orbitId
    (some (policyVersion.getD cfg.policy.version)) enqueuedAt
  s.decide cfg request observedAt

/-- `_admission_decision` about a queued row. -/
def admissionDecisionOf (cfg : Cfg) (s : Store) (o : Orbit) (observedAt : Time) :
    Except Fault AdmissionDecision :=
  admissionDecision cfg s o.pathspec o.mode o.priority o.queueSeq (some o.orbitId)
    o.policyVersion o.enqueuedAt observedAt

/-- `_pending_owner_fresh`. -/
def pendingOwnerFresh (cfg : Cfg) (s : Store) (o : Orbit) (now : Time) : Bool :=
  match s.getAgent o.agentId with
  | none => false
  | some agent =>
      if agent.state ≠ .WORKING then false
      else
        match cfg.agentTtl with
        | none => true
        | some ttl => now - agent.livenessTtl.getD ttl ≤ agent.lastHeartbeat

/-! ## Deadlock -/

/-- A wait: who waits, for whom, and by which queued row. -/
structure Wait where
  source : AgentId
  target : AgentId
  orbitId : OrbitId
  deriving DecidableEq, Repr

/-- The waits of one queued row.  A row without a rank asserts none. -/
def waitsOf (cfg : Cfg) (s : Store) (observedAt : Time) (p : Orbit) : Except Fault (List Wait) :=
  match rankObservation cfg p observedAt with
  | none => .ok []
  | some _ => do
      let request ← AdmissionRequest.build p.pathspec p.mode p.priority p.queueSeq
        (some p.orbitId) p.policyVersion p.enqueuedAt
      let decision ← s.decide cfg request observedAt
      .ok (decision.blockerIds.filterMap fun id =>
        match Table.get Orbit.orbitId id (s.heldOrbits ++ s.pendingOrbits) with
        | none => none
        | some blocker =>
            if blocker.agentId ≠ p.agentId then some ⟨p.agentId, blocker.agentId, p.orbitId⟩
            else none)

/-- `_wait_for`. -/
def waitFor (cfg : Cfg) (s : Store) (observedAt : Time) : Except Fault (List Wait) := do
  let waits ← s.pendingOrbits.mapM (waitsOf cfg s observedAt)
  .ok waits.flatten

/-- The edges of the wait-for graph. -/
def waitEdges (waits : List Wait) : List (AgentId × AgentId) :=
  waits.map fun w => (w.source, w.target)

/-- `sorted(…, key=str)` on agents. -/
def sortAgents (l : List AgentId) : List AgentId := l.insertionSort (· ≤ ·)

/-- `_cycle_with`. -/
def cycleWith (cfg : Cfg) (s : Store) (agent : AgentId) (observedAt : Time) :
    Except Fault Bool := do
  let waits ← waitFor cfg s observedAt
  .ok (Digraph.onCycle (waitEdges waits) sortAgents agent)

/-- The queued rows that assert an edge of the walk. -/
def cycleSources (s : Store) (waits : List Wait) (cycle : List AgentId) : List Orbit :=
  let pairs := cycle.zip cycle.tail
  let ids := ((waits.filter fun w => (w.source, w.target) ∈ pairs).map Wait.orbitId).dedup
  (ids.filterMap s.getOrbit).filter fun o => o.state = .PENDING

/-- The candidate with the largest ticket. -/
def victimOf : List Orbit → Option Orbit
  | [] => none
  | o :: os =>
      match victimOf os with
      | none => some o
      | some v =>
          let key := fun (r : Orbit) => (toLex (r.queueSeq.getD 0, (r.orbitId : ℤ)) : ℤ ×ₗ ℤ)
          if key v ≤ key o then some o else some v

/-- The denial of one victim. -/
def denyVictim (cfg : Cfg) (now : Time) (reason : TerminalReason) (s : Store) (victim : Orbit) :
    Except Fault Store := do
  let decision ← admissionDecisionOf cfg s victim now
  let id ← admissionIdentity victim
  let s ← assertAdmissionProjection s .PENDING .PROMOTION_DENIED id true (some .DENIED)
  let state ← advanceOrbit .PENDING .deny
  .ok (s.setOrbit victim.orbitId fun r =>
    { r with
      state := state
      releasedAt := some now
      decisionType := some .PROMOTION_DENIED
      blockerIds := decision.blockerIds
      terminalReason := some reason })

/-- The loop of `_deny_reservation_cycles`. -/
def denyCyclesLoop (cfg : Cfg) (now : Time) (reason : TerminalReason) :
    ℕ → Store → Except Fault Store
  | 0, _ => .error .diverged
  | fuel + 1, s => do
      let waits ← waitFor cfg s now
      match Digraph.findCycle (waitEdges waits) sortAgents with
      | none => .ok s
      | some cycle =>
          match victimOf (cycleSources s waits cycle) with
          | none =>
              .error (.runtimeError "reservation cycle has no authoritative PENDING source")
          | some victim => do
              let s ← denyVictim cfg now reason s victim
              denyCyclesLoop cfg now reason fuel s

/-- `_deny_reservation_cycles`.  Every round denies a queued row, so the depth of the queue
bounds the rounds. -/
def denyReservationCycles (cfg : Cfg) (now : Time) (s : Store)
    (reason : TerminalReason := .reservation_cycle_after_rank_change) : Except Fault Store :=
  denyCyclesLoop cfg now reason (s.pendingOrbits.length + 1) s

/-! ## Promotion -/

/-- The write of a granted promotion. -/
def grantPromotion (now : Time) (s : Store) (o : Orbit) : Except Fault Store := do
  let s := s.bumpFence
  let fence := s.fence
  let readGen := s.integrationGen
  let leaseDeadline := now + o.requestedTtl.getD 600
  let id ← admissionIdentity o
  let s ← assertAdmissionProjection s .PENDING .PROMOTION_GRANTED id true (some .HELD)
  let state ← advanceOrbit .PENDING .grant
  .ok (s.setOrbit o.orbitId fun r =>
    { r with
      state := state
      expiresAt := some leaseDeadline
      fence := some fence
      readGen := if o.mode = .read then some readGen else r.readGen
      decisionType := some .PROMOTION_GRANTED
      blockerIds := [] })

/-- The write of a promotion that stays blocked. -/
def blockPromotion (s : Store) (o : Orbit) (decision : AdmissionDecision) :
    Except Fault Store := do
  let id ← admissionIdentity o
  let s ← assertAdmissionProjection s .PENDING .PROMOTION_BLOCKED id true (some .PENDING)
  .ok (s.setOrbit o.orbitId fun r =>
    { r with decisionType := some .PROMOTION_BLOCKED, blockerIds := decision.blockerIds })

/-- One round of `_promote_pending`. -/
def promoteOrbit (cfg : Cfg) (now : Time) (s : Store) (o : Orbit) : Except Fault Store :=
  if reached o.waitDeadline now then .ok s
  else if !pendingOwnerFresh cfg s o now then .ok s
  else if rankObservation cfg o now = none then .ok s
  else do
    let decision ← admissionDecisionOf cfg s o now
    if decision.grantable then grantPromotion now s o else blockPromotion s o decision

/-- `_promote_pending`. -/
def promotePending (cfg : Cfg) (now : Time) (s : Store) : Except Fault Store :=
  (orderedPending cfg s now).foldlM (promoteOrbit cfg now) s

/-- The part of `_reconcile_admission` after the reclaim: time out, deny, promote. -/
def settle (cfg : Cfg) (now : Time) (s : Store) : Except Fault Store := do
  let s ← timeoutPending now s
  let s ← denyReservationCycles cfg now s
  promotePending cfg now s

end Omd
