import Omd.Primitives

/-!
# Reclaim and sweep

One routine takes everything from an agent, whether it bails or its heartbeat stopped:
its tokens, leases, permits and orbits are expired, its tasks go back to the queue or are
poisoned, and its epoch moves on, so that a call it sends later is fenced out.  The sweep
runs that routine over the silent agents between the expiry of held orbits and the
settlement of the queue.
-/

namespace Omd

open Lib

namespace Store

variable (s : Store)

/-- `set_agent_state`. -/
def setAgentState (id : AgentId) (state : AgentState) : Store :=
  s.setAgent id fun a => { a with state := state }

/-- `bump_bail_epoch`. -/
def bumpBailEpoch (id : AgentId) : Store :=
  s.setAgent id fun a => { a with bailEpoch := a.bailEpoch + 1 }

/-- The waiters of a reclaimed agent are cancelled. -/
def cancelSemWaiters (agent : AgentId) : Store :=
  { s with semWaiters := s.semWaiters.map fun w =>
      if w.agentId = agent ∧ w.state = .WAITING then { w with state := .CANCELLED } else w }

end Store

/-! ## The reclaim of one agent -/

/-- The expiry of a held row that is not a path orbit. -/
def expireHeld (now : Time) (s : Store) (o : Orbit) : Except Fault Store := do
  let state ← advanceOrbit .HELD .expire
  .ok (s.setOrbit o.orbitId fun r => { r with state := state, releasedAt := some now })

/-- The expiry of a flag lease, after the flags it backs. -/
def reclaimFlagLease (now : Time) (s : Store) (o : Orbit) : Except Fault Store :=
  expireHeld now (breakEphemeralFlagsForLease s o.orbitId) o

/-- The reclaim of one orbit.  The pin goes with it. -/
def reclaimOrbit (now : Time) (s : Store) (o : Orbit) : Except Fault Store := do
  let held := o.state = .HELD
  let event := if held then AdmissionEvent.LEASE_OWNER_RECLAIMED else .WAIT_OWNER_RECLAIMED
  let reason := if held then TerminalReason.lease_owner_reclaimed else .wait_owner_reclaimed
  let s ← reduceOrbitLifecycle s o event
  let state ← advanceOrbit o.state (if held then .expire else .deny)
  let s := s.setOrbit o.orbitId fun r =>
    { r with
      state := state
      releasedAt := some now
      merging := false
      decisionType := some event
      blockerIds := []
      terminalReason := some reason }
  .ok (if o.mode = .read then clearReadStaleSignal s o.orbitId else s)

/-- The tasks a reclaim takes from its agent. -/
def TaskState.inProgress : TaskState → Bool
  | .CLAIMED | .IN_ORBIT | .CONNECTING => true
  | _ => false

/-- The state a reclaimed task goes to, given how often it was reclaimed. -/
def reclaimedState (cfg : Cfg) (t : Task) : Except Fault TaskState := do
  let aborted ← advanceTask t.state .abort
  if cfg.maxReclaims < t.reclaims + 1 then advanceTask aborted .poison
  else advanceTask aborted .requeue

/-- The reclaim of one task. -/
def reclaimTask (cfg : Cfg) (s : Store) (t : Task) : Except Fault Store :=
  if t.state.inProgress then do
    let state ← reclaimedState cfg t
    .ok (s.setTask t.taskId fun r =>
      { r with state := state, agentId := none, reclaims := t.reclaims + 1 })
  else .ok s

/-- `_enqueue_agent_reclaimed_notification`. -/
def enqueueAgentReclaimed (s : Store) (agent : AgentId) (final : Option Orbit) :
    Except Fault Store :=
  let row : OutboxRow :=
    match final with
    | some o =>
        ⟨.AGENT_RECLAIMED, o.requestId.getD (RequestId.internal o.orbitId), o.requestGeneration,
          some o.orbitId⟩
    | none =>
        ⟨.AGENT_RECLAIMED, RequestId.reclaim agent,
          ((s.getAgent agent).map Agent.bailEpoch).getD 0, none⟩
  s.enqueueOutbox row

/-- What a reclaim reports. -/
structure Reclaimed where
  noop : Bool := false
  orbits : List OrbitId := []
  tasks : List TaskId := []

/-- The tokens, leases, permits and waits of an agent. -/
def reclaimSideLeases (now : Time) (agent : AgentId) (s : Store) : Except Fault Store := do
  let s ← (s.heldOfKindBy .merge_token agent).foldlM (expireHeld now) s
  let s ← (s.heldOfKindBy .flag_ephemeral agent).foldlM (reclaimFlagLease now) s
  let s ← (s.heldOfKindBy .sem_permit agent).foldlM (expireHeld now) s
  .ok (s.cancelSemWaiters agent)

/-- The tasks of an agent, and the barriers they belong to. -/
def reclaimTasks (cfg : Cfg) (now : Time) (agent : AgentId) (s : Store) : Except Fault Store := do
  let tasks := s.tasksForAgent agent
  let barriers :=
    (tasks.flatMap fun t => (s.barriersWithTask t.taskId).map Barrier.barrierId).dedup
  let s ← tasks.foldlM (reclaimTask cfg) s
  barrierEvalAll now barriers s

/-- `_reclaim_agent_inline`, less its last reconciliation. -/
def reclaimAgentCore (cfg : Cfg) (now : Time) (voluntary : Bool) (s : Store) (agent : AgentId) :
    Except Fault (Store × Reclaimed) :=
  match s.getAgent agent with
  | none => .ok (s, { noop := true })
  | some a =>
      if a.state = .RETIRED then .ok (s, { noop := true })
      else do
        let s := s.setAgentState agent (if voluntary then .BAILING else .ZOMBIE)
        let s := s.bumpBailEpoch agent
        let sems := ((s.heldOfKindBy .sem_permit agent).filterMap Orbit.resourceKey).dedup
        let s ← reclaimSideLeases now agent s
        let freed := (s.orbitsOwnedByAgent agent).map Orbit.orbitId
        let s ← (s.orbitsOwnedByAgent agent).foldlM (reclaimOrbit now) s
        let requeued := ((s.tasksForAgent agent).filter fun t =>
          t.state.inProgress && t.reclaims + 1 ≤ cfg.maxReclaims).map Task.taskId
        let s ← reclaimTasks cfg now agent s
        let s := s.setAgentState agent .RETIRED
        let s ← enqueueAgentReclaimed s agent (freed.getLast?.bind s.getOrbit)
        let s := sems.foldl (promoteSemWaiters cfg now) s
        .ok (s, { orbits := freed, tasks := requeued })

/-! ## The sweep -/

/-- `active_connect_pin`: the agent has a merge in flight whose orbits are pinned. -/
def activeConnectPin (s : Store) (agent : AgentId) : Bool :=
  (s.tasksForAgent agent).any fun t =>
    t.state = .CONNECTING && !(s.pinnedOrbitsForTask t.taskId).isEmpty

/-- One round of `_reclaim_zombies_inline`. -/
def reclaimZombie (cfg : Cfg) (now : Time) (s : Store) (a : Agent) : Except Fault Store :=
  if activeConnectPin s a.agentId then .ok s
  else do
    let r ← reclaimAgentCore cfg now false s a.agentId
    .ok r.1

/-- `_reclaim_zombies_inline`, as the reconciliation calls it. -/
def reclaimZombies (cfg : Cfg) (now : Time) (s : Store) : Except Fault Store :=
  match cfg.agentTtl with
  | none => .ok s
  | some ttl => (s.staleAgents now ttl).foldlM (reclaimZombie cfg now) s

/-- `_reconcile_admission`. -/
def reconcileAdmission (cfg : Cfg) (now : Time) (s : Store) : Except Fault Store := do
  let s ← expireDue now s
  let s ← reclaimZombies cfg now s
  settle cfg now s

/-- `_reclaim_agent_inline`, with its last reconciliation. -/
def reclaimAgent (cfg : Cfg) (now : Time) (voluntary : Bool) (s : Store) (agent : AgentId) :
    Except Fault (Store × Reclaimed) :=
  match s.getAgent agent with
  | none => .ok (s, { noop := true })
  | some a =>
      if a.state = .RETIRED then .ok (s, { noop := true })
      else do
        let r ← reclaimAgentCore cfg now voluntary s agent
        let s ← expireDue now r.1
        let s ← settle cfg now s
        .ok (s, r.2)

/-- The expiry of a flag lease whose holder did not renew it. -/
def sweepFlagLease (s : Store) (o : Orbit) : Except Fault Store := do
  let s := breakEphemeralFlagsForLease s o.orbitId
  let state ← advanceOrbit .HELD .expire
  .ok (s.setOrbit o.orbitId fun r => { r with state := state })

/-- The lapsed permits are expired and their slots handed on. -/
def sweepPermits (cfg : Cfg) (now : Time) (s : Store) : Except Fault Store := do
  let due := s.dueOfKind .sem_permit now
  let s ← due.foldlM (expireHeld now) s
  .ok ((due.filterMap Orbit.resourceKey).dedup.foldl (promoteSemWaiters cfg now) s)

/-- `_sweep_inline` after the reconciliation. -/
def sweepSide (cfg : Cfg) (now : Time) (s : Store) : Except Fault Store := do
  let s ← (s.dueOfKind .flag_ephemeral now).foldlM sweepFlagLease s
  let s ← sweepPermits cfg now s
  let armed := (s.barriers.filter fun b => b.state = .ARMED).map Barrier.barrierId
  let s ← barrierEvalAll now armed s
  let s := match cfg.idemTtl with
    | none => s
    | some ttl => s.gcIdem (now - ttl)
  .ok (match cfg.terminalRetention with
    | none => s
    | some retention => s.gcTerminal now retention)

/-- `_sweep_inline`. -/
def sweepInline (cfg : Cfg) (now : Time) (s : Store) : Except Fault Store := do
  let s ← reconcileAdmission cfg now s
  sweepSide cfg now s

end Omd
