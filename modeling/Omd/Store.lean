import Omd.Admission
import Omd.Lib.Table

/-!
# The store

One record holds the tables and the counters of the database.  The queries are the
`SELECT`s of the source, as filters of a table; the updates are its `INSERT`s and
`UPDATE`s.  Rows keep the source's columns, less those that nothing modelled reads.

Identifiers drawn at random by the source are drawn from the counter `uuid`, digests of
arguments are the arguments themselves, and times are rationals.
-/

namespace Omd

open Lib

/-! ## Names -/

/-- `agent_id`. -/
abbrev AgentId := String

/-- `task_id`. -/
abbrev TaskId := String

/-- `connect_attempt_id`, also the `operation_id` of the token that carries it. -/
abbrev AttemptId := ℕ

/-- The identifier of a commit. -/
abbrev Sha := String

/-- A clock reading. -/
abbrev Time := ℚ

/-- The request a row was admitted for.  Those that the server makes up are strings like those of
its callers, who may give them back. -/
abbrev RequestId := String

namespace RequestId

/-- The request of a claim that was given none. -/
def internal (orbit : OrbitId) : RequestId := "internal:orb-" ++ toString orbit

/-- The request of the reclaim of an agent. -/
def reclaim (agent : AgentId) : RequestId := "internal:agent-reclaim:" ++ agent

end RequestId

/-- `_intent_key`: agent, paths, mode and task. -/
structure IntentKey where
  agent : AgentId
  paths : List String
  mode : Mode
  task : Option TaskId
  deriving DecidableEq, Repr

/-- What a row of `orbits` stands for. -/
inductive OrbitKind
  | orbit | merge_token | flag_ephemeral | sem_permit
  deriving DecidableEq, Repr

/-- The events of the admission machine, and the summary of a reclaim. -/
inductive AdmissionEvent
  | ADMISSION_GRANTED | ADMISSION_QUEUED | ADMISSION_DENIED | ADMISSION_REJECTED
  | PROMOTION_GRANTED | PROMOTION_BLOCKED | PROMOTION_DENIED
  | RENEW | RELEASE | CANCEL | WAIT_TIMEOUT | LEASE_EXPIRED
  | WAIT_OWNER_RECLAIMED | LEASE_OWNER_RECLAIMED | AGENT_RECLAIMED
  deriving DecidableEq, Repr

/-- `terminal_reason`. -/
inductive TerminalReason
  | wait_timeout | lease_expired | reservation_cycle | reservation_cycle_after_grant
  | reservation_cycle_after_rank_change | lease_owner_reclaimed | wait_owner_reclaimed
  | cancelled | task_cancelled
  deriving DecidableEq, Repr

/-! ## Rows -/

/-- A row of `orbits`. -/
structure Orbit where
  orbitId : OrbitId
  taskId : Option TaskId := none
  agentId : AgentId
  pathspec : List String := []
  mode : Mode := .write
  state : OrbitState
  fence : Option ℕ := none
  expiresAt : Option Time := none
  createdAt : Time
  releasedAt : Option Time := none
  reason : String := ""
  priority : ℤ := 0
  kind : OrbitKind := .orbit
  resourceKey : Option String := none
  merging : Bool := false
  operationId : Option AttemptId := none
  ownerInstance : Option String := none
  ownerGeneration : Option ℕ := none
  intentKey : Option IntentKey := none
  queueSeq : Option ℤ := none
  requestedTtl : Option ℚ := none
  policyVersion : Option PolicyVersion := none
  pathspecDigest : Option (List String) := none
  requestId : Option RequestId := none
  requestGeneration : ℕ := 0
  bailEpoch : ℕ := 0
  decisionType : Option AdmissionEvent := none
  blockerIds : List OrbitId := []
  enqueuedAt : Option Time := none
  waitDeadline : Option Time := none
  terminalReason : Option TerminalReason := none
  readGen : Option ℕ := none
  stale : Bool := false
  terminalAt : Option Time := none
  deriving DecidableEq, Repr

/-- What admission reads of a row. -/
def Orbit.row (o : Orbit) : Row where
  orbitId := o.orbitId
  mode := some o.mode
  pathspec := some o.pathspec
  priority := o.priority
  queueSeq := o.queueSeq
  policyVersion := o.policyVersion
  enqueuedAt := o.enqueuedAt

theorem Orbit.row_readable (o : Orbit) : o.row.Readable := ⟨rfl, rfl⟩

/-- A held path orbit. -/
def Orbit.isHeld (o : Orbit) : Bool := o.state = .HELD && o.kind = .orbit

/-- A queued path orbit. -/
def Orbit.isPending (o : Orbit) : Bool := o.state = .PENDING && o.kind = .orbit

/-- A deadline that was set and has passed. -/
def reached (deadline : Option Time) (now : Time) : Bool :=
  match deadline with
  | none => false
  | some t => t ≤ now

/-- A held orbit that is past its deadline and is not pinned. -/
def Orbit.isDue (o : Orbit) (now : Time) : Bool :=
  o.isHeld && !o.merging && reached o.expiresAt now

/-- The kinds of calls that reserve a request identifier, with the arguments their
digest covers. -/
inductive IdemArgs
  | claim (agent : AgentId) (paths : List String) (mode : Mode) (task : Option TaskId)
      (ttl : ℚ) (priority : ℤ) (reason : String) (bailEpoch : Option ℕ)
  | rollover_claim (prior : OrbitId) (generation bailEpoch : ℕ)
  | cancel_wait (orbit : OrbitId) (generation bailEpoch : ℕ)
  | renew (orbit : OrbitId) (fence : Option ℕ) (ttl : ℚ)
  | release (orbit : OrbitId) (fence : Option ℕ)
  | bail (agent : AgentId)
  | start (task : TaskId)
  | commit (task : TaskId) (msg : String) (fence : Option ℕ)
  | finish (task : TaskId) (fence : Option ℕ)
  | cancel (task : TaskId)
  | connect (task : TaskId) (agent : Option AgentId) (fence : Option ℕ)
      (push : Option String) (bailEpoch : Option ℕ)
  | read_refresh (task : TaskId) (fence : Option ℕ)
  | barrier_arrive (name : String) (task : TaskId) (fence bailEpoch : Option ℕ)
  | barrier_abort (name : String)
  | barrier_consume (name : String)
  | flag_set (key value : String) (ephemeral : Bool)
  | flag_clear (key : String)
  | acquire (agent : AgentId) (sem : String) (ttl : Option ℚ) (noWait : Bool)
      (priority : ℤ)
  | sem_release (permit : OrbitId) (fence : Option ℕ)
  deriving DecidableEq, Repr

/-- A row of `tasks`. -/
structure Task where
  taskId : TaskId
  writes : List String := []
  reads : List String := []
  deps : List TaskId := []
  shared : List String := []
  state : TaskState
  agentId : Option AgentId := none
  priority : ℤ := 0
  createdAt : Time
  worktree : Option String := none
  branch : Option String := none
  connectFence : Option ℕ := none
  connectIntentAt : Option Time := none
  branchTipSha : Option Sha := none
  integrationBaseSha : Option Sha := none
  connectAttemptId : Option AttemptId := none
  connectOwnerInstance : Option String := none
  connectOwnerGeneration : ℕ := 0
  connectTokenId : Option OrbitId := none
  connectRequestId : Option RequestId := none
  connectArgHash : Option IdemArgs := none
  connectRepoBound : Bool := false
  mergeSha : Option Sha := none
  mergedAt : Option Time := none
  readSyncedGen : Option ℕ := none
  reclaims : ℕ := 0
  terminalAt : Option Time := none
  resolveFor : Option TaskId := none
  resolveConflictFiles : Option (List String) := none
  deriving DecidableEq, Repr

/-- The states of an agent row. -/
inductive AgentState
  | WORKING | BAILING | ZOMBIE | RETIRED
  deriving DecidableEq, Repr

/-- A row of `agents`. -/
structure Agent where
  agentId : AgentId
  state : AgentState := .WORKING
  lastHeartbeat : Time
  bailEpoch : ℕ := 0
  livenessTtl : Option ℚ := none
  deriving DecidableEq, Repr

/-- An agent that was silent for longer than its window. -/
def Agent.isStale (a : Agent) (now : Time) (ttl : ℚ) : Bool :=
  a.state ≠ .RETIRED && a.lastHeartbeat < now - a.livenessTtl.getD ttl

/-- A row of `merge_log`. -/
structure MergeEntry where
  gen : ℕ
  taskId : TaskId
  globs : List String
  deriving DecidableEq, Repr

/-- What a reply says its subject is in. -/
inductive ReplyState
  | orbit (state : OrbitState)
  | task (state : TaskState)
  | barrier (state : BarrierState)
  | REJECTED | CANCELLED
  | WAITING | SATISFIED | TIMEOUT | FLAG_BROKEN
  | ACQUIRED | FAIL | WAITER_CANCELLED
  deriving DecidableEq, Repr

/-- What a verb answers.  A field the reply does not have is `none`, `false` or empty. -/
structure Reply where
  ok : Option Bool := none
  state : Option ReplyState := none
  reason : Option String := none
  fencedOut : Bool := false
  deadlock : Bool := false
  retry : Bool := false
  noop : Bool := false
  dedup : Bool := false
  replayed : Bool := false
  recoveryRequired : Bool := false
  preserveIdempotency : Bool := false
  orbitId : Option OrbitId := none
  fence : Option ℕ := none
  queueSeq : Option ℤ := none
  requestGeneration : Option ℕ := none
  bailEpoch : Option ℕ := none
  conflicts : List OrbitId := []
  orbits : List OrbitId := []
  tasks : List TaskId := []
  resolveTaskId : Option TaskId := none
  gen : Option ℕ := none
  mergeSha : Option Sha := none
  waiter : Option ℕ := none
  deriving DecidableEq, Repr

/-- The states of a request identifier. -/
inductive IdemStatus
  | INFLIGHT | DONE | RETRYABLE
  deriving DecidableEq, Repr

/-- A row of `idempotency`.  The verb is the constructor of `argHash`. -/
structure IdemRow where
  requestId : RequestId
  agentId : Option AgentId
  argHash : IdemArgs
  status : IdemStatus := .INFLIGHT
  response : Option Reply := none
  completedAt : Option Time := none
  operationId : Option AttemptId := none
  ownerInstance : Option String := none
  ownerGeneration : Option ℕ := none
  deriving DecidableEq, Repr

/-- `flag_type`. -/
inductive FlagType
  | LATCH | EPHEMERAL
  deriving DecidableEq, Repr

/-- `status` of a flag. -/
inductive FlagStatus
  | LIVE | CLEARED | BROKEN
  deriving DecidableEq, Repr

/-- A row of `flags`. -/
structure Flag where
  key : String
  value : String
  setBy : Option AgentId := none
  flagType : FlagType := .LATCH
  epoch : ℕ := 0
  rank : ℕ := 0
  status : FlagStatus := .LIVE
  ownerAgent : Option AgentId := none
  leaseId : Option OrbitId := none
  deriving DecidableEq, Repr

/-- The states of a flag waiter. -/
inductive FlagWaiterState
  | WAITING | SATISFIED | BROKEN | TIMEOUT
  deriving DecidableEq, Repr

/-- A row of `flag_waiters`. -/
structure FlagWaiter where
  waiterId : ℕ
  agentId : Option AgentId
  key : String
  wantValue : String
  deadline : Time
  state : FlagWaiterState := .WAITING
  deriving DecidableEq, Repr

/-- A row of `semaphores`. -/
structure Semaphore where
  semId : String
  maxPermits : ℕ
  deriving DecidableEq, Repr

/-- The states of a semaphore waiter. -/
inductive SemWaiterState
  | WAITING | GRANTED | CANCELLED | TIMEOUT
  deriving DecidableEq, Repr

/-- A row of `sem_waiters`. -/
structure SemWaiter where
  waiterId : ℕ
  semId : String
  agentId : AgentId
  ttl : Option ℚ
  priority : ℤ
  enqueuedSeq : ℤ
  deadline : Time
  state : SemWaiterState := .WAITING
  permitId : Option OrbitId := none
  deriving DecidableEq, Repr

/-- What a barrier does about a party that dies. -/
inductive BarrierPolicy
  | break_ | shrink
  deriving DecidableEq, Repr

/-- `barrier_id`: the name and the generation. -/
abbrev BarrierId := String × ℕ

/-- A row of `barriers`. -/
structure Barrier where
  barrierId : BarrierId
  name : String
  parties : ℕ
  generation : ℕ
  state : BarrierState := .ARMED
  breakReason : Option String := none
  policy : BarrierPolicy := .break_
  deadlineAt : Option Time := none
  deriving DecidableEq, Repr

/-- A row of `barrier_parties`. -/
structure BarrierParty where
  barrierId : BarrierId
  generation : ℕ
  taskId : TaskId
  agentId : Option AgentId := none
  arrived : Bool := false
  arriveFence : Option ℕ := none
  deriving DecidableEq, Repr

/-- A row of `admission_outbox`, up to its delivery columns.  The summary of a reclaim
that freed nothing names no orbit. -/
structure OutboxRow where
  transition : AdmissionEvent
  requestId : RequestId
  requestGeneration : ℕ
  orbitId : Option OrbitId
  deriving DecidableEq, Repr

/-- The tables and the counters.  `seq` is `-1` before its first ticket. -/
structure Store where
  orbits : List Orbit := []
  tasks : List Task := []
  agents : List Agent := []
  mergeLog : List MergeEntry := []
  idempotency : List IdemRow := []
  flags : List Flag := []
  flagWaiters : List FlagWaiter := []
  semaphores : List Semaphore := []
  semWaiters : List SemWaiter := []
  barriers : List Barrier := []
  barrierParties : List BarrierParty := []
  outbox : List OutboxRow := []
  tasksArchive : List Task := []
  orbitsArchive : List Orbit := []
  fence : ℕ := 0
  seq : ℤ := -1
  integrationGen : ℕ := 0
  uuid : ℕ := 0

namespace Store

variable (s : Store)

/-! ## Orbits -/

/-- `get_orbit`. -/
def getOrbit (id : OrbitId) : Option Orbit := Table.get Orbit.orbitId id s.orbits

/-- `set_orbit`. -/
def setOrbit (id : OrbitId) (f : Orbit → Orbit) : Store :=
  { s with orbits := Table.modify Orbit.orbitId id f s.orbits }

/-- `add_orbit`; the row carries its identifier. -/
def addOrbit (o : Orbit) : Store := { s with orbits := s.orbits ++ [o] }

/-- `held_orbits`. -/
def heldOrbits : List Orbit := s.orbits.filter Orbit.isHeld

/-- The order of `ORDER BY queue_seq ASC`, where `NULL` comes first. -/
def seqLe (a b : Option ℤ) : Bool :=
  match a, b with
  | none, _ => true
  | some _, none => false
  | some x, some y => x ≤ y

/-- `pending_orbits`. -/
def pendingOrbits : List Orbit :=
  (s.orbits.filter Orbit.isPending).insertionSort fun a b => seqLe a.queueSeq b.queueSeq

/-- `orbits_for_task`. -/
def orbitsForTask (task : TaskId) : List Orbit :=
  s.orbits.filter fun o => o.taskId = some task && o.kind = .orbit

/-- The rows of `orbits_for_task` whose mode is a write mode. -/
def writesForTask (task : TaskId) : List Orbit :=
  (s.orbitsForTask task).filter fun o => o.mode.writes

/-- `due_orbits`. -/
def dueOrbits (now : Time) : List Orbit := s.orbits.filter fun o => o.isDue now

/-- `due_pending_orbits`. -/
def duePendingOrbits (now : Time) : List Orbit :=
  (s.orbits.filter fun o => o.isPending && reached o.waitDeadline now).insertionSort
    fun a b => a.waitDeadline.getD 0 < b.waitDeadline.getD 0 ∨
      a.waitDeadline.getD 0 = b.waitDeadline.getD 0 ∧ seqLe a.queueSeq b.queueSeq = true

/-- `pending_queue_stats`: the depth and the earliest wait deadline. -/
def pendingQueueStats : ℕ × Option Time :=
  let pending := s.orbits.filter Orbit.isPending
  (pending.length, (pending.filterMap Orbit.waitDeadline).min?)

/-- `orbit_by_intent`: the first live row of an intent. -/
def orbitByIntent (key : IntentKey) : Option Orbit :=
  s.orbits.find? fun o =>
    o.intentKey = some key && (o.state = .HELD || o.state = .PENDING)

/-- The row of a request with the largest generation, the later one among equals. -/
def latestOf (rows : List Orbit) : Option Orbit :=
  rows.foldl (fun best o =>
    match best with
    | none => some o
    | some b => if b.requestGeneration ≤ o.requestGeneration then some o else some b) none

/-- The path orbits of a request. -/
def orbitsOfRequest (id : RequestId) : List Orbit :=
  s.orbits.filter fun o => o.requestId = some id && o.kind = .orbit

/-- `latest_orbit_by_request`. -/
def latestOrbitByRequest (id : Option RequestId) : Option Orbit :=
  match id with
  | none => none
  | some id => latestOf (s.orbitsOfRequest id)

/-- `orbit_by_request`: the earlier one among equal generations. -/
def orbitByRequest (id : RequestId) : Option Orbit := latestOf (s.orbitsOfRequest id).reverse

/-- `next_request_generation`. -/
def nextRequestGeneration (id : RequestId) : ℕ :=
  match (s.orbitsOfRequest id).map Orbit.requestGeneration |>.max? with
  | none => 0
  | some g => g + 1

/-- `orbits_owned_by_agent`, the live ones. -/
def orbitsOwnedByAgent (agent : AgentId) : List Orbit :=
  s.orbits.filter fun o =>
    o.agentId = agent && o.kind = .orbit && (o.state = .HELD || o.state = .PENDING)

/-- `live_read_orbits`. -/
def liveReadOrbits : List Orbit := s.orbits.filter fun o => o.isHeld && o.mode = .read

/-- `stale_read_orbits_for_task`. -/
def staleReadOrbitsForTask (task : TaskId) : List Orbit :=
  s.orbits.filter fun o => o.isHeld && o.taskId = some task && o.mode = .read && o.stale

/-- `pinned_orbits_for_task`. -/
def pinnedOrbitsForTask (task : TaskId) : List Orbit :=
  s.orbits.filter fun o => o.taskId = some task && o.kind = .orbit && o.merging

/-- The held rows of one kind. -/
def heldOfKind (kind : OrbitKind) : List Orbit :=
  s.orbits.filter fun o => o.kind = kind && o.state = .HELD

/-- The held rows of one kind that an agent owns. -/
def heldOfKindBy (kind : OrbitKind) (agent : AgentId) : List Orbit :=
  (s.heldOfKind kind).filter fun o => o.agentId = agent

/-- The held rows of one kind that are past their deadline. -/
def dueOfKind (kind : OrbitKind) (now : Time) : List Orbit :=
  (s.heldOfKind kind).filter fun o => reached o.expiresAt now

/-- The resource of every merge token. -/
def mergeResource : String := "cloud:default"

/-- `held_merge_token` of the one resource. -/
def heldMergeToken : Option Orbit :=
  (s.heldOfKind .merge_token).find? fun o => o.resourceKey = some mergeResource

/-- The held permits of a semaphore. -/
def activePermits (sem : String) : List Orbit :=
  (s.heldOfKind .sem_permit).filter fun o => o.resourceKey = some sem

/-! ## Counters -/

/-- The store after `next_fence`, which returns its new `fence`. -/
def bumpFence : Store := { s with fence := s.fence + 1 }

/-- The store after `next_seq`, which returns its new `seq`. -/
def bumpSeq : Store := { s with seq := s.seq + 1 }

/-- The store after an identifier was drawn; the identifier is the old `uuid`. -/
def bumpUuid : Store := { s with uuid := s.uuid + 1 }

/-! ## Tasks -/

/-- `get_task`. -/
def getTask (id : TaskId) : Option Task := Table.get Task.taskId id s.tasks

/-- `set_task`. -/
def setTask (id : TaskId) (f : Task → Task) : Store :=
  { s with tasks := Table.modify Task.taskId id f s.tasks }

/-- `add_task`: a row that exists keeps its state and its connect columns. -/
def addTask (t : Task) : Store :=
  match s.getTask t.taskId with
  | none => { s with tasks := s.tasks ++ [t] }
  | some _ =>
      s.setTask t.taskId fun old =>
        { old with
          writes := t.writes
          reads := t.reads
          deps := t.deps
          priority := t.priority
          shared := t.shared
          resolveFor := t.resolveFor
          resolveConflictFiles := t.resolveConflictFiles }

/-- `tasks_by_state`: priority descending, then age. -/
def tasksByState (states : List TaskState) : List Task :=
  (s.tasks.filter fun t => t.state ∈ states).insertionSort fun a b =>
    b.priority < a.priority ∨ a.priority = b.priority ∧ a.createdAt ≤ b.createdAt

/-- `tasks_for_agent`. -/
def tasksForAgent (agent : AgentId) : List Task :=
  s.tasks.filter fun t => t.agentId = some agent

/-! ## Agents -/

/-- `get_agent`. -/
def getAgent (id : AgentId) : Option Agent := Table.get Agent.agentId id s.agents

/-- An update of one row of `agents`. -/
def setAgent (id : AgentId) (f : Agent → Agent) : Store :=
  { s with agents := Table.modify Agent.agentId id f s.agents }

/-- `upsert_agent`. -/
def upsertAgent (id : AgentId) (now : Time) : Store :=
  match s.getAgent id with
  | none => { s with agents := s.agents ++ [{ agentId := id, lastHeartbeat := now }] }
  | some _ => s.setAgent id fun a => { a with state := .WORKING, lastHeartbeat := now }

/-- `stale_agents`. -/
def staleAgents (now : Time) (ttl : ℚ) : List Agent :=
  s.agents.filter fun a => a.isStale now ttl

/-! ## The merge log -/

/-- `append_merge_log`: a generation has one entry. -/
def appendMergeLog (e : MergeEntry) : Store :=
  if s.mergeLog.any fun m => m.gen = e.gen then
    { s with mergeLog := Table.modify MergeEntry.gen e.gen (fun _ => e) s.mergeLog }
  else { s with mergeLog := s.mergeLog ++ [e] }

/-- `merges_since`. -/
def mergesSince (gen : ℕ) : List MergeEntry :=
  (s.mergeLog.filter fun m => gen < m.gen).insertionSort fun a b => a.gen ≤ b.gen

/-! ## Request identifiers -/

/-- `get_idem`. -/
def getIdem (id : RequestId) : Option IdemRow := Table.get IdemRow.requestId id s.idempotency

/-- The rows an exact-envelope statement selects. -/
def idemExact (id : RequestId) (agent : Option AgentId) (args : IdemArgs) (status : IdemStatus)
    (r : IdemRow) : Bool :=
  r.requestId = id && r.agentId = agent && r.argHash = args && r.status = status

/-- An exact-envelope update: `none` when it changed no row. -/
def updateIdem (p : IdemRow → Bool) (f : IdemRow → IdemRow) : Option Store :=
  if s.idempotency.any p then
    some { s with idempotency := s.idempotency.map fun r => if p r then f r else r }
  else none

/-- `begin_idem`. -/
def beginIdem (id : RequestId) (agent : Option AgentId) (args : IdemArgs) : Store :=
  match s.getIdem id with
  | some _ => s
  | none =>
      { s with idempotency :=
          s.idempotency ++ [{ requestId := id, agentId := agent, argHash := args }] }

/-- `finish_idem_exact`. -/
def finishIdemExact (id : RequestId) (agent : Option AgentId) (args : IdemArgs) (response : Reply)
    (now : Time) : Option Store :=
  s.updateIdem (idemExact id agent args .INFLIGHT) fun r =>
    { r with status := .DONE, response := some response, completedAt := some now }

/-- `bind_idem_operation_exact`. -/
def bindIdemOperationExact (id : RequestId) (agent : Option AgentId) (args : IdemArgs)
    (operation : AttemptId) (owner : String) (generation : ℕ) : Option Store :=
  s.updateIdem (fun r => idemExact id agent args .INFLIGHT r && r.operationId = none) fun r =>
    { r with
      operationId := some operation
      ownerInstance := some owner
      ownerGeneration := some generation }

/-- `takeover_idem_operation_exact`. -/
def takeoverIdemOperationExact (id : RequestId) (agent : Option AgentId) (args : IdemArgs)
    (operation : AttemptId) (previousOwner : Option String) (previousGeneration : ℕ)
    (owner : String) (generation : ℕ) : Option Store :=
  s.updateIdem
    (fun r => idemExact id agent args .INFLIGHT r && r.operationId = some operation &&
      r.ownerInstance = previousOwner && r.ownerGeneration = some previousGeneration)
    fun r => { r with ownerInstance := some owner, ownerGeneration := some generation }

/-- `mark_idem_retryable_exact`. -/
def markIdemRetryableExact (id : RequestId) (agent : Option AgentId) (args : IdemArgs) :
    Option Store :=
  s.updateIdem (idemExact id agent args .INFLIGHT) fun r =>
    { r with status := .RETRYABLE, response := none, completedAt := none }

/-- `reopen_idem_exact`. -/
def reopenIdemExact (id : RequestId) (agent : Option AgentId) (args : IdemArgs) : Option Store :=
  s.updateIdem (idemExact id agent args .RETRYABLE) fun r =>
    { r with
      status := .INFLIGHT
      response := none
      completedAt := none
      operationId := none
      ownerInstance := none
      ownerGeneration := none }

/-- The store without the rows that `p` selects. -/
def deleteIdem (p : IdemRow → Bool) : Store :=
  { s with idempotency := s.idempotency.filter fun r => !p r }

/-- `clear_idem`. -/
def clearIdem (id : RequestId) : Store := s.deleteIdem fun r => r.requestId = id

/-- `clear_idem_exact`. -/
def clearIdemExact (id : RequestId) (agent : Option AgentId) (args : IdemArgs) : Store :=
  s.deleteIdem (idemExact id agent args .INFLIGHT)

/-- `gc_idem`. -/
def gcIdem (cutoff : Time) : Store :=
  s.deleteIdem fun r => r.status = .DONE &&
    match r.completedAt with
    | none => false
    | some t => t < cutoff

/-! ## Terminal rows -/

/-- The first three statements of `gc_terminal`: a row that left a terminal state loses
its stamp, and a terminal row without a stamp gets one. -/
def stampTerminal (now : Time) : Store :=
  { s with
    tasks := s.tasks.map fun t =>
      if !t.state.terminal then { t with terminalAt := none }
      else if t.terminalAt = none then
        { t with terminalAt := some (if t.state = .MERGED then t.mergedAt.getD now else now) }
      else t
    orbits := s.orbits.map fun o =>
      if o.state.terminal ∧ o.terminalAt = none then
        { o with terminalAt := some (o.releasedAt.getD now) }
      else o }

/-- A terminal task past retention that no live task depends on. -/
def taskArchivable (cutoff : Time) (t : Task) : Bool :=
  t.state.terminal && reached t.terminalAt cutoff &&
    s.tasks.all fun live => live.state.terminal || t.taskId ∉ live.deps

/-- A terminal orbit past retention that no live task refers to. -/
def orbitArchivable (cutoff : Time) (o : Orbit) : Bool :=
  o.state.terminal && reached o.terminalAt cutoff &&
    s.tasks.all fun live => live.state.terminal ||
      (some live.taskId ≠ o.taskId && live.connectTokenId ≠ some o.orbitId)

/-- `gc_terminal`. -/
def gcTerminal (now : Time) (retention : ℚ) : Store :=
  let s := s.stampTerminal now
  let cutoff := now - retention
  let s := { s with
    tasksArchive := s.tasksArchive ++ s.tasks.filter (s.taskArchivable cutoff)
    tasks := s.tasks.filter fun t => !s.taskArchivable cutoff t }
  { s with
    orbitsArchive := s.orbitsArchive ++ s.orbits.filter (s.orbitArchivable cutoff)
    orbits := s.orbits.filter fun o => !s.orbitArchivable cutoff o }


end Store

end Omd
