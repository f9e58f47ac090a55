import Omd.System
import Mathlib.Logic.Relation

/-!
# What a critical section does to the store

A verb changes the tables a row at a time.  `Micro` lists the changes there are, each with
the guard its verb checked: how a row of `orbits` or of `tasks` may change, which rows are
inserted, what the merge log takes, what the collector removes.  A critical section is a
run of these changes, and what they preserve the section preserves.

Some groups of changes only make sense together: the opening of an attempt, its end, the
reclaim of an agent, the cancelling of a task, the end of a permit.  While such a group
runs, the tasks and semaphores it is about are exempt from what their rows otherwise obey;
a `Move` is a change that exempts nobody, or a group with what holds at its end.
-/

namespace Omd

open Lib

/-! ## Licences -/

/-- What only some critical sections do. -/
inductive Deed
  | agents
  | admission
  | name (request : RequestId)
  | zombie (agent : AgentId)
  | bail (agent : AgentId)
  | declare (task : TaskId) (deps : List TaskId) (reads : List String)
  | reopen (task : TaskId)
  | ready (task : TaskId)
  | overwrite (task : TaskId)
  | start (task : TaskId)
  | cancel (task : TaskId)
  | close (task : TaskId)
  | refresh (task : TaskId)
  | release (orbit : OrbitId)
  | renew (orbit : OrbitId)
  | merge (task : Task)
  | rollback (task : Task)
  | answer (id : RequestId) (args : IdemArgs) (reply : Reply)
  | retry (id : RequestId)
  | forget (id : RequestId)
  | arm (name : String)
  | trip (barrier : BarrierId)
  | archive (task : Task)
  | slots (sem : String) (maxPermits : ℕ)
  | lapse
  | yield (permit : OrbitId)
  | serve (sem : String)
  | signal
  | set (key value : String) (agent : Option AgentId)
  | own (key : String)
  | mark (task : TaskId) (value : String)
  | poll (waiter : ℕ)

/-- The coordinator and the clock of a critical section, and what it may do. -/
structure Scope where
  cfg : Cfg
  now : Time
  may : Deed → Prop

/-- The agents a critical section may reclaim. -/
def Scope.reclaims (c : Scope) (agent : AgentId) : Prop :=
  c.may (.zombie agent) ∨ c.may (.bail agent)

/-- A group that ends permits of these semaphores, and hands their slots on. -/
def Scope.serving (c : Scope) (sems : List String) : Scope where
  cfg := c.cfg
  now := c.now
  may := fun d =>
    match d with
    | .serve sem => sem ∈ sems
    | d => c.may d

/-- The licences of a scope, or to hand on slots. -/
structure Scope.Within (c' c : Scope) : Prop where
  cfg : c'.cfg = c.cfg
  now : c'.now = c.now
  may : ∀ d, c'.may d → c.may d ∨ ∃ sem, d = .serve sem

/-- A critical section without licences. -/
def Scope.plain (cfg : Cfg) (now : Time) : Scope := ⟨cfg, now, fun _ => False⟩

/-! ## Rows -/

/-- The columns of an orbit that stay for life. -/
def Orbit.SameRow (o o' : Orbit) : Prop :=
  o' = { o with
    state := o'.state
    fence := o'.fence
    expiresAt := o'.expiresAt
    releasedAt := o'.releasedAt
    merging := o'.merging
    operationId := o'.operationId
    ownerInstance := o'.ownerInstance
    ownerGeneration := o'.ownerGeneration
    decisionType := o'.decisionType
    blockerIds := o'.blockerIds
    terminalReason := o'.terminalReason
    readGen := o'.readGen
    stale := o'.stale
    terminalAt := o'.terminalAt }

/-- The attempt a token carries. -/
def Orbit.binding (o : Orbit) : Option AttemptId × Option String × Option ℕ :=
  (o.operationId, o.ownerInstance, o.ownerGeneration)

/-- The attempt a task carries, with what its end is judged by. -/
def Task.attempt (t : Task) :
    (Option AttemptId × Option String × ℕ × Option OrbitId) ×
      (Bool × Option Sha × Option Sha) :=
  ((t.connectAttemptId, t.connectOwnerInstance, t.connectOwnerGeneration, t.connectTokenId),
    (t.connectRepoBound, t.branchTipSha, t.integrationBaseSha))

namespace Orbit

/-- A row that holds or waits. -/
def live (o : Orbit) : Bool := o.state = .HELD || o.state = .PENDING

/-- The intent of a row. -/
def intent (o : Orbit) : IntentKey := ⟨o.agentId, o.pathspec, o.mode, o.taskId⟩

/-- What a row that has ended says of its end. -/
def record (o : Orbit) : Option ℕ × Option AdmissionEvent := (o.fence, o.decisionType)

/-- The notification of an event of the row. -/
def news (o : Orbit) (event : AdmissionEvent) : OutboxRow :=
  ⟨event, o.requestId.getD (RequestId.internal o.orbitId), o.requestGeneration, some o.orbitId⟩

/-- A held write orbit that a merge in flight pins. -/
structure Pinned (o : Orbit) (task : TaskId) : Prop where
  kind : o.kind = .orbit
  task : o.taskId = some task
  state : o.state = .HELD
  merging : o.merging = true

end Orbit

namespace Store

/-- No task that is connecting, and is not exempt, has this token. -/
def Unbound (s : Store) (E : TaskId → Prop) (token : OrbitId) : Prop :=
  ∀ t ∈ s.tasks, t.state = .CONNECTING → ¬ E t.taskId → t.connectTokenId ≠ some token

/-- The agent was not retired. -/
def Alive (s : Store) (agent : AgentId) : Prop :=
  ∀ a ∈ s.agents, a.agentId = agent → a.state ≠ .RETIRED

/-- The agent is retired. -/
def Retired (s : Store) (agent : AgentId) : Prop :=
  ∃ a ∈ s.agents, a.agentId = agent ∧ a.state = .RETIRED

/-- The task of a request, if it has one, waits to be started. -/
def Eligible (s : Store) (task : Option TaskId) : Prop :=
  ∀ t ∈ s.tasks, task = some t.taskId → t.state.admission = true

/-- Nothing is left to an agent that retires. -/
structure Vacant (s : Store) (agent : AgentId) : Prop where
  held : ∀ o ∈ s.orbits, o.agentId = agent → o.state ≠ .HELD
  pending : ∀ o ∈ s.orbits, o.agentId = agent → o.isPending = false
  waiters : ∀ w ∈ s.semWaiters, w.agentId = agent → w.state ≠ .WAITING
  tasks : ∀ t ∈ s.tasks, t.agentId = some agent → t.state.inProgress = false

/-- A permit of the semaphore is free. -/
def HasSlot (s : Store) (sem : String) : Prop :=
  ∃ row, s.getSemaphore sem = some row ∧ (s.activePermits sem).length < row.maxPermits

/-- The waiter is first in line, and a permit is free. -/
structure Next (s : Store) (w : SemWaiter) : Prop where
  mem : w ∈ s.semWaiters
  waiting : w.state = .WAITING
  slot : s.HasSlot w.semId
  first : ∀ r ∈ s.semWaiters, r.semId = w.semId → r.state = .WAITING →
    r.priority < w.priority ∨ w.priority = r.priority ∧ w.enqueuedSeq ≤ r.enqueuedSeq

/-- The orbit pins no merge of its own agent. -/
def Unpinned (s : Store) (o : Orbit) : Prop :=
  ∀ t ∈ s.tasks, t.agentId = some o.agentId → t.state = .CONNECTING → ¬ o.Pinned t.taskId

/-- The waiters when one of them was granted a permit. -/
def granted (s : Store) (w : SemWaiter) (permit : OrbitId) : List SemWaiter :=
  Table.modify SemWaiter.waiterId w.waiterId
    (fun r => { r with state := .GRANTED, permitId := some permit }) s.semWaiters

/-- The store with rows added to the outbox. -/
def announce (s : Store) (news : List OutboxRow) : Store :=
  { s with outbox := s.outbox ++ news }

end Store

/-! ## Changes of an orbit -/

/-- Why a permit ends: its time is over, its holder is reclaimed or gives it back. -/
def Scope.ends (c : Scope) (o : Orbit) : Prop :=
  c.may .lapse ∧ reached o.expiresAt c.now = true ∨ c.reclaims o.agentId ∨ c.may (.yield o.orbitId)

/-- How the life of an orbit goes on.  `E` are the exempt tasks. -/
inductive OrbitChange (c : Scope) (E : TaskId → Prop) (s : Store) (o o' : Orbit) : Prop
  | keep (state : o'.state = o.state) (merging : o'.merging = o.merging)
      (binding : o'.binding = o.binding)
      (deadline : o.kind = .orbit ∨ o.kind = .sem_permit →
        o'.expiresAt = o.expiresAt ∨ c.may (.renew o.orbitId))
      (record : o.live = false → o'.record = o.record)
  | expire (due : o.isDue c.now = true) (state : o'.state = .EXPIRED)
  | deny (pending : o.state = .PENDING) (state : o'.state = .DENIED)
  | promote (pending : o.isPending = true) (state : o'.state = .HELD)
      (merging : o'.merging = o.merging)
      (owner : ∃ a ∈ s.agents, a.agentId = o.agentId ∧ a.state = .WORKING)
      (granted : ∃ d, admissionDecisionOf c.cfg s o c.now = .ok d ∧ d.grantable = true)
  | release (kind : o.kind = .orbit) (held : o.state = .HELD) (unpinned : o.merging = false)
      (may : c.may (.release o.orbitId)) (state : o'.state = .RELEASED)
  | lease (kind : o.kind = .flag_ephemeral) (held : o.state = .HELD)
      (state : o'.state.terminal = true)
  | permit (kind : o.kind = .sem_permit) (held : o.state = .HELD) (ends : c.ends o)
      (serves : ∀ sem, o.resourceKey = some sem → c.may (.serve sem))
      (state : o'.state.terminal = true)
  | cancelled {t : Task} (task : t ∈ s.tasks) (of : o.taskId = some t.taskId)
      (aborted : t.state = .ABORTED) (kind : o.kind = .orbit) (live : o.live = true)
      (state : o'.state.terminal = true) (may : c.may (.close t.taskId))
  | reclaimed (may : c.reclaims o.agentId) (kind : o.kind = .orbit) (live : o.live = true)
      (state : o'.state.terminal = true) (unpinned : c.may (.bail o.agentId) ∨ s.Unpinned o)
  | attempt {task : TaskId} (of : o.taskId = some task) (exempt : E task)
      (kind : o.kind = .orbit)
      (state : o'.state = o.state ∨
        o.state = .HELD ∧ o'.state = .RELEASED ∧ c.may (.mark task "merged"))
      (deadline : o'.expiresAt = o.expiresAt) (record : o.live = false → o'.record = o.record)
  | token (kind : o.kind = .merge_token) (held : o.state = .HELD)
      (free : s.Unbound E o.orbitId ∨ c.reclaims o.agentId) (state : o'.state.terminal = true)
  | rebind (kind : o.kind = .merge_token) (free : s.Unbound E o.orbitId)
      (state : o'.state = o.state)

/-- The stamps of a path orbit after a change: a row that ends is released then at most, and the
collector stamps one that has ended. -/
def OrbitStamps (now : Time) (o o' : Orbit) : Prop :=
  o'.terminalAt = o.terminalAt ∧ (o'.releasedAt = o.releasedAt ∨
    o.live = true ∧ o'.live = false ∧ o'.releasedAt = some now) ∨
  o.state.terminal = true ∧ o.terminalAt = none ∧
    o'.terminalAt = some (o.releasedAt.getD now) ∧ o'.releasedAt = o.releasedAt

/-- One row of `orbits` before and after a change. -/
structure OrbitStep (c : Scope) (E : TaskId → Prop) (s : Store) (o o' : Orbit) : Prop where
  row : o.SameRow o'
  change : OrbitChange c E s o o'
  stamps : o.kind = .orbit → OrbitStamps c.now o o'

/-- What the outbox gets for a change of a row: nothing when its state stays, or when it
is no path orbit, else the one event of the change. -/
inductive Announced (o o' : Orbit) : List OutboxRow → Prop
  | silent (same : o.kind = .orbit → o'.state = o.state ∧ (o'.decisionType = o.decisionType ∨
      o'.decisionType = some .RENEW ∨ o'.decisionType = some .PROMOTION_BLOCKED)) :
      Announced o o' []
  | event {e : AdmissionEvent} {st : SemanticState} (kind : o.kind = .orbit)
      (notifies : e.notifies = true) (step : semanticStep o.state.semantic e = some st)
      (state : projectLegacy st = some o'.state) (decision : o'.decisionType = some e) :
      Announced o o' [o.news e]

/-- What the outbox gets for a new row. -/
inductive Introduced (o : Orbit) : List OutboxRow → Prop
  | silent (kind : o.kind ≠ .orbit) : Introduced o []
  | event {e : AdmissionEvent} {st : SemanticState} (kind : o.kind = .orbit)
      (notifies : e.notifies = true) (step : semanticStep .REQUESTED e = some st)
      (state : projectLegacy st = some o.state) (decision : o.decisionType = some e) :
      Introduced o [o.news e]

/-- The generation is the next one of the request, and the row of the last one has ended and is of
the same task. -/
structure NextGeneration (s : Store) (request : RequestId) (task : Option TaskId)
    (generation : ℕ) : Prop where
  next : generation = s.nextRequestGeneration request
  ended : ∀ o, s.latestOrbitByRequest (some request) = some o → o.live = false
  task : ∀ o, s.latestOrbitByRequest (some request) = some o → o.taskId = task

/-- What a row is admitted for: a request that its caller names or that has rows, or else one that
is made up for it. -/
inductive AdmittedFor (c : Scope) (s : Store) (o : Orbit) : Prop
  | named {id : RequestId} (request : o.requestId = some id)
      (named : c.may (.name id) ∨ s.orbitsOfRequest id ≠ [])
      (generation : NextGeneration s id o.taskId o.requestGeneration)
  | made (request : o.requestId = some (RequestId.internal o.orbitId))
      (first : o.requestGeneration = 0)

/-- A validated request that has its ticket. -/
structure Claimed (c : Scope) (s : Store) (o : Orbit) : Prop where
  may : c.may .admission
  kind : o.kind = .orbit
  merging : o.merging = false
  ticket : o.queueSeq = some (s.seq + 1)
  policy : o.policyVersion = some c.cfg.policy.version
  priority : c.cfg.policy.acceptsBasePriority o.priority = true
  paths : normalizePathspec o.pathspec = .ok o.pathspec
  digest : o.pathspecDigest ≠ none
  owner : s.Alive o.agentId
  gate : s.Eligible o.taskId
  request : AdmittedFor c s o
  unreleased : o.releasedAt = none
  unstamped : o.terminalAt = none
  intent : o.intentKey = some o.intent
  alone : ∀ r, s.orbitByIntent o.intent = some r → r.agentId ≠ o.agentId

/-- The rows that are inserted. -/
inductive NewRow (c : Scope) (s : Store) (o : Orbit) : Prop
  | held (claimed : Claimed c s o) (state : o.state = .HELD)
      (granted : ∃ d, admissionDecision c.cfg s o.pathspec o.mode o.priority o.queueSeq
        (some o.orbitId) o.policyVersion (some c.now) c.now = .ok d ∧ d.grantable = true)
  | queued (claimed : Claimed c s o) (state : o.state = .PENDING)
      (enqueued : o.enqueuedAt = some c.now)
  | permit (kind : o.kind = .sem_permit) (state : o.state = .HELD) (untasked : o.taskId = none)
      (owner : s.Alive o.agentId ∨ ∃ w ∈ s.semWaiters, w.agentId = o.agentId ∧ w.state = .WAITING)
      (first : ∃ sem, o.resourceKey = some sem ∧ s.activePermitFor sem o.agentId = none ∧
        s.HasSlot sem)
      (intent : o.intentKey = none)
  | lease (kind : o.kind = .flag_ephemeral) (state : o.state = .HELD) (untasked : o.taskId = none)
      (owner : s.Alive o.agentId) (intent : o.intentKey = none)
  | token (kind : o.kind = .merge_token) (state : o.state = .HELD) (untasked : o.taskId = none)
      (resource : o.resourceKey = some Store.mergeResource) (bound : o.operationId ≠ none)
      (free : s.heldMergeToken = none) (intent : o.intentKey = none)

/-- The waiters when a row is inserted: a permit may be for the first in line, who is served
then. -/
inductive Lined (c : Scope) (s : Store) (o : Orbit) : List SemWaiter → Prop
  | stays (direct : ∀ sem, o.kind = .sem_permit → o.resourceKey = some sem →
      ¬ c.may (.serve sem)) : Lined c s o s.semWaiters
  | served (w : SemWaiter) (kind : o.kind = .sem_permit) (key : o.resourceKey = some w.semId)
      (agent : o.agentId = w.agentId) (next : s.Next w) : Lined c s o (s.granted w o.orbitId)

/-! ## Changes of a task -/

/-- The attempt a task is given: its own, none, or one that no task has had, with a token of its
own. -/
structure Rebinds (s : Store) (t t' : Task) : Prop where
  token : t'.connectTokenId = t.connectTokenId ∨ t'.connectTokenId = none ∨
    (∀ r ∈ s.tasks, r.connectTokenId ≠ t'.connectTokenId) ∧
      ∃ o ∈ s.orbits, t'.connectTokenId = some o.orbitId ∧ o.kind = .merge_token
  attempt : t'.connectAttemptId = t.connectAttemptId ∨ t'.connectAttemptId = none ∨
    ∀ r ∈ s.tasks, r.connectAttemptId ≠ t'.connectAttemptId
  tokenDrawn : ∀ id, t'.connectTokenId = some id → id < s.uuid
  attemptDrawn : ∀ n, t'.connectAttemptId = some n → n < s.uuid
  bound : t'.state = .CONNECTING → t'.connectAttemptId ≠ none ∧ t'.connectTokenId ≠ none

/-- What the reclaim of its agent makes of a task in progress: it is counted, and it waits again
or has been reclaimed too often. -/
structure Requeued (c : Scope) (t t' : Task) : Prop where
  busy : t.state.inProgress = true
  state : t'.state = .PENDING ∧ t.reclaims + 1 ≤ c.cfg.maxReclaims ∨
    t'.state = .POISONED ∧ c.cfg.maxReclaims < t.reclaims + 1
  count : t'.reclaims = t.reclaims + 1
  freed : t'.agentId = none

/-- How the life of a task goes on. -/
inductive TaskChange (c : Scope) (E : TaskId → Prop) (s : Store) (t t' : Task) : Prop
  | keep (state : t'.state = t.state) (agent : t'.agentId = t.agentId)
      (attempt : t'.attempt = t.attempt) (synced : t'.readSyncedGen = t.readSyncedGen)
  | ready (waiting : t.state = .PENDING ∨ t.state = .BLOCKED ∨ c.may (.overwrite t.taskId))
      (deps : depsMerged s t.deps = true ∨ c.may (.ready t.taskId)) (state : t'.state = .READY)
      (agent : t'.agentId = t.agentId) (attempt : t'.attempt = t.attempt)
      (synced : t'.readSyncedGen = t.readSyncedGen)
  | start (may : c.may (.start t.taskId)) (admitted : t.state = .READY ∨ t.state = .CLAIMED)
      (state : t'.state = .IN_ORBIT) (owner : ∃ a, t'.agentId = some a ∧ s.Alive a)
      (attempt : t'.attempt = t.attempt) (synced : t'.readSyncedGen = t.readSyncedGen)
  | finish (started : t.state = .IN_ORBIT) (state : t'.state = .DONE)
      (agent : t'.agentId = t.agentId) (attempt : t'.attempt = t.attempt)
      (synced : t'.readSyncedGen = t.readSyncedGen)
  | abort (exempt : E t.taskId) (waiting : t.state.admission = true) (state : t'.state = .ABORTED)
      (agent : t'.agentId = t.agentId) (attempt : t'.attempt = t.attempt)
      (synced : t'.readSyncedGen = t.readSyncedGen)
  | reclaim {agent : AgentId} (owner : t.agentId = some agent) (may : c.reclaims agent)
      (exempt : E t.taskId) (requeued : Requeued c t t') (attempt : t'.attempt = t.attempt)
      (synced : t'.readSyncedGen = t.readSyncedGen)
  | sync {gen : ℕ} (state : t'.state = t.state) (agent : t'.agentId = t.agentId)
      (attempt : t'.attempt = t.attempt) (synced : t'.readSyncedGen = some gen)
      (bound : gen ≤ s.integrationGen) (older : ∀ g, t.readSyncedGen = some g → gen ≤ g)
  | refresh (may : c.may (.refresh t.taskId)) (state : t'.state = t.state)
      (agent : t'.agentId = t.agentId) (attempt : t'.attempt = t.attempt)
      (synced : t'.readSyncedGen = some s.integrationGen)
  | attempt (exempt : E t.taskId)
      (state : (t.state = .IN_ORBIT ∨ t.state = .DONE) ∧ t'.state = .CONNECTING ∨
        t.state = .CONNECTING ∧
          (t'.state = .CONNECTING ∨ t'.state = .MERGED ∨ t'.state = .DONE))
      (agent : t'.agentId = t.agentId) (synced : t'.readSyncedGen = t.readSyncedGen)
      (rebinds : Rebinds s t t')

/-- What a task is declared to depend on, to read and to resolve, before and after a change. -/
inductive Declares (c : Scope) (t t' : Task) : Prop
  | same (deps : t'.deps = t.deps) (reads : t'.reads = t.reads)
      (resolves : t'.resolveFor = t.resolveFor := by rfl)
  | declare (may : c.may (.declare t.taskId t'.deps t'.reads))
  | reopen (may : c.may (.reopen t.taskId)) (ended : t.state.terminal = true) (deps : t'.deps = [])

/-- A task that resolves the conflicts of another has the identifier of its resolve task. -/
def Task.Marked (t : Task) : Prop :=
  ∀ task, t.resolveFor = some task → t.taskId = resolveTaskId task

/-- One row of `tasks` before and after a change. -/
structure TaskStep (c : Scope) (E : TaskId → Prop) (s : Store) (t t' : Task) : Prop where
  id : t'.taskId = t.taskId
  declared : Declares c t t'
  count : t'.reclaims = t.reclaims ∨ Requeued c t t' ∧ E t.taskId
  marked : t.Marked → t'.Marked
  change : TaskChange c E s t t'

/-- The rows that are declared. -/
structure NewTask (c : Scope) (s : Store) (t : Task) : Prop where
  may : c.may (.declare t.taskId t.deps t.reads) ∨ c.may (.reopen t.taskId) ∧ t.deps = []
  id : s.getTask t.taskId = none
  state : t.state = .PENDING
  synced : t.readSyncedGen = none
  token : t.connectTokenId = none
  attempt : t.connectAttemptId = none
  marked : t.Marked

/-! ## Changes of an agent -/

/-- One row of `agents` before and after a change. -/
structure AgentStep (s : Store) (a a' : Agent) : Prop where
  id : a'.agentId = a.agentId
  epoch : a.bailEpoch ≤ a'.bailEpoch
  state : a'.state = a.state ∨ a.state ≠ .RETIRED ∧ (a'.state = .RETIRED → s.Vacant a.agentId)

/-! ## Changes of a request -/

/-- How a row of `idempotency` changes. -/
inductive IdemStep (c : Scope) (r r' : IdemRow) : Prop
  | finish (reply : Reply) (may : c.may (.answer r.requestId r.argHash reply))
      (inflight : r.status = .INFLIGHT)
      (row : r' = { r with
        status := .DONE, response := some reply, completedAt := some c.now })
  | bind (operation : AttemptId) (owner : String) (generation : ℕ)
      (inflight : r.status = .INFLIGHT) (unbound : r.operationId = none)
      (row : r' = { r with
        operationId := some operation
        ownerInstance := some owner
        ownerGeneration := some generation })
  | takeover (owner : String) (generation : ℕ) (inflight : r.status = .INFLIGHT)
      (row : r' = { r with ownerInstance := some owner, ownerGeneration := some generation })
  | retry (may : c.may (.retry r.requestId)) (inflight : r.status = .INFLIGHT)
      (row : r' = { r with status := .RETRYABLE, response := none, completedAt := none })
  | reopen (retryable : r.status = .RETRYABLE)
      (row : r' = { r with
        status := .INFLIGHT
        response := none
        completedAt := none
        operationId := none
        ownerInstance := none
        ownerGeneration := none })

/-- The rows of `idempotency` that are dropped. -/
inductive IdemDrop (c : Scope) (r : IdemRow) : Prop
  | unanswered (inflight : r.status = .INFLIGHT)
  | expired {ttl : ℚ} {t : Time} (limit : c.cfg.idemTtl = some ttl) (done : r.status = .DONE)
      (completed : r.completedAt = some t) (old : t < c.now - ttl)
  | forgotten (may : c.may (.forget r.requestId))

/-- How the table of requests changes. -/
inductive IdemChange (c : Scope) (s : Store) (rows : List IdemRow) : Prop
  | reserve (id : RequestId) (agent : Option AgentId) (args : IdemArgs)
      (new : s.getIdem id = none)
      (rows : rows = s.idempotency ++ [{ requestId := id, agentId := agent, argHash := args }])
  | update (p : IdemRow → Bool) (f : IdemRow → IdemRow)
      (step : ∀ r ∈ s.idempotency, p r = true → IdemStep c r (f r))
      (rows : rows = s.idempotency.map fun r => if p r then f r else r)
  | drop (p : IdemRow → Bool) (step : ∀ r ∈ s.idempotency, p r = true → IdemDrop c r)
      (rows : rows = s.idempotency.filter fun r => !p r)

/-! ## Changes of the store -/

/-- What a barrier is known by. -/
def Barrier.key (b : Barrier) : BarrierId × String × ℕ := (b.barrierId, b.name, b.generation)

/-- What a barrier was declared with. -/
def Barrier.terms (b : Barrier) : BarrierId × BarrierPolicy × Option Time :=
  (b.barrierId, b.policy, b.deadlineAt)

/-! ## Barriers -/

namespace BarrierState

/-- How the life of a generation may go on. -/
def Leads : BarrierState → BarrierState → Prop :=
  Relation.ReflTransGen fun b b' => ∃ trigger, advanceBarrier b trigger = .ok b'

/-- The generation waits for its parties, or merges them. -/
def active (b : BarrierState) : Bool := b = .ARMED || b = .TRIPPING

/-- The trip of the generation succeeded. -/
def tripped (b : BarrierState) : Bool := b = .TRIPPED || b = .CONSUMED

end BarrierState

/-- The task is a party of the barrier with this key. -/
def PartyTo (parties : List BarrierParty) (key : BarrierId × String × ℕ) (task : TaskId) : Prop :=
  ∃ p ∈ parties, p.barrierId = key.1 ∧ p.generation = key.2.2 ∧ p.taskId = task

/-- The task was merged; its row may be archived. -/
def WasMerged (tasks archive : List Task) (task : TaskId) : Prop :=
  ∃ t ∈ tasks ++ archive, t.taskId = task ∧ t.state = .MERGED

/-- A generation before and after a change: it goes on with its life, its parties are fixed
once it is filled, and it trips when they are merged. -/
structure Barrier.GoesOn (merged : TaskId → Prop) (parties parties' : List BarrierParty)
    (b b' : Barrier) : Prop where
  key : b'.key = b.key
  leads : b.state.Leads b'.state
  fixed : b.state ≠ .ARMED → ∀ task, PartyTo parties' b.key task ↔ PartyTo parties b.key task
  trips : b'.state.tripped = true → b.state.tripped = true ∨
    ∀ task, PartyTo parties' b.key task → merged task

/-- The barriers and their parties before and after a change. -/
def Gather (merged : TaskId → Prop) (rows : List Barrier) (parties : List BarrierParty)
    (rows' : List Barrier) (parties' : List BarrierParty) : Prop :=
  ∀ b' ∈ rows', ∃ b ∈ rows, b.GoesOn merged parties parties' b'

theorem Barrier.GoesOn.refl (merged : TaskId → Prop) (parties : List BarrierParty)
    (b : Barrier) : b.GoesOn merged parties parties b where
  key := rfl
  leads := .refl
  fixed := fun _ _ => Iff.rfl
  trips := Or.inl

theorem Gather.refl (merged : TaskId → Prop) (rows : List Barrier)
    (parties : List BarrierParty) : Gather merged rows parties rows parties :=
  fun b hb => ⟨b, hb, .refl merged parties b⟩

/-! ## Flags -/

/-- The flag has the value that a waiter wants, or it is broken. -/
def flagReady (flag : Option Flag) (want : String) : Bool :=
  flagBroken flag || flagSatisfied flag want

/-- Nobody waits for a flag that is ready. -/
def Heard (flags : List Flag) (waiters : List FlagWaiter) : Prop :=
  ∀ w ∈ waiters, w.state = .WAITING →
    flagReady (Table.get Flag.key w.key flags) w.wantValue = false

/-- The flag was cleared or broken. -/
def Dormant (flags : List Flag) (key : String) : Prop :=
  ∃ f, Table.get Flag.key key flags = some f ∧ f.status ≠ .LIVE

/-- Whatever rows a key has, they are latches. -/
def Latched (flags : List Flag) (key : String) : Prop :=
  ∀ f ∈ flags, f.key = key → f.flagType = .LATCH

/-- What a writer of flags makes of a waiter: it is left as it is, or it is woken. -/
inductive FlagWaiter.Woken (w : FlagWaiter) : FlagWaiter → Prop
  | stays : w.Woken w
  | satisfied (waiting : w.state = .WAITING) : w.Woken { w with state := .SATISFIED }
  | broken (waiting : w.state = .WAITING) : w.Woken { w with state := .BROKEN }

/-- The flags and their waiters before and after a write that wakes: nobody misses a flag
that becomes ready. -/
structure Wakes (flags : List Flag) (waiters : List FlagWaiter) (flags' : List Flag)
    (waiters' : List FlagWaiter) : Prop where
  rows : Table.Distinct FlagWaiter.waiterId waiters →
    ∃ f : FlagWaiter → FlagWaiter, (∀ w ∈ waiters, w.Woken (f w)) ∧ waiters' = waiters.map f
  heard : Table.Distinct FlagWaiter.waiterId waiters → Heard flags waiters →
    Heard flags' waiters'

/-- Such a write, after which a flag that was cleared or broken is as it was, and a latch too,
unless it announces stale reads. -/
structure Board (flags : List Flag) (waiters : List FlagWaiter) (flags' : List Flag)
    (waiters' : List FlagWaiter) : Prop extends Wakes flags waiters flags' waiters' where
  dormant : ∀ key, (∀ orbit, key ≠ readStaleKey orbit) → Dormant flags key → Dormant flags' key
  latched : ∀ key, (∀ orbit, key ≠ readStaleKey orbit) → Latched flags key →
    Latched flags' key ∧ Table.get Flag.key key flags' = Table.get Flag.key key flags

theorem Board.refl (flags : List Flag) (waiters : List FlagWaiter) :
    Board flags waiters flags waiters where
  rows := fun _ => ⟨id, fun _ _ => .stays, (List.map_id _).symm⟩
  heard := fun _ => id
  dormant := fun _ _ => id
  latched := fun _ _ latched => ⟨latched, rfl⟩

/-- The tables that the changes are about stay; identifiers and tickets are drawn. -/
structure Frame (s s' : Store) : Prop where
  orbits : s'.orbits = s.orbits := by rfl
  tasks : s'.tasks = s.tasks := by rfl
  mergeLog : s'.mergeLog = s.mergeLog := by rfl
  integrationGen : s'.integrationGen = s.integrationGen := by rfl
  agents : s'.agents = s.agents := by rfl
  idempotency : s'.idempotency = s.idempotency := by rfl
  semWaiters : s'.semWaiters = s.semWaiters := by rfl
  semaphores : s'.semaphores = s.semaphores := by rfl
  outbox : s'.outbox = s.outbox := by rfl
  tasksArchive : s'.tasksArchive = s.tasksArchive := by rfl
  orbitsArchive : s'.orbitsArchive = s.orbitsArchive := by rfl
  barriers : s'.barriers.map Barrier.key = s.barriers.map Barrier.key := by rfl
  terms : s'.barriers.map Barrier.terms = s.barriers.map Barrier.terms := by rfl
  gather : Table.Distinct Barrier.barrierId s.barriers →
      Gather (WasMerged s.tasks s.tasksArchive) s.barriers s.barrierParties s'.barriers
        s'.barrierParties := by
    exact fun _ => Gather.refl _ _ _
  leases : ∀ f ∈ s'.flags, ∀ id, f.leaseId = some id → ∃ f₀ ∈ s.flags, f₀.leaseId = some id := by
    exact fun f hf id hid => ⟨f, hf, hid⟩
  board : Board s.flags s.flagWaiters s'.flags s'.flagWaiters := by exact Board.refl _ _
  uuid : s.uuid ≤ s'.uuid := by exact le_rfl
  seq : s.seq ≤ s'.seq := by exact le_rfl
  fence : s.fence ≤ s'.fence := by exact le_rfl

/-- Where a waiter stands. -/
def SemWaiter.place (w : SemWaiter) : ℕ × String × AgentId × Option ℚ × ℤ × ℤ × Time :=
  (w.waiterId, w.semId, w.agentId, w.ttl, w.priority, w.enqueuedSeq, w.deadline)

/-- A wait ends without a permit. -/
structure SemWaiter.GaveUp (w w' : SemWaiter) : Prop where
  place : w'.place = w.place
  before : w.state ≠ .GRANTED
  state : w'.state = .CANCELLED ∨ w'.state = .TIMEOUT

/-- How the waiters of the semaphores change: some give up, the first in line has a permit
already, or one who is alive and finds no slot starts to wait. -/
inductive WaiterChange (s : Store) (uuid : ℕ) (rows : List SemWaiter) : Prop
  | update (f : SemWaiter → SemWaiter) (step : ∀ w ∈ s.semWaiters, f w = w ∨ w.GaveUp (f w))
      (rows : rows = s.semWaiters.map f)
  | reuse (w : SemWaiter) (permit : OrbitId) (next : s.Next w) (rows : rows = s.granted w permit)
  | add (w : SemWaiter) (id : w.waiterId = s.uuid) (drawn : s.uuid < uuid)
      (alive : s.Alive w.agentId) (state : w.state = .WAITING)
      (full : s.HasSlot w.semId → ∃ r ∈ s.semWaiters, r.semId = w.semId ∧ r.state = .WAITING)
      (rows : rows = s.semWaiters ++ [w])

/-- The leases after a change: those that backed a flag before, or rows that are leases. -/
def Store.LeasesFrom (s : Store) (rows : List Flag) : Prop :=
  ∀ f ∈ rows, ∀ id, f.leaseId = some id → (∃ f₀ ∈ s.flags, f₀.leaseId = some id) ∨
    ∃ o ∈ s.orbits, o.orbitId = id ∧ o.kind = .flag_ephemeral

/-- How the flags and their waiters change, apart from what any section may do: a flag is
set, by an owner or as a latch, and its waiters are woken, the end of a task is marked and
nobody is woken, somebody waits for a flag that is not ready, or a poll ends a wait. -/
inductive FlagChange (c : Scope) (s : Store) (uuid : ℕ) (flags : List Flag)
    (waiters : List FlagWaiter) : Prop
  | write (key : String) (may : c.may .signal)
      (writer : c.may (.own key) ∨ ∃ value agent, c.may (.set key value agent) ∧
        flags = (flagSetLatch s key value agent).1.flags)
      (others : ∀ k, k ≠ key → Table.get Flag.key k flags = s.getFlag k)
      (back : ∀ f ∈ flags, f ∈ s.flags ∨ f.key = key)
      (rows : s.LeasesFrom flags) (wakes : Wakes s.flags s.flagWaiters flags waiters)
  | mark (task : TaskId) (value : String) (agent : Option AgentId) (may : c.may (.mark task value))
      (unsigned : value = "merged" → agent = none)
      (flags : flags = (s.setFlag task value agent).flags) (waiters : waiters = s.flagWaiters)
  | listen (w : FlagWaiter) (may : c.may .signal) (id : w.waiterId = s.uuid)
      (drawn : s.uuid < uuid) (unready : flagReady (s.getFlag w.key) w.wantValue = false)
      (flags : flags = s.flags) (waiters : waiters = s.flagWaiters ++ [w])
  | poll (id : ℕ) (state : FlagWaiterState) (may : c.may (.poll id)) (ended : state ≠ .WAITING)
      (flags : flags = s.flags) (waiters : waiters = (s.setFlagWaiter id state).flagWaiters)

/-- The rows that the collector takes, once it has stamped those that have ended. -/
structure Collected (c : Scope) (s : Store) (p : Orbit → Bool) : Prop where
  may : c.may .lapse
  stamped : ∀ o ∈ s.orbits, o.state.terminal = true → o.terminalAt ≠ none
  due : ∃ retention, c.cfg.terminalRetention = some retention ∧
    p = s.orbitArchivable (c.now - retention)

/-- One change of the store. -/
inductive Micro (c : Scope) (E : TaskId → Prop) (s s' : Store) : Prop
  | frame (frame : Frame s s')
  | enroll (may : c.may .agents) (a : Agent) (new : s.getAgent a.agentId = none)
      (state : a.state = .WORKING) (frame : Frame { s with agents := s.agents ++ [a] } s')
  | agent (may : c.may .agents) (id : AgentId) (f : Agent → Agent)
      (step : ∀ a, s.getAgent id = some a → AgentStep s a (f a))
      (frame : Frame (s.setAgent id f) s')
  | orbit (id : OrbitId) (f : Orbit → Orbit) (news : List OutboxRow)
      (step : ∀ o, s.getOrbit id = some o → OrbitStep c E s o (f o))
      (announced : ∀ o, s.getOrbit id = some o → Announced o (f o) news)
      (known : s.getOrbit id = none → news = [])
      (frame : Frame ((s.announce news).setOrbit id f) s')
  | insert (o : Orbit) (news : List OutboxRow) (row : NewRow c s o) (introduced : Introduced o news)
      (id : o.orbitId = s.uuid) (drawn : s.uuid < s'.uuid)
      (ticket : o.kind = .orbit → s'.seq = s.seq + 1) (line : Lined c s o s'.semWaiters)
      (frame : Frame { (s.announce news).addOrbit o with semWaiters := s'.semWaiters } s')
  | reject (r : OutboxRow) (event : r.transition = .ADMISSION_REJECTED)
      (id : r.orbitId = some s.uuid) (drawn : s.uuid < s'.uuid) (frame : Frame (s.announce [r]) s')
  | summary (r : OutboxRow) (event : r.transition = .AGENT_RECLAIMED)
      (subject : (∃ o ∈ s.orbits, o.state.terminal = true ∧ r = o.news .AGENT_RECLAIMED) ∨
        ∃ a ∈ s.agents, r = ⟨.AGENT_RECLAIMED, RequestId.reclaim a.agentId, a.bailEpoch, none⟩)
      (frame : Frame (s.announce [r]) s')
  | task (id : TaskId) (f : Task → Task)
      (step : ∀ t, s.getTask id = some t → TaskStep c E s t (f t))
      (frame : Frame (s.setTask id f) s')
  | declare (t : Task) (row : NewTask c s t)
      (frame : Frame { s with tasks := s.tasks ++ [t] } s')
  | publish (e : MergeEntry) (gen : e.gen = s.integrationGen + 1) (exempt : E e.taskId)
      (frame : Frame { s with integrationGen := e.gen, mergeLog := s.mergeLog ++ [e] } s')
  | request (change : IdemChange c s s'.idempotency)
      (frame : Frame { s with idempotency := s'.idempotency } s')
  | waiters (change : WaiterChange s s'.uuid s'.semWaiters)
      (frame : Frame { s with semWaiters := s'.semWaiters } s')
  | slots (sem : String) (maxPermits : ℕ) (may : c.may (.slots sem maxPermits))
      (serves : c.may (.serve sem))
      (frame : Frame { s with semaphores := (s.addSemaphore sem maxPermits).semaphores } s')
  | flags (change : FlagChange c s s'.uuid s'.flags s'.flagWaiters)
      (frame : Frame { s with flags := s'.flags, flagWaiters := s'.flagWaiters } s')
  | arm (b : Barrier) (parties : List BarrierParty) (may : c.may (.arm b.name))
      (id : b.barrierId = (b.name, b.generation)) (state : b.state = .ARMED)
      (next : ∀ r ∈ s.barriers, r.name = b.name → r.generation < b.generation)
      (idle : ∀ r, s.barrierByName b.name = some r → r.state.active = false)
      (own : ∀ p ∈ parties, p.barrierId = b.barrierId)
      (frame : Frame { s with
        barriers := s.barriers ++ [b]
        barrierParties := s.barrierParties ++ parties } s')
  | trip (id : BarrierId) (may : c.may (.trip id))
      (tripping : ∃ b, s.getBarrier id = some b ∧ b.state = .TRIPPING)
      (frame : Frame (s.setBarrier id fun r => { r with state := .TRIPPED }) s')
  | stamp (now : Time) (frame : Frame (s.stampTerminal now) s') (clock : now = c.now)
  | archiveTasks (p : Task → Bool)
      (terminal : ∀ t ∈ s.tasks, p t = true → t.state.terminal = true)
      (unused : ∀ t ∈ s.tasks, p t = true → ∀ r ∈ s.tasks, r.state.terminal = false →
        t.taskId ∉ r.deps)
      (may : ∀ t ∈ s.tasks, p t = true → c.may (.archive t))
      (frame : Frame { s with
        tasksArchive := s.tasksArchive ++ s.tasks.filter p
        tasks := s.tasks.filter fun t => !p t } s')
  | archiveOrbits (p : Orbit → Bool)
      (terminal : ∀ o ∈ s.orbits, p o = true → o.state.terminal = true)
      (unused : ∀ o ∈ s.orbits, p o = true → ∀ t ∈ s.tasks, t.state.terminal = false →
        o.taskId ≠ some t.taskId)
      (frame : Frame { s with
        orbitsArchive := s.orbitsArchive ++ s.orbits.filter p
        orbits := s.orbits.filter fun o => !p o } s')
      (collected : Collected c s p)

/-- A run of changes. -/
abbrev Micros (c : Scope) (E : TaskId → Prop) : Store → Store → Prop :=
  Relation.ReflTransGen (Micro c E)

/-- Nobody is exempt. -/
def nobody : TaskId → Prop := fun _ => False

/-! ## Groups of changes -/

/-- The task carries an attempt whose token is held and carries it too. -/
structure Store.Bound (s : Store) (t : Task) : Prop where
  token : ∃ o ∈ s.orbits, t.connectTokenId = some o.orbitId ∧ o.kind = .merge_token ∧
    o.state = .HELD ∧ t.connectAttemptId ≠ none ∧ t.connectOwnerInstance ≠ none ∧
    o.binding = (t.connectAttemptId, t.connectOwnerInstance, some t.connectOwnerGeneration)

/-- Phase A opened an attempt. -/
structure Opened (c : Scope) (t : Task) (s s' : Store) : Prop where
  task : t ∈ s.tasks
  state : t.state = .IN_ORBIT ∨ t.state = .DONE
  run : Micros c (· = t.taskId) s s'
  bound : ∀ t' ∈ s'.tasks, t'.taskId = t.taskId → t'.state = .CONNECTING ∧ s'.Bound t' ∧
    t'.connectAttemptId = some s.uuid
  drawn : s.uuid < s'.uuid
  pinned : ∃ o ∈ s'.orbits, o.Pinned t.taskId

/-- Recovery took an attempt over. -/
structure TakenOver (c : Scope) (t : Task) (s s' : Store) : Prop where
  task : t ∈ s.tasks
  state : t.state = .CONNECTING
  run : Micros c (· = t.taskId) s s'
  bound : ∀ t' ∈ s'.tasks, t'.taskId = t.taskId → t'.state = .CONNECTING ∧ s'.Bound t' ∧
    t'.connectAttemptId = t.connectAttemptId ∧ t'.connectTokenId = t.connectTokenId ∧
    t'.agentId = t.agentId ∧ t'.attempt.2 = t.attempt.2 ∧ t'.reclaims = t.reclaims
  orbits : ∀ o, o.kind = .orbit → (o ∈ s'.orbits ↔ o ∈ s.orbits)
  stays : ∃ t' ∈ s'.tasks, t'.taskId = t.taskId

/-- An attempt ended, by its merge or by its rollback. -/
structure Closed (c : Scope) (t : Task) (s s' : Store) : Prop where
  task : t ∈ s.tasks
  state : t.state = .CONNECTING
  run : Micros c (· = t.taskId) s s'
  ended : (c.may (.merge t) ∧ ∀ t' ∈ s'.tasks, t'.taskId = t.taskId → t'.state = .MERGED) ∨
    (c.may (.rollback t) ∧ ∀ t' ∈ s'.tasks, t'.taskId = t.taskId → t'.state = .DONE)
  marked : (∃ t' ∈ s'.tasks, t'.taskId = t.taskId ∧ t'.state = .MERGED) →
    c.may (.mark t.taskId "merged")

/-- The tasks of an agent. -/
def Store.ownedBy (s : Store) (agent : AgentId) (task : TaskId) : Prop :=
  ∃ t ∈ s.tasks, t.taskId = task ∧ t.agentId = some agent

/-- Who waits for a permit of the semaphore waits because all of them are held. -/
def Store.ServedAt (s : Store) (sem : String) : Prop :=
  ∀ w ∈ s.semWaiters, w.semId = sem → w.state = .WAITING → ¬ s.HasSlot sem

/-- An agent was reclaimed.  The sweep spares one whose merge is pinned. -/
structure AgentReclaimed (c : Scope) (agent : AgentId) (s s' : Store) : Prop where
  may : c.may (.bail agent) ∨ c.may (.zombie agent) ∧ activeConnectPin s agent = false
  alive : s.Alive agent
  retired : s'.Retired agent
  run : ∃ sems, Micros (c.serving sems) (s.ownedBy agent) s s' ∧ ∀ sem ∈ sems, s'.ServedAt sem
  tasks : ∀ t' ∈ s'.tasks, t' ∈ s.tasks ∧ (t'.agentId = some agent → t'.state.inProgress = false) ∨
    ∃ t ∈ s.tasks, t'.taskId = t.taskId ∧ t.agentId = some agent ∧ Requeued c t t'
  orbits : ∀ o ∈ s'.orbits, o.agentId = agent → o.kind = .orbit → o.live = false

/-- A task was cancelled, and its rows with it. -/
structure Cancelled (c : Scope) (task : TaskId) (s s' : Store) : Prop where
  may : c.may (.cancel task)
  idle : ∀ t ∈ s.tasks, t.taskId = task → t.state.admission = true ∨ t.state = .ABORTED
  run : Micros c (· = task) s s'
  tasks : ∀ t ∈ s'.tasks, t.taskId = task → t.state = .ABORTED
  orbits : ∀ o ∈ s'.orbits, o.taskId = some task → o.kind = .orbit → o.live = false

/-- Permits ended or slots were added, and the slots were handed on. -/
structure Handed (c : Scope) (sems : List String) (s s' : Store) : Prop where
  run : Micros (c.serving sems) nobody s s'
  served : ∀ sem ∈ sems, s'.ServedAt sem

/-- A change that exempts nobody, or a group of changes. -/
inductive Move (c : Scope) (s s' : Store) : Prop
  | micro (h : Micro c nobody s s')
  | takenOver (t : Task) (h : TakenOver c t s s')
  | closed (t : Task) (h : Closed c t s s')
  | reclaimed (agent : AgentId) (h : AgentReclaimed c agent s s')
  | handed (sems : List String) (h : Handed c sems s s')
  | cancelled (task : TaskId) (h : Cancelled c task s s')

/-- A run of moves. -/
abbrev Moves (c : Scope) : Store → Store → Prop := Relation.ReflTransGen (Move c)

end Omd
