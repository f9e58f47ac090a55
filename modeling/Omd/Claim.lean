import Omd.Idem

/-!
# Claims

`claim` is the one entry of the admission queue.  It is gated by the task, by the request
identifier and by the intent; the request that passes is decided against the rows of the
same transaction and is granted, queued, or rejected when the queue is full.  A batch
passes the clock of its own sweep, so that no member sweeps again; a rollover passes the
generation it was authorized for.

`rollover_claim`, `cancel_wait`, `renew` and `release` act on a row that exists.
-/

namespace Omd

open Lib

/-- `MAX_REQUEST_GENERATION`. -/
def maxRequestGeneration : ℕ := 2 ^ 63 - 1

/-- The refusal of a request before it became a row. -/
def Reply.reject (reason : String) : Reply :=
  { ok := some false, state := some .REJECTED, reason := some reason }

/-- The arguments of `claim`. -/
structure ClaimArgs where
  agentId : AgentId
  pathspec : List String
  mode : Mode := .write
  ttl : ℚ := 600
  taskId : Option TaskId := none
  reason : String := ""
  priority : ℤ := 0
  requestId : Option RequestId := none
  bailEpoch : Option ℕ := none

namespace ClaimArgs

variable (c : ClaimArgs)

/-- The checks before the critical section; the pathspec leaves them normalised. -/
def validate (cfg : Cfg) : Except Reply ClaimArgs :=
  if c.agentId = "" then .error (.reject "invalid_agent_id")
  else if c.requestId = some "" then .error (.reject "invalid_request_id")
  else
    match normalizePathspec c.pathspec with
    | .error _ => .error (.reject "invalid_admission_request")
    | .ok paths =>
        if c.ttl ≤ 0 then .error (.reject "invalid_admission_request")
        else
          match AdmissionRequest.build paths c.mode c.priority (some 0) none
              (some cfg.policy.version) none with
          | .error _ => .error (.reject "invalid_admission_request")
          | .ok _ => .ok { c with pathspec := paths }

/-- The arguments the digest of the request covers. -/
def idemArgs : IdemArgs :=
  .claim c.agentId c.pathspec c.mode c.taskId c.ttl c.priority c.reason c.bailEpoch

/-- `_intent_key`. -/
def intentKey : IntentKey := ⟨c.agentId, c.pathspec, c.mode, c.taskId⟩

end ClaimArgs

/-! ## The gates of a claim -/

/-- `_replay_terminal_claim_overload`. -/
def replayTerminalClaimOverload (s : Store) (c : ClaimArgs) : Option Reply :=
  match c.requestId.bind s.getIdem with
  | none => none
  | some prior =>
      if prior.status ≠ .DONE ∨ prior.agentId ≠ some c.agentId ∨ prior.argHash ≠ c.idemArgs then
        none
      else
        match prior.response with
        | none => none
        | some response =>
            if response.state = some .REJECTED ∧ response.reason = some "queue_full" then
              some { response with replayed := true }
            else none

/-- The task of a claim must be one that may be admitted. -/
def taskGate (s : Store) (task : Option TaskId) : Option Reply :=
  match task with
  | none => none
  | some id =>
      match s.getTask id with
      | none => some (.reject "no such task")
      | some t =>
          if t.state.admission then none else some (.reject "task_not_admission_eligible")

/-- The row under the same request asks for the same. -/
def sameRequest (dup : Orbit) (c : ClaimArgs) (bailEpoch : ℕ) : Except Fault Bool :=
  if dup.agentId ≠ c.agentId ∨ dup.mode ≠ c.mode then .ok false
  else do
    let paths ← normalizePathspec dup.pathspec
    .ok (paths = c.pathspec && dup.taskId = c.taskId && dup.priority = c.priority &&
      dup.requestedTtl.getD 600 = c.ttl && dup.bailEpoch = bailEpoch && dup.reason = c.reason)

/-- A row that stands for the request that was made again. -/
def dedupReply (dup : Orbit) : Reply :=
  { orbitId := some dup.orbitId
    requestGeneration := some dup.requestGeneration
    bailEpoch := some dup.bailEpoch
    state := some (.orbit dup.state)
    fence := dup.fence
    queueSeq := dup.queueSeq
    conflicts := dup.blockerIds
    dedup := true }

/-- `retryable_policy_denial`. -/
def Orbit.retryablePolicyDenial (o : Orbit) : Bool :=
  o.state = .DENIED &&
    (o.decisionType = some .ADMISSION_DENIED || o.decisionType = some .PROMOTION_DENIED)

/-- The generation of the request, or the answer it already has. -/
def claimGeneration (s : Store) (c : ClaimArgs) (rollover : Option ℕ) (bailEpoch : ℕ) :
    Except Fault (Reply ⊕ ℕ) :=
  match rollover, s.latestOrbitByRequest c.requestId with
  | some _, none => .error (.runtimeError "authorized rollover predecessor disappeared")
  | some generation, some _ =>
      if some generation ≠ c.requestId.map s.nextRequestGeneration then
        .error (.runtimeError "authorized rollover generation lost authority")
      else .ok (.inr generation)
  | none, none => .ok (.inr 0)
  | none, some dup => do
      let same ← sameRequest dup c bailEpoch
      if !same then .ok (.inl (.refuse "idempotency_conflict"))
      else if dup.retryablePolicyDenial then
        if maxRequestGeneration ≤ dup.requestGeneration then
          .ok (.inl (.reject "request_generation_exhausted"))
        else .ok (.inr ((c.requestId.map s.nextRequestGeneration).getD 0))
      else .ok (.inl (dedupReply dup))

/-- The live row of the same intent, when it is the caller's. -/
def claimIntent (s : Store) (c : ClaimArgs) : Option Reply :=
  match s.orbitByIntent c.intentKey with
  | none => none
  | some dup =>
      if dup.agentId ≠ c.agentId then none
      else if c.requestId ≠ none ∧ dup.requestId ≠ c.requestId then
        some (.refuse "idempotency_conflict")
      else some (dedupReply dup)

/-! ## The row of a claim -/

/-- What was settled about a request before its decision: its identifiers, its ticket and
the clock of the transaction. -/
structure Ticket where
  orbitId : OrbitId
  generation : ℕ
  bailEpoch : ℕ
  queueSeq : ℤ
  observedAt : Time

/-- The request identifier of the row. -/
def ClaimArgs.semanticRequest (c : ClaimArgs) (k : Ticket) : RequestId :=
  c.requestId.getD (RequestId.internal k.orbitId)

/-- The columns both the granted and the queued row have. -/
def ClaimArgs.row (c : ClaimArgs) (cfg : Cfg) (k : Ticket) (state : OrbitState) : Orbit where
  orbitId := k.orbitId
  taskId := c.taskId
  agentId := c.agentId
  pathspec := c.pathspec
  mode := c.mode
  state := state
  createdAt := k.observedAt
  reason := c.reason
  priority := c.priority
  intentKey := some c.intentKey
  queueSeq := some k.queueSeq
  requestedTtl := some c.ttl
  policyVersion := some cfg.policy.version
  pathspecDigest := some c.pathspec
  requestId := some (c.semanticRequest k)
  requestGeneration := k.generation
  bailEpoch := k.bailEpoch

/-- The identity the events of the request carry. -/
def ClaimArgs.identity (c : ClaimArgs) (k : Ticket) : AdmissionIdentity :=
  ⟨c.semanticRequest k, k.generation, k.orbitId⟩

/-- The reply about the row of a request. -/
def ClaimArgs.reply (k : Ticket) (state : OrbitState) : Reply :=
  { orbitId := some k.orbitId
    requestGeneration := some k.generation
    bailEpoch := some k.bailEpoch
    state := some (.orbit state)
    queueSeq := some k.queueSeq }

/-- `read_synced_gen` after a read claim: the oldest generation read at. -/
def syncRead (s : Store) (c : ClaimArgs) (readGen : ℕ) : Store :=
  match c.mode, c.taskId with
  | .read, some task =>
      match s.getTask task with
      | none => s
      | some t =>
          match t.readSyncedGen with
          | none => s.setTask task fun r => { r with readSyncedGen := some readGen }
          | some prev =>
              if readGen < prev then
                s.setTask task fun r => { r with readSyncedGen := some readGen }
              else s
  | _, _ => s

/-- The granted row. -/
def ClaimArgs.heldRow (c : ClaimArgs) (cfg : Cfg) (k : Ticket) (fence readGen : ℕ) : Orbit :=
  { c.row cfg k .HELD with
    fence := some fence
    expiresAt := some (k.observedAt + c.ttl)
    readGen := if c.mode = .read then some readGen else none
    decisionType := some .ADMISSION_GRANTED }

/-- The queued row. -/
def ClaimArgs.pendingRow (c : ClaimArgs) (cfg : Cfg) (k : Ticket) (d : AdmissionDecision) :
    Orbit :=
  { c.row cfg k .PENDING with
    decisionType := some .ADMISSION_QUEUED
    blockerIds := d.blockerIds
    enqueuedAt := some k.observedAt
    waitDeadline := some (k.observedAt + cfg.admissionWaitTimeout) }

/-- The insertion of a granted row. -/
def grantRow (cfg : Cfg) (s : Store) (c : ClaimArgs) (k : Ticket) : Except Fault Store := do
  let s := s.bumpSeq.bumpFence
  let s ← assertAdmissionProjection s .REQUESTED .ADMISSION_GRANTED (c.identity k) true
    (some .HELD)
  .ok (s.addOrbit (c.heldRow cfg k s.fence s.integrationGen))

/-- The immediate grant. -/
def claimGrant (cfg : Cfg) (s : Store) (c : ClaimArgs) (k : Ticket) :
    Except Fault (Store × Result) := do
  let s ← grantRow cfg s c k
  let fence := s.fence
  let readGen := s.integrationGen
  let s ← denyReservationCycles cfg k.observedAt s .reservation_cycle_after_grant
  let s := syncRead s c readGen
  .ok (s, .set { ClaimArgs.reply k .HELD with fence := some fence })

/-- The refusal of a request that found the queue full. -/
def claimOverload (s : Store) (c : ClaimArgs) (k : Ticket) (terminal : Bool) :
    Except Fault (Store × Result) := do
  let s ← assertAdmissionProjection s .REQUESTED .ADMISSION_REJECTED (c.identity k) true none
  .ok (s, { reply := { Reply.reject "queue_full" with
                        retry := true
                        orbitId := some k.orbitId
                        requestGeneration := some k.generation
                        bailEpoch := some k.bailEpoch }
            terminal := terminal })

/-- The insertion of a queued row. -/
def queueRow (cfg : Cfg) (s : Store) (c : ClaimArgs) (k : Ticket) (d : AdmissionDecision) :
    Except Fault Store := do
  let s := s.bumpSeq
  let s ← assertAdmissionProjection s .REQUESTED .ADMISSION_QUEUED (c.identity k) true
    (some .PENDING)
  .ok (s.addOrbit (c.pendingRow cfg k d))

/-- The denial of a row whose queueing closed a cycle. -/
def denyQueued (s : Store) (c : ClaimArgs) (k : Ticket) : Except Fault Store := do
  let s ← assertAdmissionProjection s .PENDING .PROMOTION_DENIED (c.identity k) true
    (some .DENIED)
  let state ← advanceOrbit .PENDING .deny
  .ok (s.setOrbit k.orbitId fun r =>
    { r with
      state := state
      decisionType := some .PROMOTION_DENIED
      terminalReason := some .reservation_cycle })

/-- The queueing of a request that cannot be granted. -/
def claimQueue (cfg : Cfg) (s : Store) (c : ClaimArgs) (k : Ticket) (d : AdmissionDecision) :
    Except Fault (Store × Result) := do
  let s ← queueRow cfg s c k d
  let cycle ← cycleWith cfg s c.agentId k.observedAt
  if cycle then do
    let s ← denyQueued s c k
    .ok (s, .set { ClaimArgs.reply k .DENIED with
                    deadlock := true
                    reason := some "reservation_cycle"
                    conflicts := d.blockerIds })
  else .ok (s, .set { ClaimArgs.reply k .PENDING with conflicts := d.blockerIds })

/-- The decision of `claim` and what follows from it.  `rollover` turns the caching of a
full queue off. -/
def claimDecide (cfg : Cfg) (s : Store) (c : ClaimArgs) (generation bailEpoch : ℕ)
    (rollover : Bool) (observedAt : Time) : Except Fault (Store × Result) := do
  let k : Ticket := ⟨s.uuid, generation, bailEpoch, s.seq + 1, observedAt⟩
  let s := s.bumpUuid
  let d ← admissionDecision cfg s c.pathspec c.mode c.priority (some k.queueSeq)
    (some k.orbitId) (some cfg.policy.version) (some observedAt) observedAt
  if d.grantable then claimGrant cfg s c k
  else if cfg.admissionQueueCapacity ≤ s.pendingQueueStats.1 then
    claimOverload s c k (!rollover)
  else claimQueue cfg s c k d

/-- The body of `claim` after its sweep. -/
def claimSwept (cfg : Cfg) (s : Store) (c : ClaimArgs) (rollover : Option ℕ)
    (observedAt : Time) : Except Fault (Store × Result) :=
  match checkAlive s (some c.agentId) c.bailEpoch with
  | some dead => .ok (s, .set dead)
  | none => do
      let s := s.upsertAgent c.agentId observedAt
      let bailEpoch := ((s.getAgent c.agentId).map Agent.bailEpoch).getD 0
      match ← claimGeneration s c rollover bailEpoch with
      | .inl reply => .ok (s, .set reply)
      | .inr generation =>
          match claimIntent s c with
          | some reply => .ok (s, .set reply)
          | none =>
              if !cfg.policy.acceptsBasePriority c.priority then
                .ok (s, .set (.reject "invalid_admission_request"))
              else claimDecide cfg s c generation bailEpoch rollover.isSome observedAt

/-- The critical section of `claim`.  `observedAt` is the clock of a sweep that the caller
already made. -/
def claimSection (cfg : Cfg) (now : Time) (s : Store) (c : ClaimArgs)
    (observedAt : Option Time) (rollover : Option ℕ) : Except Fault (Store × Reply) :=
  match replayTerminalClaimOverload s c with
  | some reply => .ok (s, reply)
  | none =>
      match taskGate s c.taskId with
      | some reply => .ok (s, reply)
      | none => do
          let r ← withIdem now s c.requestId (some c.agentId) c.idemArgs fun s =>
            match observedAt with
            | some t => claimSwept cfg s c rollover t
            | none => do
                let s ← sweepInline cfg now s
                claimSwept cfg s c rollover now
          .ok (r.1, r.2.reply)

/-- `claim`. -/
def claim (cfg : Cfg) (now : Time) (s : Store) (c : ClaimArgs)
    (observedAt : Option Time := none) (rollover : Option ℕ := none) :
    Except Fault (Store × Reply) :=
  if rollover.any fun g => g < 1 || maxRequestGeneration < g then
    .error (.runtimeError "invalid authorized request generation")
  else
    match c.validate cfg with
    | .error reply => .ok (s, reply)
    | .ok c => claimSection cfg now s c observedAt rollover

/-! ## Rollover -/

/-- `supported_terminals`: the row ended, and not by a denial of policy. -/
def Orbit.rolloverable (o : Orbit) : Bool :=
  (o.state = .RELEASED && o.decisionType = some .RELEASE) ||
  (o.state = .EXPIRED && o.decisionType = some .LEASE_EXPIRED) ||
  (o.state = .DENIED && o.decisionType = some .CANCEL) ||
  (o.state = .DENIED && o.decisionType = some .WAIT_TIMEOUT)

/-- The guards of `rollover_claim` after its sweep: a refusal, or the predecessor. -/
def rolloverGate (s : Store) (prior : OrbitId) (agent : AgentId) (expected bailEpoch : ℕ) :
    Reply ⊕ (Orbit × RequestId) :=
  let fenced (reason : String) : Reply := { Reply.reject reason with fencedOut := true }
  match s.getOrbit prior with
  | none => .inl (.reject "no such orbit")
  | some o =>
      if o.kind ≠ .orbit then .inl (.reject "no such orbit")
      else
        match o.requestId with
        | none => .inl (.reject "rollover_requires_explicit_claim_id")
        | some request =>
            if o.agentId ≠ agent then .inl (fenced "not owner")
            else if o.requestGeneration ≠ expected then .inl (fenced "stale request_generation")
            else if (s.latestOrbitByRequest (some request)).map Orbit.orbitId ≠ some prior then
              .inl (fenced "stale rollover predecessor")
            else if !o.rolloverable then .inl (.reject "rollover_predecessor_not_supported")
            else if maxRequestGeneration ≤ expected then
              .inl (.reject "request_generation_exhausted")
            else
              match checkAlive s (some agent) (some bailEpoch) with
              | some dead => .inl dead
              | none =>
                  if (s.getAgent agent).any fun a => a.bailEpoch ≠ bailEpoch then
                    .inl (fenced "stale bail_epoch")
                  else
                    match taskGate s o.taskId with
                    | some reply => .inl reply
                    | none =>
                        if s.nextRequestGeneration request ≠ expected + 1 then
                          .inl (fenced "stale rollover predecessor")
                        else .inr (o, request)

/-- The claim that a rollover makes for its predecessor. -/
def rolloverArgs (o : Orbit) (request : RequestId) (agent : AgentId) (bailEpoch : ℕ) :
    ClaimArgs where
  agentId := agent
  pathspec := o.pathspec
  mode := o.mode
  ttl := o.requestedTtl.getD 600
  taskId := o.taskId
  reason := o.reason
  priority := o.priority
  requestId := some request
  bailEpoch := some bailEpoch

/-- The body of `rollover_claim` after its sweep. -/
def rolloverSwept (cfg : Cfg) (now : Time) (s : Store) (prior : OrbitId) (agent : AgentId)
    (expected bailEpoch : ℕ) : Except Fault (Store × Result) :=
  match rolloverGate s prior agent expected bailEpoch with
  | .inl reply => .ok (s, .set reply)
  | .inr (o, request) => do
      let s := s.clearIdem request
      let r ← claim cfg now s (rolloverArgs o request agent bailEpoch) (some now)
        (some (expected + 1))
      let admission := r.2
      if admission.state = some .REJECTED ∨ admission.ok = some false then
        .ok (r.1, .set { Reply.reject "rollover_admission_rejected" with
                          retry := admission.retry })
      else if admission.requestGeneration ≠ some (expected + 1) then
        .error (.runtimeError "rollover result did not bind the authorized generation")
      else .ok (r.1, { reply := { admission with ok := some true }, terminal := true })

/-- `rollover_claim`. -/
def rolloverClaim (cfg : Cfg) (now : Time) (s : Store) (prior : OrbitId) (agent : AgentId)
    (expected bailEpoch : ℕ) (requestId : RequestId) : Except Fault (Store × Reply) :=
  if agent = "" then .ok (s, .reject "invalid_agent_id")
  else if maxRequestGeneration < expected then .ok (s, .reject "invalid_request_generation")
  else if requestId = "" then .ok (s, .reject "invalid_request_id")
  else
    match s.getOrbit prior with
    | none => .ok (s, .reject "no such orbit")
    | some o =>
        if o.requestId = some requestId then
          .ok (s, .reject "rollover_request_id_must_be_distinct")
        else do
          let r ← withIdem now s (some requestId) (some agent)
            (.rollover_claim prior expected bailEpoch) fun s => do
              let s ← sweepInline cfg now s
              rolloverSwept cfg now s prior agent expected bailEpoch
          .ok (r.1, r.2.reply)

/-! ## The end of a wait and of a lease -/

/-- The guards of `cancel_wait` before it touches the agent. -/
def cancelWaitGate (s : Store) (orbit : OrbitId) (agent : AgentId)
    (generation bailEpoch : ℕ) : Reply ⊕ Orbit :=
  match s.getOrbit orbit with
  | none => .inl (.refuse "no such orbit")
  | some o =>
      if o.kind ≠ .orbit then .inl (.refuse "resource is not a cancellable orbit")
      else if o.agentId ≠ agent then .inl (.refuse "not owner")
      else if o.requestGeneration ≠ generation then
        .inl (.fenceOut "stale request_generation")
      else if o.bailEpoch ≠ bailEpoch then .inl (.fenceOut "stale bail_epoch")
      else
        match s.getAgent agent with
        | none => .inl (.fenceOut "agent not registered")
        | some _ =>
            match checkAlive s (some agent) (some bailEpoch) with
            | some dead => .inl dead
            | none => .inr o

/-- `cancelled_response`. -/
def cancelledResponse (o : Orbit) (noop : Bool := false) : Reply :=
  { ok := some true
    orbitId := some o.orbitId
    requestGeneration := some o.requestGeneration
    bailEpoch := some o.bailEpoch
    state := some .CANCELLED
    noop := noop }

/-- The write of `cancel_wait`. -/
def cancelPending (now : Time) (s : Store) (o : Orbit) : Except Fault Store := do
  let id ← admissionIdentity o
  let s ← assertAdmissionProjection s .PENDING .CANCEL id true (some .DENIED)
  let state ← advanceOrbit .PENDING .deny
  .ok (s.setOrbit o.orbitId fun r =>
    { r with
      state := state
      releasedAt := some now
      decisionType := some .CANCEL
      blockerIds := []
      terminalReason := some .cancelled })

/-- The body of `cancel_wait`. -/
def cancelWaitBody (cfg : Cfg) (now : Time) (s : Store) (orbit : OrbitId) (agent : AgentId)
    (generation bailEpoch : ℕ) : Except Fault (Store × Result) :=
  match cancelWaitGate s orbit agent generation bailEpoch with
  | .inl reply => .ok (s, .set reply)
  | .inr o =>
      let s := s.upsertAgent agent now
      if o.state = .DENIED ∧ o.decisionType = some .CANCEL then
        .ok (s, .set (cancelledResponse o true))
      else if o.state ≠ .PENDING then
        .ok (s, .set { Reply.refuse "not PENDING" with state := some (.orbit o.state) })
      else do
        let s ← cancelPending now s o
        let s ← reconcileAdmission cfg now s
        .ok (s, .set (cancelledResponse o))

/-- `cancel_wait`. -/
def cancelWait (cfg : Cfg) (now : Time) (s : Store) (orbit : OrbitId) (agent : AgentId)
    (generation bailEpoch : ℕ) (requestId : Option RequestId) : Except Fault (Store × Reply) :=
  if agent = "" then .ok (s, .reject "invalid_agent_id")
  else if requestId = some "" then .ok (s, .reject "invalid_request_id")
  else do
    let r ← withIdem now s requestId (some agent) (.cancel_wait orbit generation bailEpoch)
      fun s => cancelWaitBody cfg now s orbit agent generation bailEpoch
    .ok (r.1, r.2.reply)

/-- The write of `renew`. -/
def renewOrbit (s : Store) (o : Orbit) (deadline : Time) : Except Fault Store := do
  let s ← reduceOrbitLifecycle s o .RENEW
  let state ← advanceOrbit .HELD .renew
  .ok (s.setOrbit o.orbitId fun r =>
    { r with state := state, expiresAt := some deadline, decisionType := some .RENEW })

/-- The body of `renew`.  It takes a row of any kind. -/
def renewBody (now : Time) (s : Store) (orbit : OrbitId) (agent : AgentId)
    (fence : Option ℕ) (ttl : ℚ) (bailEpoch : Option ℕ) : Except Fault (Store × Result) :=
  match checkAlive s (some agent) bailEpoch with
  | some dead => .ok (s, .set dead)
  | none =>
      let s := s.upsertAgent agent now
      match s.getOrbit orbit with
      | none => .ok (s, .set (.refuse "no such orbit"))
      | some o =>
          if o.state ≠ .HELD then .ok (s, .set (.fenceOut "not HELD"))
          else
            match checkOwner o agent fence with
            | some bad => .ok (s, .set bad)
            | none => do
                let s ← renewOrbit s o (now + ttl)
                .ok (s, .set { ok := some true })

/-- `renew`. -/
def renew (now : Time) (s : Store) (orbit : OrbitId) (agent : AgentId) (fence : Option ℕ)
    (ttl : ℚ) (requestId : Option RequestId) (bailEpoch : Option ℕ) :
    Except Fault (Store × Reply) :=
  if ttl ≤ 0 then .ok (s, .refuse "invalid ttl")
  else do
    let r ← withIdem now s requestId (some agent) (.renew orbit fence ttl) fun s =>
      renewBody now s orbit agent fence ttl bailEpoch
    .ok (r.1, r.2.reply)

/-- The write of `release`. -/
def releaseOrbit (now : Time) (s : Store) (o : Orbit) : Except Fault Store := do
  let s ← reduceOrbitLifecycle s o .RELEASE
  let state ← advanceOrbit .HELD .release
  .ok (s.setOrbit o.orbitId fun r =>
    { r with state := state, releasedAt := some now, decisionType := some .RELEASE })

/-- The body of `release`.  A pinned orbit is kept. -/
def releaseBody (cfg : Cfg) (now : Time) (s : Store) (orbit : OrbitId) (agent : AgentId)
    (fence : Option ℕ) (bailEpoch : Option ℕ) : Except Fault (Store × Result) :=
  match checkAlive s (some agent) bailEpoch with
  | some dead => .ok (s, .set dead)
  | none =>
      let s := s.upsertAgent agent now
      match s.getOrbit orbit with
      | none => .ok (s, .set (.refuse "no such orbit"))
      | some o =>
          if o.kind ≠ .orbit then .ok (s, .set (.refuse "resource is not a releasable orbit"))
          else if o.state.terminal then
            .ok (s, .set { ok := some true, noop := true, state := some (.orbit o.state) })
          else if o.state ≠ .HELD then .ok (s, .set (.refuse "not HELD"))
          else if o.merging then
            .ok (s, .set { Reply.refuse "connect_effect_in_progress" with retry := true })
          else
            match checkOwner o agent fence with
            | some bad => .ok (s, .set bad)
            | none => do
                let s ← releaseOrbit now s o
                let s ← reconcileAdmission cfg now s
                .ok (s, .set { ok := some true })

/-- `release`. -/
def release (cfg : Cfg) (now : Time) (s : Store) (orbit : OrbitId) (agent : AgentId)
    (fence : Option ℕ) (requestId : Option RequestId) (bailEpoch : Option ℕ) :
    Except Fault (Store × Reply) := do
  let r ← withIdem now s requestId (some agent) (.release orbit fence) fun s =>
    releaseBody cfg now s orbit agent fence bailEpoch
  .ok (r.1, r.2.reply)

end Omd
