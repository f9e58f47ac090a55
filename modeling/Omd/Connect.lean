import Omd.Tasks

/-!
# Connect

The merge of a task runs in three phases.  Phase A checks the lease, the write-set and the
reads of the task, takes the one merge token, pins the write orbits and binds the attempt
to the task and to its request.  Phase B merges outside any transaction.  Phase C asks the
repository what happened and, if the attempt is still the bound one, publishes the merge
or rolls the task back.

What Phase A hands to the later phases is an `Intent`.
-/

namespace Omd

open Lib

/-! ## The merge token -/

/-- `_acquire_merge_token_locked`; the token is the row with the old `uuid`. -/
def acquireMergeToken (env : Env) (s : Store) (agent : AgentId) (operation : AttemptId)
    (generation : ℕ) : Option (Store × OrbitId) :=
  match s.heldMergeToken with
  | some _ => none
  | none =>
      let s := s.bumpFence
      let token := s.uuid
      some (s.bumpUuid.addOrbit
        { orbitId := token
          agentId := agent
          state := .HELD
          fence := some s.fence
          createdAt := env.now
          reason := "merge_token"
          kind := .merge_token
          resourceKey := some Store.mergeResource
          operationId := some operation
          ownerInstance := some env.instanceId
          ownerGeneration := some generation }, token)

/-- `_release_merge_token_locked`. -/
def releaseMergeToken (now : Time) (s : Store) (token : OrbitId) : Except Fault Store :=
  match s.getOrbit token with
  | none => .ok s
  | some o =>
      if o.state = .HELD then do
        let state ← advanceOrbit .HELD .release
        .ok (s.setOrbit token fun r => { r with state := state, releasedAt := some now })
      else .ok s

/-! ## Read coherence -/

/-- `list(dict.fromkeys(…))`: the first occurrence of each. -/
def firstOccurrences (l : List String) : List String := l.reverse.dedup.reverse

/-- `_merged_write_globs`. -/
def mergedWriteGlobs (s : Store) (task : TaskId) : List String :=
  let declared := match s.getTask task with
    | none => []
    | some t => t.writes ++ t.shared
  firstOccurrences (declared ++ (s.writesForTask task).flatMap Orbit.pathspec)

/-- One round of `_mark_stale_reads`. -/
def markStaleRead (merged : TaskId) (newGen : ℕ) (globs : List String) (s : Store)
    (r : Orbit) : Store :=
  if r.taskId = some merged ∨ r.stale ∨ r.readGen.any (fun g => newGen ≤ g) then s
  else if setsOverlap r.pathspec globs then
    let s := s.setOrbit r.orbitId fun o => { o with stale := true }
    let key := readStaleKey r.orbitId
    let epoch := match s.getFlag key with
      | none => 0
      | some f => f.epoch + 1
    wakeFlagWaiters
      (s.upsertFlag { key := key, value := toString newGen, setBy := some merged, epoch := epoch })
      key
  else s

/-- `_mark_stale_reads`. -/
def markStaleReads (s : Store) (merged : TaskId) (newGen : ℕ) (globs : List String) : Store :=
  if globs = [] then s
  else s.liveReadOrbits.foldl (markStaleRead merged newGen globs) s

/-- `_ghost_reads`: the merged globs the task read before they were merged. -/
def ghostReads (s : Store) (t : Task) : List String :=
  match t.readSyncedGen with
  | none => []
  | some synced =>
      if t.reads = [] then []
      else
        firstOccurrences (((s.mergesSince synced).filter fun m =>
          m.taskId ≠ t.taskId && setsOverlap t.reads m.globs).flatMap fun m =>
            m.globs.filter fun g => setsOverlap t.reads [g])

/-! ## Phase A -/

/-- What Phase A hands on. -/
structure Intent where
  taskId : TaskId
  branch : Option String
  worktree : Option String
  writes : List OrbitId
  branchTipSha : Option Sha
  integrationBaseSha : Option Sha
  attemptId : AttemptId
  ownerInstance : String
  ownerGeneration : ℕ
  tokenId : OrbitId
  tokenAgent : AgentId
  requestId : Option RequestId
  requestAgent : Option AgentId
  requestArgHash : Option IdemArgs
  repoBound : Bool
  deriving DecidableEq, Repr

/-- The answer of Phase A. -/
structure PhaseA where
  reply : Reply
  intent : Option Intent := none

/-- The request an attempt is bound to. -/
structure BoundRequest where
  requestId : RequestId
  agent : Option AgentId
  argHash : IdemArgs

/-- The gates of Phase A over the orbits of the task: a refusal, or what to merge. -/
def connectGates (git : Option GitView) (s : Store) (t : Task) (agent : Option AgentId)
    (fence : Option ℕ) : Reply ⊕ Candidate :=
  let writes := s.writesForTask t.taskId
  if writes = [] then .inl (.refuse "no write orbit for task")
  else if staleWrites writes agent fence ≠ [] then
    .inl (.fenceOut "stale fence: lease expired/released during work")
  else
    let candidate := snapshotConnectCandidate git t.branch (claimedWriteGlobs writes)
    if candidate.audit.blocks then .inl (.refuse candidate.audit.reason)
    else if ghostReads s t ≠ [] ∨ s.staleReadOrbitsForTask t.taskId ≠ [] then
      .inl (.refuse "read_stale")
    else .inr candidate

/-- The state Phase A leads to. -/
def connectingState (state : TaskState) : Except Fault (Option TaskState) := do
  let done ← if state = .IN_ORBIT then advanceTask state .finish else .ok state
  if done = .DONE then do
    let connecting ← advanceTask done .connect
    .ok (some connecting)
  else .ok none

theorem connectingState_eq {state : TaskState} :
    connectingState state =
      if state = .IN_ORBIT ∨ state = .DONE then .ok (some .CONNECTING) else .ok none := by
  cases state <;> rfl

/-- The binding of the request, when the attempt has one. -/
def bindRequest (env : Env) (s : Store) (request : Option BoundRequest) (attempt : AttemptId)
    (generation : ℕ) : Except Fault Store :=
  match request with
  | none => .ok s
  | some r =>
      match s.bindIdemOperationExact r.requestId r.agent r.argHash attempt env.instanceId
          generation with
      | none => .error (.runtimeError "idempotency operation bind lost for connect")
      | some s => .ok s

/-- The pin of the write orbits. -/
def pinOrbits (s : Store) (writes : List Orbit) : Store :=
  writes.foldl (fun s o => s.setOrbit o.orbitId fun r => { r with merging := true }) s

/-- The columns of an attempt on its task. -/
def bindTask (env : Env) (s : Store) (t : Task) (state : TaskState) (writes : List Orbit)
    (candidate : Candidate) (attempt : AttemptId) (token : OrbitId)
    (request : Option BoundRequest) : Store :=
  s.setTask t.taskId fun r =>
    { r with
      state := state
      connectFence := maxFence writes
      connectIntentAt := some env.now
      branchTipSha := candidate.branchTip
      integrationBaseSha := candidate.integrationBase
      connectAttemptId := some attempt
      connectOwnerInstance := some env.instanceId
      connectOwnerGeneration := t.connectOwnerGeneration + 1
      connectTokenId := some token
      connectRequestId := request.map BoundRequest.requestId
      connectArgHash := request.map BoundRequest.argHash
      connectRepoBound := env.git.isSome }

/-- The intent of an attempt. -/
def intentOf (env : Env) (t : Task) (writes : List Orbit) (candidate : Candidate)
    (attempt : AttemptId) (token : OrbitId) (owner : AgentId)
    (request : Option BoundRequest) : Intent where
  taskId := t.taskId
  branch := t.branch
  worktree := t.worktree
  writes := writes.map Orbit.orbitId
  branchTipSha := candidate.branchTip
  integrationBaseSha := candidate.integrationBase
  attemptId := attempt
  ownerInstance := env.instanceId
  ownerGeneration := t.connectOwnerGeneration + 1
  tokenId := token
  tokenAgent := owner
  requestId := request.map BoundRequest.requestId
  requestAgent := request.bind BoundRequest.agent
  requestArgHash := request.map BoundRequest.argHash
  repoBound := env.git.isSome

/-- The end of Phase A, which the connect of a barrier shares: the token is taken, the
task moves, the attempt is bound and the orbits are pinned.  `busy` is what a caller says
when the token is taken already. -/
def openAttempt (env : Env) (s : Store) (t : Task) (owner : AgentId) (candidate : Candidate)
    (request : Option BoundRequest) (busy : String) : Except Fault (Store × PhaseA) :=
  let writes := s.writesForTask t.taskId
  let attempt := s.uuid
  let s := s.bumpUuid
  match acquireMergeToken env s owner attempt (t.connectOwnerGeneration + 1) with
  | none => .ok (s, { reply := { Reply.refuse busy with retry := true } })
  | some (s, token) => do
      match ← connectingState t.state with
      | none => do
          let s ← releaseMergeToken env.now s token
          .ok (s, { reply := .refuse "task not connectable" })
      | some state => do
          let s := bindTask env s t state writes candidate attempt token request
          let s ← bindRequest env s request attempt (t.connectOwnerGeneration + 1)
          let s := pinOrbits s writes
          .ok (s, { reply := { ok := some true }
                    intent := some (intentOf env t writes candidate attempt token owner
                      request) })

/-- The refusals of Phase A that depend on the state of the task only. -/
def connectTaskGate (t : Task) : Option Reply :=
  if t.state = .MERGED then
    some { ok := some true, noop := true, state := some (.task .MERGED),
           mergeSha := t.mergeSha }
  else if t.state = .CONNECTING then
    some { Reply.refuse "connect_attempt_unresolved" with
             state := some (.task .CONNECTING)
             recoveryRequired := true }
  else none

/-- Phase A after its sweep. -/
def connectSwept (env : Env) (s : Store) (task : TaskId) (agent : Option AgentId)
    (fence : Option ℕ) (bailEpoch : Option ℕ) (request : Option BoundRequest) :
    Except Fault (Store × PhaseA) :=
  match checkAlive s agent bailEpoch with
  | some dead => .ok (s, { reply := dead })
  | none =>
      match s.getTask task with
      | none => .ok (s, { reply := .refuse "no such task" })
      | some t =>
          match connectTaskGate t with
          | some reply => .ok (s, { reply := reply })
          | none =>
              match connectGates env.git s t agent fence with
              | .inl reply => .ok (s, { reply := reply })
              | .inr candidate =>
                  let owner := (agent.filter (· ≠ "")).getD
                    ((t.agentId.filter (· ≠ "")).getD ("connect:" ++ task))
                  openAttempt env s t owner candidate request "merge in progress (token held)"

/-- `_connect_phase_a`. -/
def connectPhaseA (cfg : Cfg) (env : Env) (s : Store) (task : TaskId) (agent : Option AgentId)
    (fence : Option ℕ) (bailEpoch : Option ℕ) (request : Option BoundRequest) :
    Except Fault (Store × PhaseA) := do
  let s ← sweepInline cfg env.now s
  connectSwept env s task agent fence bailEpoch request

/-! ## Phase C -/

/-- The errors Phase B may end with. -/
inductive ConnectError
  | rollback | timeout | conflict (files : List String)
  | checkTimeout | checkMutation | checkFailed | precondition | other
  deriving DecidableEq, Repr

/-- What Phase B returned. -/
structure MergeOutcome where
  mergeSha : Option Sha := none
  err : Option ConnectError := none

/-- What the repository proves about an attempt before Phase C enters its transaction. -/
structure GitProof where
  mergeSha : Option Sha
  err : Option ConnectError
  provenSha : Option Sha := none
  proofError : Bool := false
  rollbackVerified : Bool := false

/-- The part of Phase C before its transaction. -/
def reconcileGit (git : Option GitView) (i : Intent) (o : MergeOutcome) : GitProof :=
  let base : GitProof :=
    { mergeSha := o.mergeSha, err := o.err, rollbackVerified := !i.repoBound }
  if !i.repoBound then base
  else
    match git with
    | none => { base with proofError := true }
    | some view =>
        if !view.worktreeReady then { base with proofError := true }
        else
          match view.branchInIntegration (.attempt i.attemptId) with
          | none => { base with proofError := true }
          | some (some proven) =>
              match i.branchTipSha with
              | none => { base with provenSha := some proven, proofError := true }
              | some candidate =>
                  if view.isAncestor candidate proven then
                    { base with mergeSha := some proven, err := none, provenSha := some proven }
                  else { base with provenSha := some proven, proofError := true }
          | some none =>
              match o.err with
              | none => base
              | some .precondition => { base with rollbackVerified := true }
              | some .rollback => base
              | some _ =>
                  match i.integrationBaseSha with
                  | none => { base with proofError := true }
                  | some sha =>
                      if view.abortMergeVerified sha = .verified then
                        { base with rollbackVerified := true }
                      else { base with proofError := true }

/-- The token of the attempt is held and carries its binding. -/
def ownsToken (s : Store) (i : Intent) : Bool :=
  (s.getOrbit i.tokenId).any fun o =>
    o.state = .HELD && o.kind = .merge_token && o.resourceKey = some Store.mergeResource &&
      o.agentId = i.tokenAgent && o.operationId = some i.attemptId &&
      o.ownerInstance = some i.ownerInstance && o.ownerGeneration = some i.ownerGeneration

/-- The task carries the binding of the attempt. -/
def ownsTask (s : Store) (i : Intent) : Bool :=
  (s.getTask i.taskId).any fun t =>
    t.state = .CONNECTING && t.connectAttemptId = some i.attemptId &&
      t.connectOwnerInstance = some i.ownerInstance &&
      t.connectOwnerGeneration = i.ownerGeneration && t.connectTokenId = some i.tokenId

/-- Every orbit of the attempt is held and pinned. -/
def ownsWrites (s : Store) (i : Intent) : Bool :=
  i.writes.all fun id =>
    (s.getOrbit id).any fun o => o.taskId = some i.taskId && o.state = .HELD && o.merging

/-- The request of the attempt is in flight and carries its binding. -/
def ownsRequest (s : Store) (i : Intent) : Bool :=
  match i.requestId with
  | none => true
  | some id =>
      (s.getIdem id).any fun r =>
        r.status = .INFLIGHT && r.agentId = i.requestAgent &&
          some r.argHash = i.requestArgHash && r.operationId = some i.attemptId &&
          r.ownerInstance = some i.ownerInstance && r.ownerGeneration = some i.ownerGeneration

/-- `owns`: the attempt is the one that is bound. -/
def ownsAttempt (s : Store) (i : Intent) : Bool :=
  ownsTask s i && ownsToken s i && ownsWrites s i && ownsRequest s i

/-- The release of one write orbit of a merged task. -/
def releaseWriteOrbit (now : Time) (s : Store) (o : Orbit) : Except Fault Store := do
  let s ← reduceOrbitLifecycle s o .RELEASE
  let state ← advanceOrbit .HELD .release
  .ok (s.setOrbit o.orbitId fun r =>
    { r with
      state := state
      releasedAt := some now
      merging := false
      decisionType := some .RELEASE })

/-- `_release_task_write_orbits`. -/
def releaseTaskWriteOrbits (now : Time) (s : Store) (task : TaskId) : Except Fault Store :=
  ((s.writesForTask task).filter fun o => o.state = .HELD).foldlM (releaseWriteOrbit now) s

/-- The publication of a merge: the generation moves, the globs are logged, the reads they
overlap become stale, and the write orbits are released. -/
def publishMerge (now : Time) (s : Store) (task : TaskId) : Except Fault Store :=
  let s := { s with integrationGen := s.integrationGen + 1 }
  let globs := mergedWriteGlobs s task
  let s := s.appendMergeLog ⟨s.integrationGen, task, globs⟩
  let s := markStaleReads s task s.integrationGen globs
  releaseTaskWriteOrbits now s task

/-- The task becomes `MERGED`. -/
def mergeTask (s : Store) (task : TaskId) : Except Fault Store := do
  let state ← advanceTask .CONNECTING .merged
  .ok (s.setTask task fun r =>
    { r with state := state, connectIntentAt := none, integrationBaseSha := none })

/-- The pins of a task are taken off. -/
def unpinOrbits (s : Store) (task : TaskId) : Store :=
  (s.pinnedOrbitsForTask task).foldl
    (fun s o => s.setOrbit o.orbitId fun r => { r with merging := false }) s

/-- The task goes back to `DONE`, and the attempt is unbound. -/
def rollbackTask (s : Store) (task : TaskId) : Except Fault Store := do
  let state ← advanceTask .CONNECTING .rollback
  .ok (s.setTask task fun r =>
    { r with
      state := state
      connectIntentAt := none
      integrationBaseSha := none
      connectAttemptId := none
      connectOwnerInstance := none
      connectTokenId := none
      connectRequestId := none
      connectArgHash := none
      connectRepoBound := false })

/-- The identifier of the task that resolves a conflict. -/
def resolveTaskId (task : TaskId) : TaskId := "resolve::" ++ task

/-- `_promote_resolve_task`. -/
def promoteResolveTask (now : Time) (s : Store) (task : TaskId) (files : List String) : Store :=
  match s.getTask (resolveTaskId task) with
  | some t => if t.state.terminal then reopen else s
  | none => reopen
where
  /-- The row of the resolve task, or its new columns. -/
  reopen : Store :=
    s.addTask
      { taskId := resolveTaskId task
        state := .PENDING
        createdAt := now
        resolveFor := some task
        resolveConflictFiles := some files }

/-- The reason a failed attempt is reported with. -/
def failureReason (shared : Bool) : ConnectError → String
  | .checkTimeout => "integration_check_timeout"
  | .checkMutation => "integration_check_mutation"
  | .checkFailed => "integration_check_failed"
  | .precondition => "integration_precondition_failed"
  | .timeout => "merge timeout"
  | _ => if shared then "shared_conflict" else "merge conflict"

/-- The rollback of Phase C. -/
def connectRollback (cfg : Cfg) (now : Time) (s : Store) (task : TaskId) (token : OrbitId)
    (err : ConnectError) : Except Fault (Store × Reply) := do
  let s := unpinOrbits s task
  let s ← rollbackTask s task
  let s ← releaseMergeToken now s token
  let s ← reconcileAdmission cfg now s
  let shared := (s.orbitsForTask task).any fun o => o.mode = .shared
  let reply := { Reply.refuse (failureReason shared err) with state := some (.task .DONE) }
  match err with
  | .conflict files =>
      .ok (promoteResolveTask now s task files,
        { reply with resolveTaskId := some (resolveTaskId task) })
  | _ => .ok (s, reply)

/-- The success of Phase C. -/
def connectMerge (cfg : Cfg) (now : Time) (s : Store) (task : TaskId) (token : OrbitId)
    (sha : Option Sha) : Except Fault (Store × Reply) := do
  let s := s.setTask task fun r => { r with mergeSha := sha, mergedAt := some now }
  let s ← mergeTask s task
  let s ← publishMerge now s task
  let gen := s.integrationGen
  let s ← releaseMergeToken now s token
  let s := s.setFlag task "merged" none
  let s ← reconcileAdmission cfg now s
  .ok (s, { ok := some true, state := some (.task .MERGED), mergeSha := sha, gen := some gen })

/-- An attempt that stays where it is. -/
def failStopped (reason : String) : Reply :=
  { Reply.refuse reason with
      state := some (.task .CONNECTING)
      preserveIdempotency := true }

/-- The transaction of Phase C. -/
def connectPhaseC (cfg : Cfg) (now : Time) (s : Store) (i : Intent) (p : GitProof) :
    Except Fault (Store × Reply) :=
  if !ownsAttempt s i then
    .ok (s, { Reply.fenceOut "connect attempt ownership lost" with preserveIdempotency := true })
  else if p.proofError then .ok (s, failStopped "git_reconciliation_unavailable")
  else
    match p.err with
    | none =>
        if i.repoBound ∧ (p.mergeSha = none ∨ p.provenSha ≠ p.mergeSha) then
          .ok (s, failStopped "missing_exact_git_proof")
        else connectMerge cfg now s i.taskId i.tokenId p.mergeSha
    | some .rollback => .ok (s, failStopped "integration_rollback_failed")
    | some err =>
        if i.repoBound ∧ !p.rollbackVerified then .ok (s, failStopped "rollback_unproven")
        else connectRollback cfg now s i.taskId i.tokenId err

/-! ## The verb -/

/-- The arguments of `connect`. -/
structure ConnectArgs where
  taskId : TaskId
  agentId : Option AgentId := none
  fence : Option ℕ := none
  push : Option String := none
  requestId : Option RequestId := none
  bailEpoch : Option ℕ := none

/-- The arguments the digest of the request covers. -/
def ConnectArgs.idemArgs (c : ConnectArgs) : IdemArgs :=
  .connect c.taskId c.agentId c.fence c.push c.bailEpoch

/-- The request Phase A binds its attempt to. -/
def ConnectArgs.bound (c : ConnectArgs) : Option BoundRequest :=
  c.requestId.map fun id => ⟨id, c.agentId, c.idemArgs⟩

/-- The first critical section of `connect`: the request is reserved. -/
def connectReserve (now : Time) (s : Store) (c : ConnectArgs) :
    Except Fault (Store × Result) :=
  withIdem now s c.requestId c.agentId c.idemArgs fun s =>
    match s.getTask c.taskId with
    | none => .ok (s, { reply := {}, deferred := true })
    | some t =>
        if t.state = .MERGED then
          .ok (s, .set { ok := some true, noop := true, state := some (.task .MERGED),
                         mergeSha := t.mergeSha })
        else .ok (s, { reply := {}, deferred := true })

end Omd
