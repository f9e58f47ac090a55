import Omd.Connect

/-!
# Recovery

A coordinator that holds the effect lock knows that no merge runs, so every task that is
`CONNECTING` was left there by an executor that died.  Recovery validates the binding of
each such attempt, takes it over under a new generation, and asks the repository: a merge
that is there is published, one that is not is rolled back, and whatever cannot be proven
stays as it is with its token protected.

Afterwards the tokens that nothing protects are expired, the barriers that were tripping
are settled, the rows of aborted tasks are closed, and the requests that were in flight
get the answer of their task.
-/

namespace Omd

open Lib

namespace Store

variable (s : Store)

/-- `barrier_by_name`: the latest generation. -/
def barrierByName (name : String) : Option Barrier :=
  (s.barriers.filter fun b => b.name = name).foldl (fun best b =>
    match best with
    | none => some b
    | some c => if c.generation ≤ b.generation then some b else some c) none

/-- `get_barrier_party`. -/
def getBarrierParty (id : BarrierId) (generation : ℕ) (task : TaskId) : Option BarrierParty :=
  s.barrierParties.find? fun p =>
    p.barrierId = id && p.generation = generation && p.taskId = task

/-- `inflight_idem`. -/
def inflightIdem : List IdemRow := s.idempotency.filter fun r => r.status = .INFLIGHT

end Store

/-! ## The binding of an attempt -/

/-- The agents a token of the task may be held by. -/
def tokenAgents (t : Task) : List AgentId :=
  t.agentId.toList ++ ["connect:" ++ t.taskId, "barrier:" ++ t.taskId]

/-- A token of the task with this operation binding. -/
def tokenBound (t : Task) (operation : Option AttemptId) (owner : Option String)
    (generation : Option ℕ) (o : Orbit) : Bool :=
  o.state = .HELD && o.kind = .merge_token && o.resourceKey = some Store.mergeResource &&
    o.agentId ∈ tokenAgents t && o.operationId = operation && o.ownerInstance = owner &&
    o.ownerGeneration = generation

/-- The request of an attempt: `none` when its row does not carry the binding. -/
def requestBinding (s : Store) (t : Task) (operation : Option AttemptId)
    (owner : Option String) (generation : Option ℕ) : Option (Option IdemRow) :=
  match t.connectRequestId, t.connectArgHash with
  | none, none => some none
  | some id, some args =>
      if id = "" then none
      else
        match s.getIdem id with
        | none => none
        | some r =>
            if r.status = .INFLIGHT ∧ r.argHash = args ∧ r.operationId = operation ∧
                r.ownerInstance = owner ∧ r.ownerGeneration = generation then some (some r)
            else none
  | _, _ => none

/-- What recovery works with: the token of the attempt and the row of its request. -/
structure Binding where
  tokenId : Option OrbitId
  request : Option IdemRow

/-- The token of an attempt that predates attempt identifiers. -/
def legacyToken (s : Store) (t : Task) : Option Orbit :=
  match t.connectTokenId.bind s.getOrbit with
  | some o => some o
  | none =>
      match (s.heldOfKind .merge_token).filter fun o =>
          o.resourceKey = some Store.mergeResource with
      | [o] => if tokenBound t none none none o then some o else none
      | _ => none

/-- The validation of an attempt that predates attempt identifiers. -/
def legacyBinding (s : Store) (t : Task) : Option Binding :=
  if t.connectOwnerInstance ≠ none ∨ t.connectOwnerGeneration ≠ 0 then none
  else
    let token := legacyToken s t
    if token.any fun o => !tokenBound t none none none o then none
    else
      match requestBinding s t none none none with
      | none => none
      | some request => some ⟨(token.map Orbit.orbitId).or t.connectTokenId, request⟩

/-- The validation of a bound attempt. -/
def modernBinding (s : Store) (t : Task) (attempt : AttemptId) : Option Binding :=
  match t.connectOwnerInstance with
  | none => none
  | some owner =>
      if owner = "" ∨ t.connectOwnerGeneration = 0 then none
      else
        match t.connectTokenId.bind s.getOrbit with
        | none => none
        | some token =>
            if !tokenBound t (some attempt) (some owner) (some t.connectOwnerGeneration) token
            then none
            else
              match requestBinding s t (some attempt) (some owner)
                  (some t.connectOwnerGeneration) with
              | none => none
              | some request => some ⟨some token.orbitId, request⟩

/-- The validation of the attempt of a task; `none` is a binding error. -/
def recoverBinding (s : Store) (t : Task) : Option Binding :=
  match t.connectAttemptId with
  | none => legacyBinding s t
  | some attempt => modernBinding s t attempt

/-- The takeover of the request of an attempt. -/
def takeoverRequest (env : Env) (s : Store) (t : Task) (attempt : AttemptId)
    (request : Option IdemRow) : Except Fault Store :=
  match request with
  | none => .ok s
  | some r =>
      match s.takeoverIdemOperationExact r.requestId r.agentId r.argHash attempt
          t.connectOwnerInstance t.connectOwnerGeneration env.instanceId
          (t.connectOwnerGeneration + 1) with
      | none => .error (.runtimeError "connect recovery ownership CAS lost")
      | some s => .ok s

/-- The takeover of an attempt: task, token and request get the new owner. -/
def takeover (env : Env) (s : Store) (t : Task) (b : Binding) : Except Fault Store :=
  match t.connectAttemptId, b.tokenId with
  | some attempt, some token =>
      let generation := t.connectOwnerGeneration + 1
      let s := s.setTask t.taskId fun r =>
        { r with
          connectAttemptId := some attempt
          connectOwnerInstance := some env.instanceId
          connectOwnerGeneration := generation
          connectTokenId := some token }
      let s := s.setOrbit token fun r =>
        { r with
          operationId := some attempt
          ownerInstance := some env.instanceId
          ownerGeneration := some generation }
      takeoverRequest env s t attempt b.request
  | _, _ => .ok s

/-! ## The verdict of the repository -/

/-- The trailer that proves the attempt of a task. -/
def attemptTrailer (t : Task) : Trailer :=
  match t.connectAttemptId with
  | none => .task t.taskId
  | some attempt => .attempt attempt

/-- What recovery does with an attempt. -/
inductive Verdict
  | unresolved | merged (sha : Sha) | rollback
  deriving DecidableEq, Repr

/-- The verdict about an attempt; a rollback that failed stops the recovery. -/
def recoverVerdict (git : Option GitView) (t : Task) : Except Fault Verdict :=
  if !t.connectRepoBound then .ok .rollback
  else
    match git with
    | none => .ok .unresolved
    | some view =>
        if !view.worktreeReady then .ok .unresolved
        else
          match view.branchInIntegration (attemptTrailer t) with
          | none => .ok .unresolved
          | some (some sha) =>
              if t.connectAttemptId = none ∨
                  t.branchTipSha.any fun tip => view.isAncestor tip sha then .ok (.merged sha)
              else .ok .unresolved
          | some none =>
              match t.integrationBaseSha with
              | none => .ok .unresolved
              | some base =>
                  match view.abortMergeVerified base with
                  | .verified => .ok .rollback
                  | .rollbackError => .error .gitRollback
                  | .gitError => .ok .unresolved

/-- The release of the token of an attempt, when it has one. -/
def releaseToken (now : Time) (s : Store) (token : Option OrbitId) : Except Fault Store :=
  match token with
  | none => .ok s
  | some id => releaseMergeToken now s id

/-- The publication of a merge that recovery found. -/
def recoverMerge (now : Time) (s : Store) (task : TaskId) (token : Option OrbitId) (sha : Sha) :
    Except Fault Store := do
  let s := s.setTask task fun r => { r with mergeSha := some sha, mergedAt := some now }
  let s ← publishMerge now s task
  let s ← mergeTask s task
  let s ← releaseToken now s token
  .ok (s.setFlag task "merged" none)

/-- The rollback of an attempt that left no merge. -/
def recoverRollback (now : Time) (s : Store) (task : TaskId) (token : Option OrbitId) :
    Except Fault Store := do
  let s := unpinOrbits s task
  let s ← rollbackTask s task
  releaseToken now s token

/-- The store during a recovery, with what it left unresolved. -/
structure RecoverState where
  store : Store
  unresolved : Bool := false
  guarded : List OrbitId := []

/-- One round of the task loop of `_recover_under_effect`. -/
def recoverTask (env : Env) (r : RecoverState) (t : Task) : Except Fault RecoverState :=
  match recoverBinding r.store t with
  | none =>
      .ok { r with
            unresolved := true
            guarded := r.guarded ++ (r.store.heldOfKind .merge_token).map Orbit.orbitId }
  | some b => do
      let s ← takeover env r.store t b
      let t := (s.getTask t.taskId).getD t
      match ← recoverVerdict env.git t with
      | .unresolved =>
          .ok { store := s, unresolved := true, guarded := r.guarded ++ b.tokenId.toList }
      | .merged sha => do
          let s ← recoverMerge env.now s t.taskId b.tokenId sha
          .ok { r with store := s }
      | .rollback => do
          let s ← recoverRollback env.now s t.taskId b.tokenId
          .ok { r with store := s }

/-! ## The rest of a recovery -/

/-- `_merged_task_effect_proven`. -/
def mergedTaskEffectProven (git : Option GitView) (task : Option Task) : Bool :=
  match task with
  | none => false
  | some t =>
      if t.state ≠ .MERGED then false
      else if !t.connectRepoBound then true
      else
        match git, t.mergeSha with
        | some view, some sha =>
            view.worktreeReady && view.branchInIntegration (attemptTrailer t) = some (some sha) &&
              (t.connectAttemptId = none || t.branchTipSha.any fun tip => view.isAncestor tip sha)
        | _, _ => false

/-- One round of `_barrier_recover`. -/
def recoverBarrier (git : Option GitView) (s : Store) (b : Barrier) : Except Fault Store :=
  let tasks := (s.partiesOf b.barrierId b.generation).map fun p => s.getTask p.taskId
  if tasks ≠ [] ∧ tasks.all fun t => t.map Task.state = some .MERGED then
    if tasks.all (mergedTaskEffectProven git) then do
      let state ← advanceBarrier .TRIPPING .trip
      .ok (s.setBarrier b.barrierId fun r => { r with state := state })
    else .ok s
  else breakBarrier s b "coordinator_crash_partial_trip"

/-- `_barrier_recover`. -/
def barrierRecover (git : Option GitView) (s : Store) : Except Fault Store :=
  (s.barriers.filter fun b => b.state = .TRIPPING).foldlM (recoverBarrier git) s

/-- The answer of `finish` in `_recover_split_idempotency`. -/
def recoverFinish (now : Time) (s : Store) (row : IdemRow) (reply : Reply) :
    Except Fault Store :=
  match s.finishIdemExact row.requestId row.agentId row.argHash reply now with
  | none => .error (.runtimeError "idempotency ownership lost during recovery")
  | some s => .ok s

/-- The binding of a merged task is the one of the row. -/
def mergedBinding (t : Task) (row : IdemRow) : Bool :=
  if t.connectAttemptId ≠ none then
    t.connectRequestId = some row.requestId && t.connectArgHash = some row.argHash &&
      t.connectAttemptId = row.operationId && t.connectOwnerInstance = row.ownerInstance &&
      t.connectOwnerGeneration = row.ownerGeneration.getD 0
  else
    t.connectRequestId = none && t.connectArgHash = none && row.operationId = none &&
      row.ownerInstance = none && row.ownerGeneration = none

/-- The row of a `connect`. -/
def recoverConnectRow (env : Env) (s : Store) (row : IdemRow) (task : TaskId) :
    Except Fault Store :=
  let retry : Except Fault Store :=
    match s.markIdemRetryableExact row.requestId row.agentId row.argHash with
    | none => .error (.runtimeError "idempotency ownership lost during retry recovery")
    | some s => .ok s
  match s.getTask task with
  | none => retry
  | some t =>
      if t.state = .MERGED then
        if mergedBinding t row ∧ mergedTaskEffectProven env.git (some t) then
          recoverFinish env.now s row
            { ok := some true, state := some (.task .MERGED), mergeSha := t.mergeSha }
        else .ok s
      else if t.state ≠ .CONNECTING then retry
      else .ok s

/-- The row of a `barrier_arrive`. -/
def recoverArriveRow (env : Env) (s : Store) (row : IdemRow) (name : String) (task : TaskId)
    (fence : Option ℕ) : Except Fault Store :=
  match s.barrierByName name with
  | none => .ok s
  | some b =>
      let party := s.getBarrierParty b.barrierId b.generation task
      if !(party.any fun p =>
          p.arrived && p.agentId = row.agentId && (fence = none || p.arriveFence = fence)) then
        .ok s
      else
        match b.state with
        | .TRIPPED | .CONSUMED =>
            let tasks := (s.partiesOf b.barrierId b.generation).map BarrierParty.taskId
            if tasks = [] ∨ !tasks.all fun t => mergedTaskEffectProven env.git (s.getTask t) then
              .ok s
            else
              recoverFinish env.now s row
                { ok := some true
                  state := some (.barrier b.state)
                  gen := some b.generation
                  tasks := tasks.filter fun t => (s.getTask t).map Task.state = some .MERGED }
        | .BROKEN =>
            recoverFinish env.now s row
              { ok := some false
                state := some (.barrier .BROKEN)
                gen := some b.generation
                reason := some (b.breakReason.getD "broken") }
        | .ARMED | .TRIPPING => .ok s

/-- One round of `_recover_split_idempotency`. -/
def recoverIdemRow (env : Env) (s : Store) (row : IdemRow) : Except Fault Store :=
  match row.argHash with
  | .connect task agent _ _ _ =>
      if agent = row.agentId then recoverConnectRow env s row task else .ok s
  | .barrier_arrive name task fence _ => recoverArriveRow env s row name task fence
  | _ => .ok s

/-- `_recover_split_idempotency`. -/
def recoverSplitIdempotency (env : Env) (s : Store) : Except Fault Store :=
  s.inflightIdem.foldlM (recoverIdemRow env) s

/-- The expiry of one token that nothing protects. -/
def expireDangling (now : Time) (guarded : List OrbitId) (s : Store) (o : Orbit) :
    Except Fault Store :=
  if o.orbitId ∈ guarded then .ok s else expireHeld now s o

/-- The repair of one aborted task. -/
def closeAborted (now : Time) (s : Store) (t : Task) : Except Fault Store := do
  let r ← terminalizeCancelledTaskOrbits now s t.taskId
  .ok r.1

/-- `_recover_under_effect`. -/
def recover (cfg : Cfg) (env : Env) (s : Store) : Except Fault Store := do
  let r ← (s.tasksByState [.CONNECTING]).foldlM (recoverTask env) { store := s }
  let s ← (r.store.heldOfKind .merge_token).foldlM (expireDangling env.now r.guarded) r.store
  let s ← if r.unresolved then .ok s else barrierRecover env.git s
  let s ← (s.tasksByState [.ABORTED]).foldlM (closeAborted env.now) s
  let s ← reconcileAdmission cfg env.now s
  recoverSplitIdempotency env s

end Omd
