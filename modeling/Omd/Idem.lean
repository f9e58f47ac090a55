import Omd.Reclaim

/-!
# Request identifiers and the guards of the verbs

A verb that mutates runs inside `_idem`: a request identifier that was answered is
answered again, one that is in flight or belongs to another request is refused, and a new
one is reserved until the body has run.  Only a success is kept as the answer; a refusal
frees the identifier, since the world may change.

The other guards are those of a caller that may be dead (`_check_alive`) or may have lost
its lease (`_check_owner`, `_check_task_write_fence`).
-/

namespace Omd

/-! ## Liveness and fences -/

/-- A refusal with a reason. -/
def Reply.refuse (reason : String) : Reply := { ok := some false, reason := some reason }

/-- A refusal of a caller that lost its authority. -/
def Reply.fenceOut (reason : String) : Reply :=
  { ok := some false, reason := some reason, fencedOut := true }

/-- The states of an agent that may not act. -/
def AgentState.reclaimed : AgentState → Bool
  | .RETIRED | .ZOMBIE | .BAILING => true
  | .WORKING => false

/-- `_check_alive`; `none` when the caller passes. -/
def checkAlive (s : Store) (agent : Option AgentId) (bailEpoch : Option ℕ) : Option Reply :=
  match agent.bind s.getAgent with
  | none => none
  | some a =>
      if a.state.reclaimed then some (.fenceOut "agent reclaimed")
      else
        match bailEpoch with
        | none => none
        | some e => if a.bailEpoch ≠ e then some (.fenceOut "stale bail_epoch") else none

/-- `_check_owner`; `none` when the caller passes. -/
def checkOwner (o : Orbit) (agent : AgentId) (fence : Option ℕ) : Option Reply :=
  if o.agentId ≠ agent then some (.refuse "not owner")
  else if o.fence ≠ fence then some (.fenceOut "stale fence")
  else none

/-- The write orbits of a task that fail the fence gate. -/
def staleWrites (writes : List Orbit) (agent : Option AgentId) (fence : Option ℕ) :
    List OrbitId :=
  let lapsed := (writes.filter fun o => o.state ≠ .HELD).map Orbit.orbitId
  if lapsed ≠ [] then lapsed
  else
    let foreign := (writes.filter fun o => agent ≠ none && agent ≠ some o.agentId).map
      Orbit.orbitId
    if fence ≠ none ∧ fence ≠ maxFence writes then
      foreign ++ (writes.map Orbit.orbitId).filter fun id => id ∉ foreign
    else foreign

/-- `_check_task_write_fence`; `none` when the caller passes. -/
def checkTaskWriteFence (s : Store) (task : TaskId) (agent : Option AgentId)
    (fence : Option ℕ) : Option Reply :=
  if agent = none ∧ fence = none then none
  else
    match s.getTask task with
    | none => some (.refuse "no such task")
    | some t =>
        if agent ≠ none ∧ t.agentId ≠ none ∧ t.agentId ≠ agent then some (.fenceOut "not owner")
        else
          match staleWrites (s.writesForTask task) agent fence with
          | [] => none
          | _ :: _ => some (.fenceOut "stale fence: write lease expired/released during work")

/-! ## The idempotency wrapper -/

/-- `_is_success`. -/
def Reply.isSuccess (r : Reply) : Bool :=
  r.ok ≠ some false && !r.fencedOut && !r.deadlock && !r.retry &&
    match r.state with
    | some (.orbit .DENIED) | some (.orbit .PENDING) | some (.task .PENDING) => false
    | _ => true

/-- What the body of a verb leaves for the wrapper: its reply, and whether the reply is
terminal or the verb goes on in another critical section. -/
structure Result where
  reply : Reply
  terminal : Bool := false
  deferred : Bool := false

/-- `cache.set`. -/
def Result.set (reply : Reply) : Result := { reply := reply }

/-- The verb of a request is `claim`. -/
def IdemArgs.isClaim : IdemArgs → Bool
  | .claim .. => true
  | _ => false

/-- The entry of `_idem`: the answer of a hit, or the store with the identifier reserved. -/
def enterIdem (s : Store) (id : RequestId) (agent : Option AgentId) (args : IdemArgs) :
    Except Fault (Reply ⊕ Store) :=
  if (s.orbitByRequest id).any fun o => !args.isClaim || agent ≠ some o.agentId then
    .ok (.inl (.refuse "idempotency_conflict"))
  else
    match s.getIdem id with
    | none => .ok (.inr (s.beginIdem id agent args))
    | some prior =>
        if prior.agentId ≠ agent ∨ prior.argHash ≠ args then
          .ok (.inl (.refuse "idempotency_conflict"))
        else
          match prior.status with
          | .DONE => .ok (.inl { prior.response.getD {} with replayed := true })
          | .RETRYABLE =>
              match s.reopenIdemExact id agent args with
              | none => .error (.runtimeError "idempotency ownership lost while reopening")
              | some s => .ok (.inr s)
          | .INFLIGHT => .ok (.inl { Reply.refuse "request_inflight" with retry := true })

/-- The exit of `_idem`. -/
def exitIdem (now : Time) (s : Store) (id : RequestId) (agent : Option AgentId) (args : IdemArgs)
    (r : Result) : Except Fault Store :=
  if r.deferred then .ok s
  else if r.terminal ∨ r.reply.isSuccess then
    match s.finishIdemExact id agent args r.reply now with
    | none => .error (.runtimeError "idempotency ownership lost while finishing")
    | some s => .ok s
  else .ok (s.clearIdemExact id agent args)

/-- `_idem`. -/
def withIdem (now : Time) (s : Store) (requestId : Option RequestId) (agent : Option AgentId)
    (args : IdemArgs) (body : Store → Except Fault (Store × Result)) :
    Except Fault (Store × Result) :=
  match requestId with
  | none => body s
  | some id => do
      match ← enterIdem s id agent args with
      | .inl reply => .ok (s, .set reply)
      | .inr s => do
          let r ← body s
          let s ← exitIdem now r.1 id agent args r.2
          .ok (s, r.2)

/-- `_complete_split_idem`, for the operation the response names. -/
def completeSplitIdem (now : Time) (s : Store) (requestId : Option RequestId)
    (agent : Option AgentId) (args : IdemArgs) (response : Reply)
    (operation : Option (AttemptId × String × ℕ)) : Except Fault (Store × Reply) :=
  match requestId with
  | none => .ok (s, response)
  | some id =>
      let owns := match operation with
        | none => true
        | some (attempt, owner, generation) =>
            (s.getIdem id).any fun r =>
              r.status = .INFLIGHT && r.operationId = some attempt &&
                r.ownerInstance = some owner && r.ownerGeneration = some generation
      if !owns then .ok (s, .fenceOut "split idempotency ownership lost")
      else if response.isSuccess then
        match s.finishIdemExact id agent args response now with
        | none => .error (.runtimeError "idempotency ownership lost while finishing")
        | some s => .ok (s, response)
      else .ok (s.clearIdemExact id agent args, response)

/-- `_finish_split_idem_terminal`. -/
def finishSplitIdemTerminal (now : Time) (s : Store) (requestId : Option RequestId)
    (agent : Option AgentId) (args : IdemArgs) (response : Reply) :
    Except Fault (Store × Reply) :=
  match requestId with
  | none => .ok (s, response)
  | some id =>
      match s.finishIdemExact id agent args response now with
      | none => .error (.runtimeError "idempotency ownership lost while terminalizing")
      | some s => .ok (s, response)

end Omd
