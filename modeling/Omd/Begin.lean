import Omd.Barriers

/-!
# Begin

`begin` is one call made of several critical sections and of reads outside them: it
declares the task, waits for its dependencies, claims all its orbits in one transaction,
reads the task, makes it `READY` when the read says so, and starts it.  Each is a cut of
its own, and other verbs may run between any two.
-/

namespace Omd

open Lib

/-- The arguments of `begin`. -/
structure BeginArgs where
  taskId : TaskId
  agentId : AgentId
  writes : List String
  reads : List String := []
  shared : List String := []
  deps : Option (List TaskId) := none
  priority : ℤ := 0
  ttl : ℚ := 600
  livenessTtl : Option ℚ := none
  requestId : Option String := none
  bailEpoch : Option ℕ := none
  deriving DecidableEq

/-- One member of the batch: its mode, its paths and the suffix of its request. -/
structure Spec where
  mode : Mode
  paths : List String
  suffix : String
  deriving DecidableEq, Repr

/-- An orbit the batch holds. -/
structure Acquired where
  mode : Mode
  orbitId : OrbitId
  fence : Option ℕ
  deriving DecidableEq, Repr

namespace BeginArgs

variable (b : BeginArgs)

/-- `_rid`. -/
def rid (suffix : String) : Option RequestId :=
  match b.requestId with
  | none => none
  | some id => if id = "" then none else some (id ++ ":" ++ suffix)

/-- `specs`. -/
def specs : List Spec :=
  (if b.writes = [] then [] else [⟨.write, b.writes, "claim"⟩]) ++
    if b.shared = [] then [] else [⟨.shared, b.shared, "claim-shared"⟩]

/-- The intent key of a member; the paths are sorted only. -/
def intentKey (spec : Spec) : IntentKey :=
  ⟨b.agentId, spec.paths.insertionSort (· ≤ ·), spec.mode, some b.taskId⟩

/-- The claim of a member. -/
def claimArgs (spec : Spec) : ClaimArgs where
  agentId := b.agentId
  pathspec := spec.paths
  mode := spec.mode
  ttl := b.ttl
  taskId := some b.taskId
  priority := b.priority
  requestId := b.rid spec.suffix
  bailEpoch := b.bailEpoch

/-- The row of a member that the agent has already. -/
def ownIntent (s : Store) (spec : Spec) : Option Orbit :=
  (s.orbitByIntent (b.intentKey spec)).filter fun dup => dup.agentId = b.agentId

/-- `_legacy_resume_intents_live`. -/
def legacyResumeLive (cfg : Cfg) (s : Store) : Bool :=
  b.specs ≠ [] && b.specs.all fun spec =>
    (b.ownIntent s spec).any fun dup =>
      dup.priority = b.priority &&
        cfg.policy.acceptsBasePriority b.priority dup.policyVersion

end BeginArgs

/-- The validation of `begin`: a refusal, or whether the call resumes orbits of an older
policy. -/
def beginValidate (cfg : Cfg) (s : Store) (b : BeginArgs) : Reply ⊕ Bool :=
  if b.ttl ≤ 0 then .inl (.refuse "invalid_ttl")
  else if b.livenessTtl.any fun t => t ≤ 0 then .inl (.refuse "invalid_liveness_ttl")
  else if b.livenessTtl.any fun t => b.ttl < t then
    .inl (.refuse "liveness_exceeds_orbit_ttl")
  else if cfg.policy.acceptsBasePriority b.priority then .inr false
  else if b.legacyResumeLive cfg s then .inr true
  else .inl (.refuse "invalid_priority")

/-- The declaration `begin` makes. -/
def BeginArgs.declareArgs (b : BeginArgs) : DeclareArgs where
  taskId := b.taskId
  writes := b.writes
  reads := b.reads
  deps := b.deps
  shared := b.shared
  priority := b.priority

/-! ## The batch -/

/-- A batch that stopped. -/
def batchBlocked (orbitId : Option OrbitId) (state : Option ReplyState)
    (conflicts : List OrbitId) : Reply :=
  { ok := some false, orbitId := orbitId, state := state, conflicts := conflicts }

/-- The preflight of the batch: it ends with the orbits that are held already, or with the
reply about the member that cannot be granted, which is queued. -/
def beginPreflight (cfg : Cfg) (now : Time) (s : Store) (b : BeginArgs) :
    List Spec → ℤ → List Acquired → Except Fault ((Store × Reply) ⊕ List Acquired)
  | [], _, claims => .ok (.inr claims)
  | spec :: specs, offset, claims =>
      match b.ownIntent s spec with
      | some dup =>
          if dup.state ≠ .HELD then
            .ok (.inl (s, batchBlocked (some dup.orbitId) (some (.orbit dup.state)) []))
          else
            beginPreflight cfg now s b specs (offset + 1)
              (claims ++ [⟨spec.mode, dup.orbitId, dup.fence⟩])
      | none => do
          let d ← admissionDecision cfg s spec.paths spec.mode b.priority
            (some (s.seq + offset)) none (some cfg.policy.version) (some now) now
          if d.grantable then beginPreflight cfg now s b specs (offset + 1) claims
          else do
            let r ← claim cfg now s (b.claimArgs spec) (some now)
            .ok (.inl (r.1, batchBlocked r.2.orbitId r.2.state r.2.conflicts))

/-- The acquisition of the members that are not held yet.  `none` is a member that was
refused, with the reply about it. -/
def beginAcquire (cfg : Cfg) (now : Time) (b : BeginArgs) :
    List Spec → Store → List Acquired → Except Fault (Reply ⊕ (Store × List Acquired))
  | [], s, claims => .ok (.inr (s, claims))
  | spec :: specs, s, claims =>
      if claims.any fun c => c.mode = spec.mode then beginAcquire cfg now b specs s claims
      else do
        let r ← claim cfg now s (b.claimArgs spec) (some now)
        match r.2.state, r.2.orbitId with
        | some (.orbit .HELD), some id =>
            beginAcquire cfg now b specs r.1 (claims ++ [⟨spec.mode, id, r.2.fence⟩])
        | state, id => .ok (.inl (batchBlocked id state r.2.conflicts))

/-- The batch transaction.  A member that is refused rolls back to the savepoint. -/
def beginBatch (cfg : Cfg) (now : Time) (s : Store) (b : BeginArgs) (legacyResume : Bool) :
    Except Fault (Store × (Reply ⊕ List Acquired)) := do
  let s ← sweepInline cfg now s
  if legacyResume ∧ !b.legacyResumeLive cfg s then
    .ok (s, .inl (.refuse "invalid_priority"))
  else do
    match ← beginPreflight cfg now s b b.specs 1 [] with
    | .inl (s, reply) => .ok (s, .inl reply)
    | .inr held => do
        match ← beginAcquire cfg now b b.specs s held with
        | .inl reply => .ok (s, .inl reply)
        | .inr (s, claims) => .ok (s, .inr claims)

/-! ## The cuts -/

/-- Where a `begin` is. -/
inductive BeginPc
  | declare (legacyResume : Bool)
  | deps (legacyResume : Bool) (rest unmet : List TaskId)
  | liveness (legacyResume : Bool)
  | batch (legacyResume : Bool)
  | read (claims : List Acquired)
  | ready (claims : List Acquired) (state : TaskState)
  | start (claims : List Acquired)
  | final (claims : List Acquired) (started : Reply)
  | ended (reply : Reply)

/-- The transition to the batch, with or without a declared window. -/
def BeginArgs.afterDeps (b : BeginArgs) (legacyResume : Bool) : BeginPc :=
  if b.livenessTtl.isSome then .liveness legacyResume else .batch legacyResume

/-- The write of `READY`.  It goes by the state that was read. -/
def beginReady (s : Store) (task : TaskId) (state : TaskState) : Except Fault Store := do
  let next ← advanceTask state .ready
  .ok (s.setTask task fun r => { r with state := next })

/-- The reply of a `begin` that started. -/
def beginReply (s : Store) (b : BeginArgs) (claims : List Acquired) (started : Reply) : Reply :=
  { started with
    ok := some ((s.getTask b.taskId).map Task.state = some .IN_ORBIT)
    fence := (claims.filterMap Acquired.fence).max?
    orbits := claims.map Acquired.orbitId
    bailEpoch := (s.getAgent b.agentId).map Agent.bailEpoch }

/-- One cut of `begin`. -/
def beginStep (cfg : Cfg) (env : Env) (s : Store) (b : BeginArgs) :
    BeginPc → Except Fault (Store × BeginPc)
  | .declare legacy =>
      let r := declare env.now s b.declareArgs
      if r.2.ok = some false then .ok (r.1, .ended r.2)
      else .ok (r.1, .deps legacy (b.deps.getD []) [])
  | .deps legacy [] unmet =>
      if unmet ≠ [] then .ok (s, .ended { ok := some false, tasks := unmet })
      else .ok (s, b.afterDeps legacy)
  | .deps legacy (d :: rest) unmet =>
      let met := (s.getTask d).map Task.state = some .MERGED
      .ok (s, .deps legacy rest (if met then unmet else unmet ++ [d]))
  | .liveness legacy =>
      let r := heartbeat cfg env.now s b.agentId b.livenessTtl
      if r.2.ok = some false then .ok (r.1, .ended r.2) else .ok (r.1, .batch legacy)
  | .batch legacy => do
      let r ← beginBatch cfg env.now s b legacy
      match r.2 with
      | .inl reply => .ok (r.1, .ended reply)
      | .inr claims => .ok (r.1, .read claims)
  | .read claims =>
      match s.getTask b.taskId with
      | none => .error (.typeError "'NoneType' object is not subscriptable")
      | some t =>
          if t.state = .PENDING ∨ t.state = .BLOCKED then .ok (s, .ready claims t.state)
          else .ok (s, .start claims)
  | .ready claims state => do
      let s ← beginReady s b.taskId state
      .ok (s, .start claims)
  | .start claims => do
      let r ← start env s b.taskId b.agentId (b.rid "start") b.bailEpoch
      if r.2.ok = some false then .ok (r.1, .ended r.2) else .ok (r.1, .final claims r.2)
  | .final claims started => .ok (s, .ended (beginReply s b claims started))
  | .ended reply => .ok (s, .ended reply)

end Omd
