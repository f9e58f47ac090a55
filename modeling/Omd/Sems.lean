import Omd.Idem

/-!
# Semaphores

A permit is a lease, so a slot is free as soon as the lease of its holder ends; what is
available is the number of slots less the number of held permits.  A request that finds no
slot, or somebody in line before it, waits in line, and whatever frees a slot hands it to
the head of the line.
-/

namespace Omd

open Lib

namespace Store

variable (s : Store)

/-- `add_semaphore`: of a semaphore that exists the number of slots changes. -/
def addSemaphore (sem : String) (maxPermits : ℕ) : Store :=
  match s.getSemaphore sem with
  | none => { s with semaphores := s.semaphores ++ [⟨sem, maxPermits⟩] }
  | some _ =>
      let f : Semaphore → Semaphore := fun r => { r with maxPermits := maxPermits }
      { s with semaphores := Table.modify Semaphore.semId sem f s.semaphores }

/-- `add_sem_waiter`; the waiter is the row with the old `uuid`. -/
def addSemWaiter (sem : String) (agent : AgentId) (ttl : Option ℚ) (priority seq : ℤ)
    (deadline : Time) : Store :=
  { s.bumpUuid with semWaiters :=
      s.semWaiters ++ [{ waiterId := s.uuid, semId := sem, agentId := agent, ttl := ttl,
                         priority := priority, enqueuedSeq := seq, deadline := deadline }] }

/-- `get_sem_waiter`. -/
def getSemWaiter (id : ℕ) : Option SemWaiter := Table.get SemWaiter.waiterId id s.semWaiters

end Store

/-- `_has_earlier_waiter`. -/
def hasEarlierWaiter (s : Store) (sem : String) (priority : ℤ) (agent : AgentId) : Bool :=
  (s.waitingSemWaiters sem).any fun w =>
    w.agentId ≠ agent && (priority < w.priority || w.priority = priority)

/-- `sem_declare`. -/
def semDeclare (cfg : Cfg) (now : Time) (s : Store) (sem : String) (maxPermits : ℤ) :
    Store × Reply :=
  if maxPermits < 1 then (s, .refuse "max_permits must be >= 1")
  else
    (promoteSemWaiters cfg now (s.addSemaphore sem maxPermits.toNat) sem, { ok := some true })

/-! ## Acquiring -/

/-- The arguments of `acquire`. -/
structure AcquireArgs where
  agentId : AgentId
  sem : String
  ttl : Option ℚ := some 300
  noWait : Bool := false
  priority : ℤ := 0
  requestId : Option RequestId := none
  bailEpoch : Option ℕ := none

/-- The arguments the digest of the request covers. -/
def AcquireArgs.idemArgs (a : AcquireArgs) : IdemArgs :=
  .acquire a.agentId a.sem a.ttl a.noWait a.priority

/-- The reply about a permit. -/
def acquiredReply (permit : OrbitId) (fence : Option ℕ) (reuse : Bool := false) : Reply :=
  { ok := some true
    state := some .ACQUIRED
    orbitId := some permit
    fence := fence
    dedup := reuse }

/-- A request that has to wait. -/
def acquireWait (cfg : Cfg) (now : Time) (s : Store) (a : AcquireArgs) : Store × Result :=
  let s := s.bumpSeq
  (s.addSemWaiter a.sem a.agentId a.ttl a.priority s.seq
      (now + a.ttl.getD (cfg.agentTtl.getD 90)),
    .set { ok := some true, state := some .WAITING, waiter := some s.uuid })

/-- The decision of `acquire`. -/
def acquireDecide (cfg : Cfg) (now : Time) (s : Store) (a : AcquireArgs) (sem : Semaphore) :
    Store × Result :=
  match s.activePermitFor a.sem a.agentId with
  | some permit => (s, .set (acquiredReply permit.orbitId permit.fence true))
  | none =>
      if (s.activePermits a.sem).length < sem.maxPermits ∧
          !hasEarlierWaiter s a.sem a.priority a.agentId then
        (grantPermit cfg now s a.agentId a.sem a.ttl,
          .set (acquiredReply s.uuid (some (s.fence + 1))))
      else if a.noWait then
        (s, .set { Reply.refuse "no permits available" with state := some .FAIL })
      else acquireWait cfg now s a

/-- The body of `acquire`. -/
def acquireBody (cfg : Cfg) (now : Time) (s : Store) (a : AcquireArgs) :
    Except Fault (Store × Result) := do
  let s ← sweepInline cfg now s
  match checkAlive s (some a.agentId) a.bailEpoch with
  | some dead => .ok (s, .set dead)
  | none =>
      match s.getSemaphore a.sem with
      | none => .ok (s, .set (.refuse "no such semaphore"))
      | some sem => .ok (acquireDecide cfg now (s.upsertAgent a.agentId now) a sem)

/-- `acquire`. -/
def acquire (cfg : Cfg) (now : Time) (s : Store) (a : AcquireArgs) :
    Except Fault (Store × Reply) := do
  let r ← withIdem now s a.requestId (some a.agentId) a.idemArgs fun s =>
    acquireBody cfg now s a
  .ok (r.1, r.2.reply)

/-- The reply about a waiter whose permit was granted. -/
def grantedReply (s : Store) (w : SemWaiter) : Reply :=
  { ok := some true
    state := some .ACQUIRED
    orbitId := w.permitId
    fence := (w.permitId.bind s.getOrbit).bind Orbit.fence }

/-- What a poll reports about a waiter. -/
def SemWaiterState.reply : SemWaiterState → ReplyState
  | .WAITING => .WAITING
  | .GRANTED => .ACQUIRED
  | .CANCELLED => .WAITER_CANCELLED
  | .TIMEOUT => .TIMEOUT

/-- `acquire_poll`. -/
def acquirePoll (cfg : Cfg) (now : Time) (s : Store) (waiter : ℕ) :
    Except Fault (Store × Reply) :=
  match s.getSemWaiter waiter with
  | none => .ok (s, .refuse "no such waiter")
  | some w =>
      if w.state = .GRANTED then .ok (s, grantedReply s w)
      else if w.state ≠ .WAITING then
        .ok (s, { ok := some (w.state ≠ .CANCELLED), state := some w.state.reply })
      else do
        let s ← sweepInline cfg now s
        let s := promoteSemWaiters cfg now s w.semId
        match s.getSemWaiter waiter with
        | none => .error (.typeError "'NoneType' object is not subscriptable")
        | some w =>
            if w.state = .GRANTED then .ok (s, grantedReply s w)
            else if w.deadline ≤ now then
              .ok (s.setSemWaiter waiter fun r => { r with state := .TIMEOUT },
                { ok := some false, state := some .TIMEOUT })
            else .ok (s, { ok := some true, state := some .WAITING, waiter := some waiter })

/-! ## Releasing -/

/-- The body of `sem_release`. -/
def semReleaseBody (cfg : Cfg) (now : Time) (s : Store) (permit : OrbitId) (agent : AgentId)
    (fence : Option ℕ) (bailEpoch : Option ℕ) : Except Fault (Store × Result) :=
  match checkAlive s (some agent) bailEpoch with
  | some dead => .ok (s, .set dead)
  | none =>
      match s.getOrbit permit with
      | none => .ok (s, .set (.refuse "no such permit"))
      | some p =>
          if p.kind ≠ .sem_permit then .ok (s, .set (.refuse "no such permit"))
          else if p.state = .RELEASED ∨ p.state = .EXPIRED then
            .ok (s, .set { ok := some true, noop := true, state := some (.orbit p.state) })
          else if p.state ≠ .HELD then .ok (s, .set (.refuse "not HELD"))
          else
            match checkOwner p agent fence with
            | some bad => .ok (s, .set bad)
            | none => do
                let state ← advanceOrbit .HELD .release
                let s := s.setOrbit permit fun r =>
                  { r with state := state, releasedAt := some now }
                .ok (promoteSemWaiters cfg now s (p.resourceKey.getD ""),
                  .set { ok := some true })

/-- `sem_release`. -/
def semRelease (cfg : Cfg) (now : Time) (s : Store) (permit : OrbitId) (agent : AgentId)
    (fence : Option ℕ) (requestId : Option RequestId) (bailEpoch : Option ℕ) :
    Except Fault (Store × Reply) := do
  let r ← withIdem now s requestId (some agent) (.sem_release permit fence) fun s =>
    semReleaseBody cfg now s permit agent fence bailEpoch
  .ok (r.1, r.2.reply)

/-- `sem_status`. -/
def semStatus (cfg : Cfg) (now : Time) (s : Store) (sem : String) :
    Except Fault (Store × Reply) := do
  let s ← sweepInline cfg now s
  .ok (s, if (s.getSemaphore sem).isNone then .refuse "no such semaphore" else { ok := some true })

end Omd
