import Omd.Reconcile

/-!
# Flags, semaphores and barriers inside other transactions

The sweep and the reclaim of an agent touch the three synchronisation primitives: a lapsed
lease breaks the flags it backs and wakes their waiters, a freed permit goes to the next
waiter in line, and a barrier whose party died is broken or shrunk.  The verbs that own
the primitives are elsewhere; this module has the parts that run inside the others.
-/

namespace Omd

open Lib

/-! ## Flags -/

/-- `LATCH_RANK`. -/
def latchRank (value : String) : ℕ :=
  if value = "done" then 1 else if value = "merged" then 2 else 0

namespace Store

variable (s : Store)

/-- `get_flag_row`. -/
def getFlag (key : String) : Option Flag := Table.get Flag.key key s.flags

/-- An update of one row of `flags`. -/
def modifyFlag (key : String) (f : Flag → Flag) : Store :=
  { s with flags := Table.modify Flag.key key f s.flags }

/-- `set_flag`: of a row that exists only the value and its writer change. -/
def setFlag (key value : String) (setBy : Option AgentId) : Store :=
  match s.getFlag key with
  | none => { s with flags := s.flags ++ [{ key := key, value := value, setBy := setBy }] }
  | some _ => s.modifyFlag key fun f => { f with value := value, setBy := setBy }

/-- `upsert_flag`. -/
def upsertFlag (flag : Flag) : Store :=
  match s.getFlag flag.key with
  | none => { s with flags := s.flags ++ [flag] }
  | some _ => s.modifyFlag flag.key fun _ => flag

/-- `set_flag_waiter`. -/
def setFlagWaiter (id : ℕ) (state : FlagWaiterState) : Store :=
  let f : FlagWaiter → FlagWaiter := fun w => { w with state := state }
  { s with flagWaiters := Table.modify FlagWaiter.waiterId id f s.flagWaiters }

/-- `waiters_for_key`, the waiting ones. -/
def waitersForKey (key : String) : List FlagWaiter :=
  s.flagWaiters.filter fun w => w.key = key && w.state = .WAITING

/-- `ephemeral_flags_for_lease`. -/
def ephemeralFlagsForLease (lease : OrbitId) : List Flag :=
  s.flags.filter fun f =>
    f.flagType = .EPHEMERAL && f.leaseId = some lease && f.status = .LIVE

end Store

/-- `_flag_satisfied`. -/
def flagSatisfied (flag : Option Flag) (want : String) : Bool :=
  match flag with
  | none => false
  | some f =>
      if f.status ≠ .LIVE then false
      else f.value = want || (0 < latchRank want && latchRank want ≤ f.rank)

/-- `_flag_broken`. -/
def flagBroken (flag : Option Flag) : Bool :=
  match flag with
  | none => false
  | some f => f.status = .BROKEN

/-- `_wake_flag_waiters`. -/
def wakeFlagWaiters (s : Store) (key : String) : Store :=
  let flag := s.getFlag key
  (s.waitersForKey key).foldl (fun s w =>
    if flagBroken flag then s.setFlagWaiter w.waiterId .BROKEN
    else if flagSatisfied flag w.wantValue then s.setFlagWaiter w.waiterId .SATISFIED
    else s) s

/-- `_break_ephemeral_flags_for_lease`. -/
def breakEphemeralFlagsForLease (s : Store) (lease : OrbitId) : Store :=
  (s.ephemeralFlagsForLease lease).foldl (fun s f =>
    wakeFlagWaiters
      (s.modifyFlag f.key fun r => { r with status := .BROKEN, epoch := f.epoch + 1 }) f.key) s

/-- The flag under which a stale read is announced. -/
def readStaleKey (orbit : OrbitId) : String := "read_stale:" ++ toString orbit

/-- `_clear_read_stale_signal`: the announcement of a read that ended is withdrawn. -/
def clearReadStaleSignal (s : Store) (orbit : OrbitId) : Store :=
  match s.getFlag (readStaleKey orbit) with
  | none => s
  | some f =>
      if f.status = .LIVE then
        wakeFlagWaiters
          (s.modifyFlag f.key fun r => { r with status := .CLEARED, epoch := f.epoch + 1 }) f.key
      else s

/-! ## Semaphores -/

namespace Store

variable (s : Store)

/-- `get_semaphore`. -/
def getSemaphore (sem : String) : Option Semaphore := Table.get Semaphore.semId sem s.semaphores

/-- `set_sem_waiter`. -/
def setSemWaiter (id : ℕ) (f : SemWaiter → SemWaiter) : Store :=
  { s with semWaiters := Table.modify SemWaiter.waiterId id f s.semWaiters }

/-- `waiting_sem_waiters`: priority descending, then the order of arrival. -/
def waitingSemWaiters (sem : String) : List SemWaiter :=
  (s.semWaiters.filter fun w => w.semId = sem && w.state = .WAITING).insertionSort fun a b =>
    b.priority < a.priority ∨ a.priority = b.priority ∧ a.enqueuedSeq ≤ b.enqueuedSeq

/-- `active_permit_for`. -/
def activePermitFor (sem : String) (agent : AgentId) : Option Orbit :=
  (s.activePermits sem).find? fun o => o.agentId = agent

end Store

/-- `_grant_permit`; the permit is the row with the old `uuid`. -/
def grantPermit (cfg : Cfg) (now : Time) (s : Store) (agent : AgentId) (sem : String)
    (ttl : Option ℚ) : Store :=
  let s := s.bumpFence
  let permit := s.uuid
  s.bumpUuid.addOrbit
    { orbitId := permit
      agentId := agent
      state := .HELD
      fence := some s.fence
      createdAt := now
      expiresAt := some (now + ttl.getD (cfg.agentTtl.getD 90))
      reason := "sem_permit:" ++ sem
      kind := .sem_permit
      resourceKey := some sem }

/-- The loop of `_promote_sem_waiters`. -/
def promoteSemWaitersLoop (cfg : Cfg) (now : Time) (sem : Semaphore) :
    List SemWaiter → Store → Store
  | [], s => s
  | w :: ws, s =>
      if sem.maxPermits ≤ (s.activePermits sem.semId).length then s
      else
        match s.activePermitFor sem.semId w.agentId with
        | some permit =>
            promoteSemWaitersLoop cfg now sem ws
              (s.setSemWaiter w.waiterId fun r =>
                { r with state := .GRANTED, permitId := some permit.orbitId })
        | none =>
            promoteSemWaitersLoop cfg now sem ws
              ((grantPermit cfg now s w.agentId sem.semId w.ttl).setSemWaiter w.waiterId fun r =>
                { r with state := .GRANTED, permitId := some s.uuid })

/-- `_promote_sem_waiters`. -/
def promoteSemWaiters (cfg : Cfg) (now : Time) (s : Store) (sem : String) : Store :=
  match s.getSemaphore sem with
  | none => s
  | some row => promoteSemWaitersLoop cfg now row (s.waitingSemWaiters sem) s

/-! ## Barriers -/

namespace Store

variable (s : Store)

/-- `get_barrier`. -/
def getBarrier (id : BarrierId) : Option Barrier := Table.get Barrier.barrierId id s.barriers

/-- `set_barrier`. -/
def setBarrier (id : BarrierId) (f : Barrier → Barrier) : Store :=
  { s with barriers := Table.modify Barrier.barrierId id f s.barriers }

/-- `barrier_parties`, ordered by task. -/
def partiesOf (id : BarrierId) (generation : ℕ) : List BarrierParty :=
  (s.barrierParties.filter fun p => p.barrierId = id && p.generation = generation).insertionSort
    fun a b => a.taskId ≤ b.taskId

/-- `barriers_with_task`. -/
def barriersWithTask (task : TaskId) : List Barrier :=
  s.barriers.filter fun b =>
    (b.state = .ARMED || b.state = .TRIPPING) &&
      s.barrierParties.any fun p =>
        p.barrierId = b.barrierId && p.generation = b.generation && p.taskId = task

end Store

/-- The largest fence of some rows. -/
def maxFence (rows : List Orbit) : Option ℕ := (rows.filterMap Orbit.fence).max?

/-- `_party_write_fence`. -/
def partyWriteFence (s : Store) (task : TaskId) : Option ℕ :=
  maxFence ((s.writesForTask task).filter fun o => o.state = .HELD)

/-- `_task_dependents`. -/
def taskDependents (s : Store) (task : TaskId) : List TaskId :=
  (s.tasks.filter fun t => t.taskId ≠ task && task ∈ t.deps).map Task.taskId

/-- `_party_alive`. -/
def partyAlive (s : Store) (p : BarrierParty) : Bool :=
  match s.getTask p.taskId with
  | none => false
  | some t =>
      if t.state = .ABORTED ∨ t.state = .POISONED then false
      else if t.state = .MERGED then true
      else
        match partyWriteFence s p.taskId with
        | none => false
        | some cur =>
            !(p.arrived && p.arriveFence ≠ none && t.state ≠ .CONNECTING &&
              p.arriveFence ≠ some cur)

/-- `_break_barrier`. -/
def breakBarrier (s : Store) (b : Barrier) (reason : String) : Except Fault Store :=
  if b.state = .BROKEN ∨ b.state = .TRIPPED ∨ b.state = .CONSUMED then .ok s
  else do
    let state ← advanceBarrier b.state .break_
    .ok (s.setBarrier b.barrierId fun r =>
      { r with state := state, breakReason := some reason })

/-- `_live_parties`, the dead ones. -/
def deadParties (s : Store) (b : Barrier) : List BarrierParty :=
  (s.partiesOf b.barrierId b.generation).filter fun p => !partyAlive s p

/-- `_live_parties`, the live ones. -/
def liveParties (s : Store) (b : Barrier) : List BarrierParty :=
  (s.partiesOf b.barrierId b.generation).filter fun p => partyAlive s p

/-- The parties of a shrunk barrier, and its count. -/
def shrinkBarrier (s : Store) (b : Barrier) : Store :=
  let dead := (deadParties s b).map BarrierParty.taskId
  let live := liveParties s b
  { s with barrierParties := s.barrierParties.filter fun p =>
      !(p.barrierId = b.barrierId && p.generation = b.generation && p.taskId ∈ dead) }
    |>.setBarrier b.barrierId fun r => { r with parties := live.length }

/-- One task of a trip plan, with the fence it arrived with. -/
structure TripStep where
  taskId : TaskId
  expectedFence : Option ℕ
  deriving DecidableEq, Repr

/-- The end of `_barrier_eval`: the deadline, then the trip. -/
def barrierEvalLive (now : Time) (canTrip : Bool) (s : Store) (b : Barrier) :
    Except Fault (Store × Option (List TripStep)) :=
  let live := liveParties s b
  if reached b.deadlineAt now ∧ live.any (fun p => !p.arrived) then do
    let s ← breakBarrier s b "timeout"
    .ok (s, none)
  else if canTrip ∧ live ≠ [] ∧ live.all (fun p => p.arrived) then do
    let state ← advanceBarrier .ARMED .fill
    let s := s.setBarrier b.barrierId fun r => { r with state := state }
    let plan := (live.filter fun p => (s.getTask p.taskId).map Task.state ≠ some .MERGED).map
      fun p => ⟨p.taskId, p.arriveFence⟩
    .ok (s, some plan)
  else .ok (s, none)

/-- `_barrier_eval`. -/
def barrierEval (now : Time) (s : Store) (id : BarrierId) (canTrip : Bool := false) :
    Except Fault (Store × Option (List TripStep)) :=
  match s.getBarrier id with
  | none => .ok (s, none)
  | some b =>
      if b.state ≠ .ARMED then .ok (s, none)
      else
        let dead := deadParties s b
        if dead = [] then barrierEvalLive now canTrip s b
        else if b.policy = .shrink ∧ dead.all (fun d => (taskDependents s d.taskId).isEmpty) then
          barrierEvalLive now canTrip (shrinkBarrier s b) b
        else do
          let s ← breakBarrier s b "participant_dead"
          .ok (s, none)

/-- `_barrier_eval` of several barriers, none of which may trip. -/
def barrierEvalAll (now : Time) (ids : List BarrierId) (s : Store) : Except Fault Store :=
  ids.foldlM (fun s id => do
    let r ← barrierEval now s id
    .ok r.1) s

end Omd
