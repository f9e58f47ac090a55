import Omd.Idem

/-!
# Flags

A flag is a fact or a signal.  A latch is a fact: it has no owner and its rank never goes
down.  An ephemeral flag is a signal of an agent: a lease of the agent backs it, and when
the lease ends the flag is broken or cleared.  Waiting for a flag registers a waiter, which
the writers of the flag wake and which a poll reads.
-/

namespace Omd

open Lib

namespace Store

variable (s : Store)

/-- `set_flag_status`. -/
def setFlagStatus (key : String) (status : FlagStatus) (epoch : ℕ) : Store :=
  s.modifyFlag key fun f => { f with status := status, epoch := epoch }

/-- `add_flag_waiter`; the waiter is the row with the old `uuid`. -/
def addFlagWaiter (agent : Option AgentId) (key want : String) (deadline : Time) : Store :=
  { s.bumpUuid with flagWaiters :=
      s.flagWaiters ++ [{ waiterId := s.uuid, agentId := agent, key := key, wantValue := want,
                          deadline := deadline }] }

/-- `get_flag_waiter`. -/
def getFlagWaiter (id : ℕ) : Option FlagWaiter := Table.get FlagWaiter.waiterId id s.flagWaiters

end Store

/-! ## Setting -/

/-- The rank of a latch that is set again. -/
def nextRank (value : String) (flag : Option Flag) : ℕ :=
  let rank := (flag.map Flag.rank).getD 0
  if latchRank value = 0 then rank else max (latchRank value) rank

/-- The write of `_flag_set_latch`. -/
def latchFlag (s : Store) (key value : String) (agent : Option AgentId) (flag : Option Flag)
    (epoch : ℕ) : Store × Result :=
  let s := s.upsertFlag
    { key := key, value := value, setBy := agent, epoch := epoch, rank := nextRank value flag }
  (wakeFlagWaiters s key, .set { ok := some true })

/-- `_flag_set_latch`. -/
def flagSetLatch (s : Store) (key value : String) (agent : Option AgentId) : Store × Result :=
  match s.getFlag key with
  | none => latchFlag s key value agent none 0
  | some f =>
      if f.flagType = .EPHEMERAL then (s, .set (.refuse "flag is EPHEMERAL, not LATCH"))
      else if f.status = .LIVE ∧ f.value = value then (s, .set { ok := some true, noop := true })
      else if 0 < latchRank value ∧ 0 < f.rank ∧ latchRank value < f.rank then
        (s, .set (.refuse "monotonic downgrade rejected"))
      else latchFlag s key value agent (some f) (f.epoch + 1)

/-- The lease that backs an ephemeral flag from now on: the one it has, or a new one, which
is the row with the old `uuid`. -/
def backFlag (cfg : Cfg) (now : Time) (s : Store) (key : String) (agent : AgentId)
    (flag : Option Flag) (ttl : Option ℚ) : Store × OrbitId :=
  match (flag.filter fun f => f.status = .LIVE).bind Flag.leaseId with
  | none =>
      let s := s.bumpFence
      let lease := s.uuid
      (s.bumpUuid.addOrbit
        { orbitId := lease
          agentId := agent
          state := .HELD
          fence := some s.fence
          createdAt := now
          expiresAt := some (now + ttl.getD (cfg.agentTtl.getD 90))
          reason := "flag_ephemeral:" ++ key
          kind := .flag_ephemeral
          resourceKey := some key }, lease)
  | some lease =>
      match ttl with
      | none => (s, lease)
      | some t => (s.setOrbit lease fun r => { r with expiresAt := some (now + t) }, lease)

/-- `_flag_set_ephemeral`. -/
def flagSetEphemeral (cfg : Cfg) (now : Time) (s : Store) (key value : String)
    (agent : Option AgentId) (ttl : Option ℚ) : Store × Result :=
  match agent with
  | none => (s, .set (.refuse "EPHEMERAL flag requires owner agent"))
  | some a =>
      let flag := s.getFlag key
      let s := s.upsertAgent a now
      if flag.any fun f => f.flagType = .LATCH then
        (s, .set (.refuse "flag is LATCH, not EPHEMERAL"))
      else if flag.any fun f =>
          f.status = .LIVE && f.ownerAgent ≠ none && f.ownerAgent ≠ some a then
        (s, .set (.refuse "not flag owner"))
      else
        let r := backFlag cfg now s key a flag ttl
        let epoch := match flag with
          | none => 0
          | some f => f.epoch + 1
        let s := r.1.upsertFlag
          { key := key
            value := value
            setBy := some a
            flagType := .EPHEMERAL
            epoch := epoch
            ownerAgent := some a
            leaseId := some r.2 }
        (wakeFlagWaiters s key, .set { ok := some true, orbitId := some r.2 })

/-- The body of `flag_set`. -/
def flagSetBody (cfg : Cfg) (now : Time) (s : Store) (key value : String)
    (agent : Option AgentId) (type : FlagType) (ttl : Option ℚ) (bailEpoch : Option ℕ) :
    Store × Result :=
  match checkAlive s agent bailEpoch with
  | some dead => (s, .set dead)
  | none =>
      match type with
      | .EPHEMERAL => flagSetEphemeral cfg now s key value agent ttl
      | .LATCH => flagSetLatch s key value agent

/-- `flag_set`. -/
def flagSet (cfg : Cfg) (now : Time) (s : Store) (key value : String) (agent : Option AgentId)
    (type : FlagType) (ttl : Option ℚ) (requestId : Option RequestId) (bailEpoch : Option ℕ) :
    Except Fault (Store × Reply) := do
  let r ← withIdem now s requestId agent (.flag_set key value (type = .EPHEMERAL)) fun s =>
    .ok (flagSetBody cfg now s key value agent type ttl bailEpoch)
  .ok (r.1, r.2.reply)

/-! ## Clearing -/

/-- The end of a lease by its owner. -/
def releaseLease (now : Time) (s : Store) (lease : OrbitId) : Except Fault Store :=
  match s.getOrbit lease with
  | none => .ok s
  | some o =>
      if o.state = .HELD then do
        let state ← advanceOrbit .HELD .release
        .ok (s.setOrbit lease fun r => { r with state := state, releasedAt := some now })
      else .ok s

/-- The body of `flag_clear`. -/
def flagClearBody (now : Time) (s : Store) (key : String) (agent : Option AgentId)
    (bailEpoch : Option ℕ) : Except Fault (Store × Result) :=
  match checkAlive s agent bailEpoch with
  | some dead => .ok (s, .set dead)
  | none =>
      match s.getFlag key with
      | none => .ok (s, .set { ok := some true, noop := true })
      | some f =>
          if f.flagType ≠ .EPHEMERAL then
            .ok (s, .set (.refuse "LATCH flag cannot be cleared"))
          else if f.status ≠ .LIVE then .ok (s, .set { ok := some true, noop := true })
          else if agent ≠ none ∧ f.ownerAgent ≠ none ∧ f.ownerAgent ≠ agent then
            .ok (s, .set (.refuse "not flag owner"))
          else do
            let s ← match f.leaseId with
              | none => .ok s
              | some lease => releaseLease now s lease
            let s := s.setFlagStatus key .CLEARED (f.epoch + 1)
            .ok (wakeFlagWaiters s key, .set { ok := some true })

/-- `flag_clear`. -/
def flagClear (now : Time) (s : Store) (key : String) (agent : Option AgentId)
    (requestId : Option RequestId) (bailEpoch : Option ℕ) : Except Fault (Store × Reply) := do
  let r ← withIdem now s requestId agent (.flag_clear key) fun s =>
    flagClearBody now s key agent bailEpoch
  .ok (r.1, r.2.reply)

/-! ## Waiting -/

/-- `flag_wait`. -/
def flagWait (now : Time) (s : Store) (key want : String) (timeout : Option ℚ)
    (agent : Option AgentId) : Store × Reply :=
  match timeout with
  | none => (s, .refuse "timeout required (no indefinite wait)")
  | some t =>
      if flagBroken (s.getFlag key) then
        (s, { state := some .FLAG_BROKEN, reason := some "producer_dead" })
      else if flagSatisfied (s.getFlag key) want then (s, { state := some .SATISFIED })
      else
        (s.addFlagWaiter agent key want (now + t),
          { state := some .WAITING, waiter := some s.uuid })

/-- What a poll reports about a waiter that was woken. -/
def FlagWaiterState.reply : FlagWaiterState → ReplyState
  | .WAITING => .WAITING
  | .SATISFIED => .SATISFIED
  | .BROKEN => .FLAG_BROKEN
  | .TIMEOUT => .TIMEOUT

/-- `flag_wait_poll`. -/
def flagWaitPoll (cfg : Cfg) (now : Time) (s : Store) (waiter : ℕ) :
    Except Fault (Store × Reply) :=
  match s.getFlagWaiter waiter with
  | none => .ok (s, .refuse "no such waiter")
  | some w =>
      if w.state ≠ .WAITING then .ok (s, { state := some w.state.reply })
      else do
        let s ← sweepInline cfg now s
        if flagBroken (s.getFlag w.key) then
          .ok (s.setFlagWaiter waiter .BROKEN, { state := some .FLAG_BROKEN })
        else if flagSatisfied (s.getFlag w.key) w.wantValue then
          .ok (s.setFlagWaiter waiter .SATISFIED, { state := some .SATISFIED })
        else if w.deadline ≤ now then
          .ok (s.setFlagWaiter waiter .TIMEOUT, { state := some .TIMEOUT })
        else .ok (s, { state := some .WAITING, waiter := some waiter })

end Omd
