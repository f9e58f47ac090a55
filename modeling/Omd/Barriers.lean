import Omd.Recovery

/-!
# Barriers

A barrier is a rendezvous of tasks: when the last of them arrives, the caller that
brought it merges them all, in the order of their names.  Each merge has a Phase A of its
own, which does not sweep, and shares Phase C with `connect`.  A trip that fails, and a
participant that dies, breaks the barrier.
-/

namespace Omd

open Lib

/-- `barrier_declare`. -/
def barrierDeclare (now : Time) (s : Store) (name : String) (taskIds : List TaskId)
    (policy : BarrierPolicy) (timeout : Option ℚ) : Store × Reply :=
  if taskIds = [] then (s, .refuse "barrier needs >=1 task")
  else
    let prev := s.barrierByName name
    if prev.any fun b => b.state = .ARMED || b.state = .TRIPPING then
      (s, .refuse "barrier already active")
    else
      let generation := match prev with
        | none => 0
        | some b => b.generation + 1
      let members := taskIds.dedup
      let barrier : Barrier :=
        { barrierId := (name, generation)
          name := name
          parties := members.length
          generation := generation
          policy := policy
          deadlineAt := timeout.map fun t => now + t }
      let party (task : TaskId) : BarrierParty :=
        { barrierId := (name, generation)
          generation := generation
          taskId := task
          agentId := (s.getTask task).bind Task.agentId }
      ({ s with
          barriers := s.barriers ++ [barrier]
          barrierParties := s.barrierParties ++ members.map party },
       { ok := some true, state := some (.barrier .ARMED), gen := some generation })

/-! ## Arrival -/

/-- The arguments of `barrier_arrive`. -/
structure ArriveArgs where
  name : String
  agentId : AgentId
  taskId : TaskId
  fence : Option ℕ := none
  requestId : Option RequestId := none
  bailEpoch : Option ℕ := none

/-- The arguments the digest of the request covers. -/
def ArriveArgs.idemArgs (a : ArriveArgs) : IdemArgs :=
  .barrier_arrive a.name a.taskId a.fence a.bailEpoch

/-- A trip a caller has to drive: what is left of its plan, and what it merged. -/
structure Trip where
  barrierId : BarrierId
  generation : ℕ
  args : ArriveArgs
  plan : List TripStep
  merged : List TaskId := []

/-- `set_barrier_party` of an arrival. -/
def markArrived (s : Store) (b : Barrier) (a : ArriveArgs) (fence : ℕ) : Store :=
  { s with barrierParties := s.barrierParties.map fun p =>
      if p.barrierId = b.barrierId ∧ p.generation = b.generation ∧ p.taskId = a.taskId then
        { p with arrived := true, arriveFence := some fence, agentId := some a.agentId }
      else p }

/-- The arrival at an armed barrier. -/
def arriveArmed (now : Time) (s : Store) (b : Barrier) (a : ArriveArgs) :
    Except Fault ((Store × Result) × Option Trip) :=
  match s.getBarrierParty b.barrierId b.generation a.taskId with
  | none => .ok ((s, .set (.refuse "task not a barrier member")), none)
  | some _ =>
      match partyWriteFence s a.taskId with
      | none => .ok ((s, .set (.refuse "no HELD write orbit for task")), none)
      | some fence =>
          if a.fence ≠ none ∧ a.fence ≠ some fence then
            .ok ((s, .set (.fenceOut "stale fence")), none)
          else do
            let r ← barrierEval now (markArrived s b a fence) b.barrierId true
            match r.2 with
            | some plan =>
                .ok ((r.1, { reply := {}, deferred := true }),
                  some ⟨b.barrierId, b.generation, a, plan, []⟩)
            | none =>
                let state := (r.1.getBarrier b.barrierId).map Barrier.state
                let ok := state ≠ some .BROKEN
                .ok ((r.1, .set { ok := some ok, state := state.map .barrier }), none)

/-- The body of the first critical section of `barrier_arrive`. -/
def arriveBody (cfg : Cfg) (now : Time) (s : Store) (a : ArriveArgs) :
    Except Fault ((Store × Result) × Option Trip) := do
  let s ← sweepInline cfg now s
  match checkAlive s (some a.agentId) a.bailEpoch with
  | some dead => .ok ((s, .set dead), none)
  | none =>
      match s.barrierByName a.name with
      | none => .ok ((s, .set (.refuse "no such barrier")), none)
      | some b =>
          match b.state with
          | .BROKEN =>
              .ok ((s, .set { Reply.refuse (b.breakReason.getD "broken") with
                                state := some (.barrier .BROKEN) }), none)
          | .TRIPPING =>
              .ok ((s, .set { Reply.refuse "trip in progress" with
                                state := some (.barrier .TRIPPING)
                                retry := true }), none)
          | .TRIPPED | .CONSUMED =>
              .ok ((s, .set { ok := some true, noop := true, state := some (.barrier b.state) }),
                none)
          | .ARMED => arriveArmed now s b a

/-- The first critical section of `barrier_arrive`. -/
def barrierArrive (cfg : Cfg) (now : Time) (s : Store) (a : ArriveArgs) :
    Except Fault ((Store × Reply) × Option Trip) :=
  match a.requestId with
  | none => do
      let r ← arriveBody cfg now s a
      .ok ((r.1.1, r.1.2.reply), r.2)
  | some id => do
      match ← enterIdem s id (some a.agentId) a.idemArgs with
      | .inl reply => .ok ((s, reply), none)
      | .inr s => do
          let r ← arriveBody cfg now s a
          let s ← exitIdem now r.1.1 id (some a.agentId) a.idemArgs r.1.2
          .ok ((s, r.1.2.reply), r.2)

/-! ## The trip -/

/-- The gates of the connect of a barrier: a refusal, or what to merge. -/
def barrierGates (git : Option GitView) (s : Store) (t : Task) (expectedFence : Option ℕ) :
    Reply ⊕ Candidate :=
  let writes := s.writesForTask t.taskId
  if writes = [] then .inl (.refuse "no write orbit for task")
  else if staleWrites writes none expectedFence ≠ [] then
    .inl (.fenceOut "stale fence: lease changed since arrival")
  else
    let candidate := snapshotConnectCandidate git t.branch (claimedWriteGlobs writes)
    if candidate.audit.blocks then .inl (.refuse candidate.audit.reason)
    else .inr candidate

/-- A trip whose barrier is no longer its own. -/
def tripStopped (b : Option Barrier) : Reply :=
  { Reply.refuse "barrier trip ownership lost" with
      state := b.map fun b => .barrier b.state }

/-- The barrier of a trip is still tripping. -/
def ownsTrip (b : Option Barrier) (generation : ℕ) : Bool :=
  b.any fun b => b.generation = generation && b.state = .TRIPPING

/-- What the connect of a barrier answers: an intent, a refusal, or that the trip is over. -/
structure TripA where
  phase : PhaseA
  stopped : Bool := false

/-- `_barrier_connect_phase_a`. -/
def barrierConnectPhaseA (env : Env) (s : Store) (task : TaskId) (expectedFence : Option ℕ)
    (barrierId : BarrierId) (generation : ℕ) : Except Fault (Store × TripA) :=
  let barrier := s.getBarrier barrierId
  if !ownsTrip barrier generation then
    .ok (s, { phase := { reply := tripStopped barrier }, stopped := true })
  else
    match s.getTask task with
    | none => .ok (s, { phase := { reply := .refuse "no such task" } })
    | some t =>
        match connectTaskGate t with
        | some reply => .ok (s, { phase := { reply := reply } })
        | none =>
            match barrierGates env.git s t expectedFence with
            | .inl reply => .ok (s, { phase := { reply := reply } })
            | .inr candidate => do
                let owner := (t.agentId.filter (· ≠ "")).getD ("barrier:" ++ task)
                let r ← openAttempt env s t owner candidate none "merge in progress"
                .ok (r.1, { phase := r.2 })

/-- The break of a barrier whose trip failed. -/
def breakTrip (s : Store) (trip : Trip) : Except Fault Store :=
  match s.getBarrier trip.barrierId with
  | none => .ok s
  | some b =>
      if b.state = .TRIPPING ∨ b.state = .ARMED then breakBarrier s b "trip_failed"
      else .ok s

/-- The end of a trip that merged its plan. -/
def finishTrip (s : Store) (trip : Trip) : Except Fault (Store × Reply) :=
  let barrier := s.getBarrier trip.barrierId
  if ownsTrip barrier trip.generation then do
    let state ← advanceBarrier .TRIPPING .trip
    .ok (s.setBarrier trip.barrierId fun r => { r with state := state },
      { ok := some true, state := some (.barrier .TRIPPED), gen := some trip.generation,
        tasks := trip.merged })
  else
    .ok (s, { tripStopped barrier with gen := some trip.generation, tasks := trip.merged })

/-- The end of a trip that raised: what is durable decides.  `none` leaves the request in
flight. -/
def terminalizeTrip (now : Time) (s : Store) (trip : Trip) : Except Fault Store :=
  match s.getBarrier trip.barrierId with
  | none => .ok s
  | some b => do
      let tasks := (s.partiesOf trip.barrierId trip.generation).map BarrierParty.taskId
      let merged := tasks.filter fun t => (s.getTask t).map Task.state = some .MERGED
      let s ←
        if b.state = .TRIPPING ∧ tasks ≠ [] ∧ merged.length = tasks.length then do
          let state ← advanceBarrier .TRIPPING .trip
          .ok (s.setBarrier trip.barrierId fun r => { r with state := state })
        else if b.state = .ARMED ∨ b.state = .TRIPPING then breakBarrier s b "trip_exception"
        else .ok s
      let reply : Reply := { gen := some trip.generation, tasks := merged }
      let finish (reply : Reply) : Except Fault Store := do
        let r ← finishSplitIdemTerminal now s trip.args.requestId (some trip.args.agentId)
          trip.args.idemArgs reply
        .ok r.1
      match (s.getBarrier trip.barrierId).map Barrier.state with
      | some .TRIPPED => finish { reply with ok := some true, state := some (.barrier .TRIPPED) }
      | some .CONSUMED => finish { reply with ok := some true, state := some (.barrier .CONSUMED) }
      | some .BROKEN => finish { reply with ok := some false, state := some (.barrier .BROKEN) }
      | _ => .ok s

/-! ## The other verbs -/

/-- The body of `barrier_abort`. -/
def barrierAbortBody (s : Store) (name : String) (agent : Option AgentId)
    (bailEpoch : Option ℕ) : Except Fault (Store × Result) :=
  match checkAlive s agent bailEpoch with
  | some dead => .ok (s, .set dead)
  | none =>
      match s.barrierByName name with
      | none => .ok (s, .set (.refuse "no such barrier"))
      | some b =>
          if b.state = .BROKEN ∨ b.state = .TRIPPED ∨ b.state = .CONSUMED then
            .ok (s, .set { ok := some true, noop := true, state := some (.barrier b.state) })
          else do
            let s ← breakBarrier s b "aborted"
            .ok (s, .set { ok := some true, state := some (.barrier .BROKEN) })

/-- `barrier_abort`. -/
def barrierAbort (now : Time) (s : Store) (name : String) (agent : Option AgentId)
    (requestId : Option RequestId) (bailEpoch : Option ℕ) : Except Fault (Store × Reply) := do
  let r ← withIdem now s requestId agent (.barrier_abort name) fun s =>
    barrierAbortBody s name agent bailEpoch
  .ok (r.1, r.2.reply)

/-- The body of `barrier_consume`. -/
def barrierConsumeBody (s : Store) (name : String) (agent : Option AgentId)
    (bailEpoch : Option ℕ) : Except Fault (Store × Result) :=
  match checkAlive s agent bailEpoch with
  | some dead => .ok (s, .set dead)
  | none =>
      match s.barrierByName name with
      | none => .ok (s, .set (.refuse "no such barrier"))
      | some b =>
          let reply : Reply :=
            { ok := some true
              state := some (.barrier .CONSUMED)
              gen := some b.generation
              tasks := (s.partiesOf b.barrierId b.generation).map BarrierParty.taskId }
          match b.state with
          | .TRIPPED => do
              let state ← advanceBarrier .TRIPPED .consume
              .ok (s.setBarrier b.barrierId fun r => { r with state := state }, .set reply)
          | .CONSUMED => .ok (s, .set { reply with noop := true })
          | _ => .ok (s, .set { Reply.refuse "not TRIPPED" with
                                  state := some (.barrier b.state) })

/-- `barrier_consume`. -/
def barrierConsume (now : Time) (s : Store) (name : String) (agent : Option AgentId)
    (requestId : Option RequestId) (bailEpoch : Option ℕ) : Except Fault (Store × Reply) := do
  let r ← withIdem now s requestId agent (.barrier_consume name) fun s =>
    barrierConsumeBody s name agent bailEpoch
  .ok (r.1, r.2.reply)

/-- `barrier_status`. -/
def barrierStatus (cfg : Cfg) (now : Time) (s : Store) (name : String) :
    Except Fault (Store × Reply) := do
  let s ← sweepInline cfg now s
  match s.barrierByName name with
  | none => .ok (s, .refuse "no such barrier")
  | some b => do
      let r ← barrierEval now s b.barrierId
      .ok (r.1, { ok := some true,
                  state := ((r.1.getBarrier b.barrierId).map Barrier.state).map .barrier })

end Omd
