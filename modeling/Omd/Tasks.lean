import Omd.Git

/-!
# Tasks

The verbs of a task outside its merge: it is declared, given dependencies, handed out,
started, committed, finished or cancelled, and its agent shows that it is alive or bails.
A cancelled task takes every live row of its orbits with it.
-/

namespace Omd

open Lib

/-! ## The dependency graph -/

/-- `_dep_graph` with the edges of a candidate. -/
def depEdges (s : Store) (task : TaskId) (deps : List TaskId) : List (TaskId × TaskId) :=
  (s.tasks.flatMap fun t => t.deps.map fun d => (t.taskId, d)) ++ deps.map fun d => (task, d)

/-- `_would_cycle`. -/
def wouldCycle (s : Store) (task : TaskId) (deps : List TaskId) : Option (List TaskId) :=
  Digraph.findCycle (depEdges s task deps) sortAgents

/-- The arguments of `declare`. -/
structure DeclareArgs where
  taskId : TaskId
  writes : List String := []
  reads : List String := []
  deps : Option (List TaskId) := none
  shared : List String := []
  priority : ℤ := 0

/-- `declare`. -/
def declare (now : Time) (s : Store) (d : DeclareArgs) : Store × Reply :=
  if d.writes.any fun w => d.shared.any fun h => setsOverlap [w] [h] then
    (s, .refuse "write_shared_overlap")
  else if d.deps.getD [] ≠ [] ∧ (wouldCycle s d.taskId (d.deps.getD [])).isSome then
    (s, .refuse "dep_cycle")
  else
    (s.addTask
      { taskId := d.taskId
        writes := d.writes
        reads := d.reads
        deps := d.deps.getD []
        shared := d.shared
        state := .PENDING
        priority := d.priority
        createdAt := now },
     { ok := some true, state := some (.task .PENDING) })

/-- `depend`. -/
def depend (s : Store) (task after : TaskId) : Store × Reply :=
  match s.getTask task with
  | none => (s, .refuse "no such task")
  | some t =>
      if after ∈ t.deps then (s, { ok := some true, noop := true })
      else if (wouldCycle s task (t.deps ++ [after])).isSome then (s, .refuse "dep_cycle")
      else (s.setTask task fun r => { r with deps := t.deps ++ [after] }, { ok := some true })

/-! ## Handing out and starting -/

/-- Every dependency is merged. -/
def depsMerged (s : Store) (deps : List TaskId) : Bool :=
  deps.all fun d => (s.getTask d).map Task.state = some .MERGED

/-- The write-set of a task is free of the held orbits. -/
def taskAdmissible (s : Store) (t : Task) : Bool :=
  depsMerged s t.deps &&
    (s.heldOrbits.all fun o => !setsOverlap t.writes o.pathspec) &&
    (s.heldOrbits.all fun o => o.mode = .shared || !setsOverlap t.shared o.pathspec)

/-- The choice of `next_task`. -/
def nextTaskPick (s : Store) : Option Task :=
  (s.tasksByState [.PENDING, .READY, .BLOCKED]).find? (taskAdmissible s)

/-- `next_task`. -/
def nextTask (cfg : Cfg) (now : Time) (s : Store) : Except Fault (Store × Reply) := do
  let s ← sweepInline cfg now s
  match nextTaskPick s with
  | none => .ok (s, {})
  | some t =>
      if t.state = .READY then .ok (s, { tasks := [t.taskId], state := some (.task .READY) })
      else do
        let state ← advanceTask t.state .ready
        .ok (s.setTask t.taskId fun r => { r with state := state },
          { tasks := [t.taskId], state := some (.task state) })

/-- The states of a task that was started. -/
def TaskState.started : TaskState → Bool
  | .IN_ORBIT | .DONE | .CONNECTING | .MERGED => true
  | _ => false

/-- The state `start` leads to. -/
def startedState (state : TaskState) : Except Fault TaskState := do
  let claimed ← if state = .READY then advanceTask state .claim else .ok state
  advanceTask claimed .start

/-- The body of `start`. -/
def startBody (env : Env) (s : Store) (task : TaskId) (agent : AgentId)
    (bailEpoch : Option ℕ) : Except Fault (Store × Result) :=
  match checkAlive s (some agent) bailEpoch with
  | some dead => .ok (s, .set dead)
  | none =>
      match s.getTask task with
      | none => .error (.typeError "'NoneType' object is not subscriptable")
      | some t =>
          if t.state.started ∧ t.agentId = some agent then
            .ok (s, .set { state := some (.task t.state), dedup := true })
          else do
            let state ← startedState t.state
            let s := s.upsertAgent agent env.now
            match env.git with
            | none =>
                .ok (s.setTask task fun r => { r with state := state, agentId := some agent },
                  .set { state := some (.task state) })
            | some view =>
                if !view.addWorktree then .error (.runtimeError "git worktree add failed")
                else
                  .ok (s.setTask task fun r =>
                    { r with
                      state := state
                      agentId := some agent
                      worktree := some task
                      branch := some ("omd/" ++ task) },
                    .set { state := some (.task state) })

/-- `start`. -/
def start (env : Env) (s : Store) (task : TaskId) (agent : AgentId)
    (requestId : Option RequestId) (bailEpoch : Option ℕ) : Except Fault (Store × Reply) := do
  let r ← withIdem env.now s requestId (some agent) (.start task) fun s =>
    startBody env s task agent bailEpoch
  .ok (r.1, r.2.reply)

/-! ## Committing and finishing -/

/-- The refresh of an agent that a call may not name. -/
def touchAgent (s : Store) (agent : Option AgentId) (now : Time) : Store :=
  match agent with
  | none => s
  | some a => if a = "" then s else s.upsertAgent a now

/-- How the commit of a worktree ended. -/
inductive CommitOutcome
  | committed (sha : Sha) | nothingInOrbit | gitError
  deriving DecidableEq, Repr

/-- The body of `commit`, up to the advisory audit of its reply. -/
def commitBody (now : Time) (s : Store) (task : TaskId) (agent : Option AgentId)
    (fence : Option ℕ) (bailEpoch : Option ℕ) (outcome : CommitOutcome) :
    Except Fault (Store × Result) :=
  match checkAlive s agent bailEpoch with
  | some dead => .ok (s, .set dead)
  | none =>
      let s := touchAgent s agent now
      match checkTaskWriteFence s task agent fence with
      | some bad => .ok (s, .set bad)
      | none =>
          match s.getTask task with
          | none => .ok (s, .set (.refuse "no such task"))
          | some t =>
              let writes := (s.writesForTask task).filter fun o => o.state = .HELD
              if t.state = .CONNECTING ∨ t.state = .MERGED ∨ writes.any Orbit.merging then
                .ok (s, .set { Reply.refuse "connect_in_progress" with
                                state := some (.task t.state) })
              else
                match outcome with
                | .committed _ => .ok (s, .set { ok := some true })
                | .nothingInOrbit => .ok (s, .set (.refuse "nothing_in_orbit"))
                | .gitError => .error (.runtimeError "git commit failed")

/-- `commit`. -/
def commit (env : Env) (s : Store) (task : TaskId) (msg : String) (agent : Option AgentId)
    (fence : Option ℕ) (requestId : Option RequestId) (bailEpoch : Option ℕ)
    (outcome : CommitOutcome) : Except Fault (Store × Reply) :=
  match env.git with
  | none => .ok (s, .refuse "no repo bound")
  | some _ => do
      let r ← withIdem env.now s requestId agent (.commit task msg fence) fun s =>
        commitBody env.now s task agent fence bailEpoch outcome
      .ok (r.1, r.2.reply)

/-- The states `finish` finds its work done in. -/
def TaskState.finished : TaskState → Bool
  | .DONE | .CONNECTING | .MERGED => true
  | _ => false

/-- The body of `finish`. -/
def finishBody (now : Time) (s : Store) (task : TaskId) (agent : Option AgentId)
    (fence : Option ℕ) (bailEpoch : Option ℕ) : Except Fault (Store × Result) :=
  match checkAlive s agent bailEpoch with
  | some dead => .ok (s, .set dead)
  | none =>
      let s := touchAgent s agent now
      match checkTaskWriteFence s task agent fence with
      | some bad => .ok (s, .set bad)
      | none =>
          match s.getTask task with
          | none => .error (.typeError "'NoneType' object is not subscriptable")
          | some t =>
              if t.state.finished then
                .ok (s, .set { state := some (.task t.state), noop := true })
              else do
                let state ← advanceTask t.state .finish
                let s := s.setTask task fun r => { r with state := state }
                .ok (s.setFlag task "done" t.agentId, .set { state := some (.task .DONE) })

/-- `finish`. -/
def finish (now : Time) (s : Store) (task : TaskId) (agent : Option AgentId)
    (fence : Option ℕ) (requestId : Option RequestId) (bailEpoch : Option ℕ) :
    Except Fault (Store × Reply) := do
  let r ← withIdem now s requestId agent (.finish task fence) fun s =>
    finishBody now s task agent fence bailEpoch
  .ok (r.1, r.2.reply)

/-! ## Reads -/

/-- The reads of a task are anchored at the current generation. -/
def refreshReads (s : Store) (task : TaskId) : Store :=
  let gen := s.integrationGen
  let s := s.setTask task fun r => { r with readSyncedGen := some gen }
  let reads := (s.orbitsForTask task).filter fun o => o.mode = .read && o.state = .HELD
  reads.foldl (fun s o =>
    clearReadStaleSignal
      (s.setOrbit o.orbitId fun r => { r with readGen := some gen, stale := false }) o.orbitId) s

/-- The body of `read_refresh`. -/
def readRefreshBody (s : Store) (task : TaskId) (agent : Option AgentId) (fence : Option ℕ)
    (bailEpoch : Option ℕ) : Store × Result :=
  match checkAlive s agent bailEpoch with
  | some dead => (s, .set dead)
  | none =>
      match s.getTask task with
      | none => (s, .set (.refuse "no such task"))
      | some _ =>
          let live := (s.writesForTask task).filter fun o => o.state = .HELD
          if live = [] then (s, .set (.fenceOut "no held write orbit for task"))
          else if agent ≠ none ∧ live.any fun o => some o.agentId ≠ agent then
            (s, .set (.fenceOut "not owner"))
          else if fence ≠ none ∧ live.all fun o => o.fence ≠ fence then
            (s, .set (.fenceOut "stale fence"))
          else (refreshReads s task, .set { ok := some true, gen := some s.integrationGen })

/-- `read_refresh`. -/
def readRefresh (now : Time) (s : Store) (task : TaskId) (agent : Option AgentId)
    (fence : Option ℕ) (requestId : Option RequestId) (bailEpoch : Option ℕ) :
    Except Fault (Store × Reply) := do
  let r ← withIdem now s requestId agent (.read_refresh task fence) fun s =>
    .ok (readRefreshBody s task agent fence bailEpoch)
  .ok (r.1, r.2.reply)

/-! ## Cancelling -/

/-- The close of one row of a cancelled task. -/
def terminalizeOrbit (now : Time) (s : Store) (o : Orbit) : Except Fault Store := do
  let s := match o.requestId with
    | none => s
    | some id => s.clearIdem id
  if o.state = .PENDING then do
    let id ← admissionIdentity o
    let s ← assertAdmissionProjection s .PENDING .CANCEL id true (some .DENIED)
    let state ← advanceOrbit .PENDING .deny
    .ok (closeRow s state .CANCEL)
  else if o.state = .HELD then do
    let id ← admissionIdentity o
    let s ← assertAdmissionProjection s .HELD .RELEASE id true (some .RELEASED)
    let state ← advanceOrbit .HELD .release
    .ok (closeRow s state .RELEASE)
  else .ok s
where
  /-- The write both closings make, and the signal of a read that goes with it. -/
  closeRow (s : Store) (state : OrbitState) (event : AdmissionEvent) : Store :=
    let s := s.setOrbit o.orbitId fun r =>
      { r with
        state := state
        releasedAt := some now
        merging := false
        decisionType := some event
        blockerIds := []
        terminalReason := some .task_cancelled }
    if o.mode = .read then clearReadStaleSignal s o.orbitId else s

/-- The rows of a task in the order of their identifiers. -/
def Store.orbitsForTaskSorted (s : Store) (task : TaskId) : List Orbit :=
  (s.orbitsForTask task).insertionSort fun a b => a.orbitId ≤ b.orbitId

/-- `_terminalize_cancelled_task_orbits`. -/
def terminalizeCancelledTaskOrbits (now : Time) (s : Store) (task : TaskId) :
    Except Fault (Store × List OrbitId) := do
  let rows := s.orbitsForTaskSorted task
  let s ← rows.foldlM (terminalizeOrbit now) s
  .ok (s, (rows.filter fun o => o.state = .PENDING || o.state = .HELD).map Orbit.orbitId)

/-- The body of `cancel`. -/
def cancelBody (cfg : Cfg) (now : Time) (s : Store) (task : TaskId) :
    Except Fault (Store × Result) :=
  match s.getTask task with
  | none => .ok (s, .set (.refuse "no such task"))
  | some t =>
      if t.state = .ABORTED then do
        let r ← terminalizeCancelledTaskOrbits now s task
        let s ← reconcileAdmission cfg now r.1
        .ok (s, .set { ok := some true, noop := true, state := some (.task .ABORTED),
                       orbits := r.2 })
      else if !t.state.admission then
        .ok (s, .set (.refuse "cancel is for tasks that were not started"))
      else do
        let state ← advanceTask t.state .abort
        let s := s.setTask task fun r => { r with state := state }
        let r ← terminalizeCancelledTaskOrbits now s task
        let s ← reconcileAdmission cfg now r.1
        .ok (s, .set { ok := some true, state := some (.task state), orbits := r.2 })

/-- `cancel`. -/
def cancel (cfg : Cfg) (now : Time) (s : Store) (task : TaskId)
    (requestId : Option RequestId) : Except Fault (Store × Reply) := do
  let r ← withIdem now s requestId (some task) (.cancel task) fun s => cancelBody cfg now s task
  .ok (r.1, r.2.reply)

/-! ## Agents -/

/-- The renewal of a lease at a heartbeat: the window it has, from now on. -/
def heartbeatLease (cfg : Cfg) (now : Time) (s : Store) (o : Orbit) : Store :=
  match o.expiresAt with
  | none => s
  | some e =>
      let base := e - o.createdAt
      let ttl := if o.createdAt ≠ 0 ∧ 0 < base then base else cfg.agentTtl.getD 90
      s.setOrbit o.orbitId fun r => { r with expiresAt := some (now + ttl) }

/-- `heartbeat`. -/
def heartbeat (cfg : Cfg) (now : Time) (s : Store) (agent : AgentId) (ttl : Option ℚ) :
    Store × Reply :=
  if ttl.any fun t => t ≤ 0 then (s, .refuse "invalid_liveness_ttl")
  else if (s.getAgent agent).any fun a => a.state = .RETIRED then
    (s, { Reply.fenceOut "agent reclaimed" with
            bailEpoch := (s.getAgent agent).map Agent.bailEpoch })
  else
    let s := s.upsertAgent agent now
    let s := match ttl with
      | none => s
      | some _ => s.setAgent agent fun a => { a with livenessTtl := ttl }
    let s := (s.heldOfKindBy .flag_ephemeral agent).foldl (heartbeatLease cfg now) s
    let s := (s.heldOfKindBy .sem_permit agent).foldl (heartbeatLease cfg now) s
    (s, { ok := some true, bailEpoch := (s.getAgent agent).map Agent.bailEpoch })

/-- The second critical section of `bail`, after its recovery. -/
def bail (cfg : Cfg) (now : Time) (s : Store) (agent : AgentId)
    (requestId : Option RequestId) : Except Fault (Store × Reply) := do
  let r ← withIdem now s requestId (some agent) (.bail agent) fun s => do
    let r ← reclaimAgent cfg now true s agent
    .ok (r.1, .set { noop := r.2.noop, orbits := r.2.orbits, tasks := r.2.tasks })
  .ok (r.1, r.2.reply)

/-- One round of the public `reclaim_zombies`, which reconciles after every agent. -/
def reclaimZombieNow (cfg : Cfg) (now : Time) (s : Store) (a : Agent) : Except Fault Store :=
  if activeConnectPin s a.agentId then .ok s
  else do
    let r ← reclaimAgent cfg now false s a.agentId
    .ok r.1

/-- `reclaim_zombies`. -/
def reclaimZombiesNow (cfg : Cfg) (now : Time) (s : Store) : Except Fault Store :=
  match cfg.agentTtl with
  | none => .ok s
  | some ttl => (s.staleAgents now ttl).foldlM (reclaimZombieNow cfg now) s

end Omd
