import Omd.Effects.Begin
import Omd.Effects.Recovery

/-!
# The licences of an action

A critical section belongs to an action of the system: a verb, or a cut of a call.  Which
of the deeds that only some sections do an action may do is read off the action, the state
before it and the repository; the invariants argue from these licences and not from the
verbs.
-/

namespace Omd

open Lib

/-! ## Actions -/

/-- The action resumes the call. -/
def Sys.Cut (σ : Sys) (a : Action) (p : Proc) (input : Input) : Prop :=
  ∃ i, a = .resume i input ∧ σ.procs[i]? = some p

theorem Sys.Cut.mem {σ : Sys} {a : Action} {p : Proc} {input : Input} (h : σ.Cut a p input) :
    p ∈ σ.procs := by
  obtain ⟨i, -, hi⟩ := h
  exact List.mem_of_getElem? hi

/-- The call an action resumes is one. -/
theorem Sys.Cut.unique {σ : Sys} {a : Action} {p p' : Proc} {input input' : Input}
    (h : σ.Cut a p input) (h' : σ.Cut a p' input') : p = p' ∧ input = input' := by
  obtain ⟨i, rfl, hi⟩ := h
  obtain ⟨j, hj, hi'⟩ := h'
  cases hj
  rw [hi] at hi'
  exact ⟨Option.some.inj hi', rfl⟩

/-- The verbs that sweep or reconcile. -/
def Verb.sweeps : Verb → Bool
  | .claim _ | .rolloverClaim .. | .cancelWait .. | .release .. | .reclaimZombies | .sweep
  | .nextTask | .cancel .. | .barrierStatus _ | .flagWaitPoll _ | .acquire _ | .acquirePoll _
  | .semStatus _ => true
  | _ => false

/-- The verbs that set a flag, or wait for one. -/
def Verb.signals : Verb → Bool
  | .flagSet .. | .flagWait .. => true
  | _ => false

/-- The action runs a recovery. -/
inductive Recovers (σ : Sys) (a : Action) : Prop
  | action (h : a = .recover)
  | connect {args : ConnectArgs} {input : Input} (h : σ.Cut a (.connect args .recover) input)
  | arrive {args : ArriveArgs} {input : Input} (h : σ.Cut a (.arrive args .recover) input)
  | bail {agent : AgentId} {id : Option RequestId} {input : Input}
      (h : σ.Cut a (.bail agent id .recover) input)

/-- The action reclaims the agents that are silent. -/
inductive Sweeps (σ : Sys) (a : Action) : Prop
  | verb {v : Verb} (h : a = .call v) (sweeps : v.sweeps = true)
  | recovery (h : Recovers σ a)
  | batch {args : BeginArgs} {legacy : Bool} {input : Input}
      (h : σ.Cut a (.begin args (.batch legacy)) input)
  | phaseA {args : ConnectArgs} {input : Input} (h : σ.Cut a (.connect args .phaseA) input)
  | phaseC {args : ConnectArgs} {i : Intent} {input : Input}
      (h : σ.Cut a (.connect args (.phaseC i)) input)
  | arrive {args : ArriveArgs} {input : Input} (h : σ.Cut a (.arrive args .arrive) input)
  | tripC {args : ArriveArgs} {trip : Trip} {task : TaskId} {i : Intent} {input : Input}
      (h : σ.Cut a (.arrive args (.phaseC trip task i)) input)

/-- The action sweeps the whole store and collects what has ended. -/
inductive Collects (σ : Sys) (a : Action) : Prop
  | verb {v : Verb} (h : a = .call v) (sweeps : v.sweeps = true)
  | batch {args : BeginArgs} {legacy : Bool} {input : Input}
      (h : σ.Cut a (.begin args (.batch legacy)) input)
  | phaseA {args : ConnectArgs} {input : Input} (h : σ.Cut a (.connect args .phaseA) input)
  | arrive {args : ArriveArgs} {input : Input} (h : σ.Cut a (.arrive args .arrive) input)

/-- The action is Phase C of an attempt of the task. -/
inductive Completes (σ : Sys) (a : Action) (task : TaskId) (input : Input) : Prop
  | connect {args : ConnectArgs} {i : Intent} (h : σ.Cut a (.connect args (.phaseC i)) input)
      (task : i.taskId = task)
  | trip {args : ArriveArgs} {trip : Trip} {t : TaskId} {i : Intent}
      (h : σ.Cut a (.arrive args (.phaseC trip t i)) input) (task : i.taskId = task)

/-- The action is Phase C of the attempt. -/
inductive PhaseC (σ : Sys) (a : Action) (i : Intent) (input : Input) : Prop
  | connect {args : ConnectArgs} (h : σ.Cut a (.connect args (.phaseC i)) input)
  | trip {args : ArriveArgs} {trip : Trip} {t : TaskId}
      (h : σ.Cut a (.arrive args (.phaseC trip t i)) input)

/-- The action marks the end of a task in its flag, and wakes nobody. -/
inductive Marks (env : Env) (σ : Sys) (a : Action) : TaskId → String → Prop
  | finish {task : TaskId} {agent : Option AgentId} {fence : Option ℕ} {id : Option RequestId}
      {epoch : Option ℕ} (h : a = .call (.finish task agent fence id epoch))
      (finishes : Finishes σ.store task agent fence id epoch) : Marks env σ a task "done"
  | phaseC {i : Intent} {input : Input} (h : PhaseC σ a i input)
      (owns : ownsAttempt σ.store i = true)
      (publishes : (reconcileGit env.git i input.merge).publishes i.repoBound = true) :
      Marks env σ a i.taskId "merged"
  | recovery {t : Task} (h : Recovers σ a) (row : t ∈ σ.store.tasks)
      (merged : t.RecoveredMerged env.git) : Marks env σ a t.taskId "merged"

/-- The action admits requests: a claim, a rollover or a batch. -/
inductive Admits (σ : Sys) (a : Action) : Prop
  | claim {args : ClaimArgs} (h : a = .call (.claim args))
  | rollover {prior : OrbitId} {agent : AgentId} {expected epoch : ℕ} {id : RequestId}
      (h : a = .call (.rolloverClaim prior agent expected epoch id))
  | batch {args : BeginArgs} {legacy : Bool} {input : Input}
      (h : σ.Cut a (.begin args (.batch legacy)) input)

/-! ## Requests -/

/-- The request an action names for what it admits. -/
inductive NamesRequest (σ : Sys) (a : Action) (id : RequestId) : Prop
  | claim {args : ClaimArgs} (h : a = .call (.claim args)) (request : args.requestId = some id)
  | batch {b : BeginArgs} {legacy : Bool} {input : Input} {spec : String}
      (h : σ.Cut a (.begin b (.batch legacy)) input) (request : b.rid spec = some id)

/-- The request of a verb whose answers are its successes, with its arguments. -/
def Verb.request : Verb → Option (RequestId × IdemArgs)
  | .cancelWait orbit _ generation epoch id =>
      id.map fun id => (id, .cancel_wait orbit generation epoch)
  | .renew orbit _ fence ttl id _ => id.map fun id => (id, .renew orbit fence ttl)
  | .release orbit _ fence id _ => id.map fun id => (id, .release orbit fence)
  | .start task _ id _ => id.map fun id => (id, .start task)
  | .commit task msg _ fence id _ _ => id.map fun id => (id, .commit task msg fence)
  | .finish task _ fence id _ => id.map fun id => (id, .finish task fence)
  | .cancel task id => id.map fun id => (id, .cancel task)
  | .readRefresh task _ fence id _ => id.map fun id => (id, .read_refresh task fence)
  | .barrierAbort name _ id _ => id.map fun id => (id, .barrier_abort name)
  | .barrierConsume name _ id _ => id.map fun id => (id, .barrier_consume name)
  | .flagSet key value _ type _ id _ =>
      id.map fun id => (id, .flag_set key value (type = .EPHEMERAL))
  | .flagClear key _ id _ => id.map fun id => (id, .flag_clear key)
  | .semRelease permit _ fence id _ => id.map fun id => (id, .sem_release permit fence)
  | _ => none

/-- The requests an action may answer. -/
inductive Answers (cfg : Cfg) (env : Env) (σ : Sys) (a : Action) :
    RequestId → IdemArgs → Reply → Prop
  | verb {v : Verb} {id : RequestId} {args : IdemArgs} {s' : Store} {r : Reply}
      (h : a = .call v) (request : v.request = some (id, args))
      (run : v.run cfg env σ.store = .ok (s', r)) (success : r.isSuccess = true) :
      Answers cfg env σ a id args r
  | claim {c : ClaimArgs} {id : RequestId} {args : IdemArgs} {s' : Store} {r : Reply}
      (h : a = .call (.claim c)) (request : c.requestId = some id) (verb : args.isClaim = true)
      (run : claim cfg env.now σ.store c = .ok (s', r)) (settled : r.Settled) :
      Answers cfg env σ a id args r
  | rollover {prior : OrbitId} {agent : AgentId} {expected epoch : ℕ} {id : RequestId}
      {s' : Store} {r : Reply} (h : a = .call (.rolloverClaim prior agent expected epoch id))
      (run : rolloverClaim cfg env.now σ.store prior agent expected epoch id = .ok (s', r)) :
      Answers cfg env σ a id (.rollover_claim prior expected epoch) r
  | nested {prior : OrbitId} {agent : AgentId} {expected epoch : ℕ} {rid id : RequestId}
      {o : Orbit} {args : IdemArgs} {r : Reply}
      (h : a = .call (.rolloverClaim prior agent expected epoch rid)) (row : o ∈ σ.store.orbits)
      (key : o.orbitId = prior) (request : o.requestId = some id) (verb : args.isClaim = true)
      (settled : r.Settled) : Answers cfg env σ a id args r
  | member {b : BeginArgs} {legacy : Bool} {input : Input} {spec : String} {id : RequestId}
      {args : IdemArgs} {r : Reply} (h : σ.Cut a (.begin b (.batch legacy)) input)
      (request : b.rid spec = some id) (verb : args.isClaim = true) (settled : r.Settled) :
      Answers cfg env σ a id args r
  | start {b : BeginArgs} {claims : List Acquired} {input : Input} {id : RequestId} {r : Reply}
      (h : σ.Cut a (.begin b (.start claims)) input) (request : b.rid "start" = some id)
      (success : r.isSuccess = true) : Answers cfg env σ a id (.start b.taskId) r
  | acquire {q : AcquireArgs} {id : RequestId} {s₁ s₂ s' : Store} {result : Result} {r : Reply}
      (h : a = .call (.acquire q)) (request : q.requestId = some id)
      (enter : enterIdem σ.store id (some q.agentId) q.idemArgs = .ok (.inr s₁))
      (body : acquireBody cfg env.now s₁ q = .ok (s₂, result)) (reply : result.reply = r)
      (run : acquire cfg env.now σ.store q = .ok (s', r)) (success : r.isSuccess = true) :
      Answers cfg env σ a id q.idemArgs r
  | bail {agent : AgentId} {id : RequestId} {rid : Option RequestId} {input : Input} {r : Reply}
      (h : σ.Cut a (.bail agent rid .reclaim) input) (request : rid = some id)
      (success : r.isSuccess = true) : Answers cfg env σ a id (.bail agent) r
  | reserve {c : ConnectArgs} {id : RequestId} {input : Input} {r : Reply}
      (h : σ.Cut a (.connect c .reserve) input) (request : c.requestId = some id)
      (success : r.isSuccess = true) (merged : r.state = some (.task .MERGED)) :
      Answers cfg env σ a id c.idemArgs r
  | connect {c : ConnectArgs} {id : RequestId} {input : Input} {r : Reply}
      {operation : Option Intent} (h : σ.Cut a (.connect c (.complete r operation)) input)
      (request : c.requestId = some id) (success : r.isSuccess = true) :
      Answers cfg env σ a id c.idemArgs r
  | arrive {q : ArriveArgs} {id : RequestId} {input : Input} {s₁ s₂ : Store} {result : Result}
      {trip : Option Trip} {r : Reply} (h : σ.Cut a (.arrive q .arrive) input)
      (request : q.requestId = some id)
      (enter : enterIdem σ.store id (some q.agentId) q.idemArgs = .ok (.inr s₁))
      (body : arriveBody cfg env.now s₁ q = .ok ((s₂, result), trip)) (reply : result.reply = r)
      (now : result.deferred = false) (success : r.isSuccess = true) :
      Answers cfg env σ a id q.idemArgs r
  | trip {q : ArriveArgs} {id : RequestId} {input : Input} {trip : Trip} {r : Reply}
      (h : σ.Cut a (.arrive q (.complete trip r)) input) (request : trip.args.requestId = some id)
      (success : r.isSuccess = true) : Answers cfg env σ a id trip.args.idemArgs r
  | raised {q : ArriveArgs} {id : RequestId} {input : Input} {trip : Trip} {r : Reply}
      (h : σ.Cut a (.arrive q (.raised trip)) input) (request : trip.args.requestId = some id)
      (ended : r.EndedBarrier) : Answers cfg env σ a id trip.args.idemArgs r
  | recovered {id : RequestId} {args : IdemArgs} {r : Reply} (h : Recovers σ a)
      (reply : RecoveredReply args r) : Answers cfg env σ a id args r

/-- The requests an action may forget. -/
inductive Forgets (σ : Sys) (a : Action) (id : RequestId) : Prop
  | rollover {prior : OrbitId} {agent : AgentId} {expected epoch : ℕ} {rid : RequestId}
      {o : Orbit} (h : a = .call (.rolloverClaim prior agent expected epoch rid))
      (row : o ∈ σ.store.orbits) (key : o.orbitId = prior) (request : o.requestId = some id)
  | cancel {task : TaskId} {rid : Option RequestId} {o : Orbit}
      (h : a = .call (.cancel task rid)) (row : o ∈ σ.store.orbits) (kind : o.kind = .orbit)
      (task : o.taskId = some task) (request : o.requestId = some id)
  | repair {t : Task} {o : Orbit} (h : Recovers σ a) (aborted : t ∈ σ.store.tasks)
      (state : t.state = .ABORTED) (row : o ∈ σ.store.orbits) (kind : o.kind = .orbit)
      (task : o.taskId = some t.taskId) (request : o.requestId = some id)

/-! ## Licences -/

/-- What an action may do. -/
inductive Licence (cfg : Cfg) (env : Env) (σ : Sys) (a : Action) : Deed → Prop
  | agents : Licence cfg env σ a .agents
  | admission (h : Admits σ a) : Licence cfg env σ a .admission
  | name {id : RequestId} (h : NamesRequest σ a id) : Licence cfg env σ a (.name id)
  | zombie {agent : AgentId} (h : Sweeps σ a) (overdue : σ.store.Overdue cfg env.now agent) :
      Licence cfg env σ a (.zombie agent)
  | bail {agent : AgentId} {id : Option RequestId} {input : Input}
      (h : σ.Cut a (.bail agent id .reclaim) input) : Licence cfg env σ a (.bail agent)
  | declare {d : DeclareArgs} (h : a = .call (.declare d)) :
      Licence cfg env σ a (.declare d.taskId (d.deps.getD []) d.reads)
  | depend {task after : TaskId} {t : Task} (h : a = .call (.depend task after))
      (row : t ∈ σ.store.tasks) (key : t.taskId = task) :
      Licence cfg env σ a (.declare task (t.deps ++ [after]) t.reads)
  | begin {b : BeginArgs} {legacy : Bool} {input : Input}
      (h : σ.Cut a (.begin b (.declare legacy)) input) :
      Licence cfg env σ a (.declare b.taskId (b.deps.getD []) b.reads)
  | reopen {task : TaskId} {input : Input} (h : Completes σ a task input) :
      Licence cfg env σ a (.reopen (resolveTaskId task))
  | ready {b : BeginArgs} {claims : List Acquired} {state : TaskState} {input : Input}
      (h : σ.Cut a (.begin b (.ready claims state)) input) : Licence cfg env σ a (.ready b.taskId)
  | overwrite {b : BeginArgs} {claims : List Acquired} {state : TaskState} {input : Input}
      {t : Task} (h : σ.Cut a (.begin b (.ready claims state)) input) (row : t ∈ σ.store.tasks)
      (key : t.taskId = b.taskId) (pending : t.state ≠ .PENDING) (blocked : t.state ≠ .BLOCKED) :
      Licence cfg env σ a (.overwrite b.taskId)
  | start {task : TaskId} {agent : AgentId} {id : Option RequestId} {epoch : Option ℕ}
      (h : a = .call (.start task agent id epoch)) : Licence cfg env σ a (.start task)
  | begun {b : BeginArgs} {claims : List Acquired} {input : Input}
      (h : σ.Cut a (.begin b (.start claims)) input) : Licence cfg env σ a (.start b.taskId)
  | cancel {task : TaskId} {id : Option RequestId} (h : a = .call (.cancel task id)) :
      Licence cfg env σ a (.cancel task)
  | close {task : TaskId} {id : Option RequestId} (h : a = .call (.cancel task id)) :
      Licence cfg env σ a (.close task)
  | repair {t : Task} (h : Recovers σ a) (row : t ∈ σ.store.tasks) (aborted : t.state = .ABORTED) :
      Licence cfg env σ a (.close t.taskId)
  | refresh {task : TaskId} {agent : Option AgentId} {fence : Option ℕ}
      {id : Option RequestId} {epoch : Option ℕ}
      (h : a = .call (.readRefresh task agent fence id epoch)) : Licence cfg env σ a (.refresh task)
  | release {orbit : OrbitId} {agent : AgentId} {fence : Option ℕ} {id : Option RequestId}
      {epoch : Option ℕ} (h : a = .call (.release orbit agent fence id epoch)) :
      Licence cfg env σ a (.release orbit)
  | renew {orbit : OrbitId} {agent : AgentId} {fence : Option ℕ} {ttl : ℚ}
      {id : Option RequestId} {epoch : Option ℕ}
      (h : a = .call (.renew orbit agent fence ttl id epoch)) : Licence cfg env σ a (.renew orbit)
  | heartbeat {orbit : OrbitId} {agent : AgentId} {ttl : Option ℚ}
      (h : a = .call (.heartbeat agent ttl)) : Licence cfg env σ a (.renew orbit)
  | liveness {orbit : OrbitId} {b : BeginArgs} {legacy : Bool} {input : Input}
      (h : σ.Cut a (.begin b (.liveness legacy)) input) : Licence cfg env σ a (.renew orbit)
  | merge {t : Task} (h : Recovers σ a ∨ ∃ task input, Completes σ a task input)
      (proven : MergeProven env.git t) : Licence cfg env σ a (.merge t)
  | rollback {t : Task} (h : Recovers σ a) (verified : RollbackVerified env.git False t) :
      Licence cfg env σ a (.rollback t)
  | undo {t : Task} {task : TaskId} {input : Input} (h : Completes σ a task input)
      (verified : RollbackVerified env.git (input.merge.err = some .precondition) t) :
      Licence cfg env σ a (.rollback t)
  | answer {id : RequestId} {args : IdemArgs} {r : Reply} (h : Answers cfg env σ a id args r) :
      Licence cfg env σ a (.answer id args r)
  | retry {id : RequestId} (h : Recovers σ a) : Licence cfg env σ a (.retry id)
  | forget {id : RequestId} (h : Forgets σ a id) : Licence cfg env σ a (.forget id)
  | arm {name : String} {tasks : List TaskId} {policy : BarrierPolicy} {timeout : Option ℚ}
      (h : a = .call (.barrierDeclare name tasks policy timeout)) : Licence cfg env σ a (.arm name)
  | trip {q : ArriveArgs} {trip : Trip} {input : Input} (h : σ.Cut a (.arrive q (.next trip)) input)
      (plan : trip.plan = []) : Licence cfg env σ a (.trip trip.barrierId)
  | raised {q : ArriveArgs} {trip : Trip} {input : Input}
      (h : σ.Cut a (.arrive q (.raised trip)) input) (merged : σ.store.TripMerged trip) :
      Licence cfg env σ a (.trip trip.barrierId)
  | archive {t : Task} (h : Collects σ a) : Licence cfg env σ a (.archive t)
  | slots {sem : String} {maxPermits : ℤ} (h : a = .call (.semDeclare sem maxPermits)) :
      Licence cfg env σ a (.slots sem maxPermits.toNat)
  | lapse (h : Collects σ a) : Licence cfg env σ a .lapse
  | yield {p : Orbit} {agent : AgentId} {fence : Option ℕ} {id : Option RequestId}
      {epoch : Option ℕ} (h : a = .call (.semRelease p.orbitId agent fence id epoch))
      (row : p ∈ σ.store.orbits) (owner : checkOwner p agent fence = none) :
      Licence cfg env σ a (.yield p.orbitId)
  | serve {sem : String} : Licence cfg env σ a (.serve sem)
  | signal {v : Verb} (h : a = .call v) (signals : v.signals = true) : Licence cfg env σ a .signal
  | set {key value : String} {agent : Option AgentId} {ttl : Option ℚ} {id : Option RequestId}
      {epoch : Option ℕ} (h : a = .call (.flagSet key value agent .LATCH ttl id epoch)) :
      Licence cfg env σ a (.set key value agent)
  | own {key value : String} {agent : Option AgentId} {ttl : Option ℚ} {id : Option RequestId}
      {epoch : Option ℕ} (h : a = .call (.flagSet key value agent .EPHEMERAL ttl id epoch)) :
      Licence cfg env σ a (.own key)
  | mark {task : TaskId} {value : String} (h : Marks env σ a task value) :
      Licence cfg env σ a (.mark task value)
  | poll {id : ℕ} {w : FlagWaiter} (h : a = .call (.flagWaitPoll id))
      (row : σ.store.getFlagWaiter id = some w) (waiting : w.state = .WAITING) :
      Licence cfg env σ a (.poll id)

/-- What an action may do before it admits requests.  Slots are handed on in groups only. -/
def Before (cfg : Cfg) (env : Env) (σ : Sys) (a : Action) (d : Deed) : Prop :=
  Licence cfg env σ a d ∧ d ≠ .admission ∧ ∀ sem, d ≠ .serve sem

/-- What an action may do once it no longer reclaims agents. -/
def After (cfg : Cfg) (env : Env) (σ : Sys) (a : Action) (d : Deed) : Prop :=
  Licence cfg env σ a d ∧ (∀ agent, d ≠ .zombie agent ∧ d ≠ .bail agent) ∧ ∀ sem, d ≠ .serve sem

end Omd
