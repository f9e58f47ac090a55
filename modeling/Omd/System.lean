import Omd.Begin
import Omd.Flags
import Omd.Sems
import Omd.Lib.Transition

/-!
# The system

A system is the store and the calls under way.  Most verbs are one critical section and
are one action; `begin`, `connect`, `bail` and `barrier_arrive` are calls with a program
counter, and every `resume` runs one cut of one call.  The calls that merge or reclaim
hold the effect lock from their recovery to their end, and a crash at any point drops the
call and the lock and leaves the store.

Clocks, coordinators and repositories come with each action and are arbitrary.
-/

namespace Omd

open Lib

/-- Where a `connect` is. -/
inductive ConnectPc
  | recover | reserve | phaseA
  | phaseC (intent : Intent)
  | complete (reply : Reply) (operation : Option Intent)
  | ended

/-- Where a `barrier_arrive` is. -/
inductive TripPc
  | recover | arrive
  | next (trip : Trip)
  | phaseC (trip : Trip) (task : TaskId) (intent : Intent)
  | broken (trip : Trip)
  | raised (trip : Trip)
  | complete (trip : Trip) (reply : Reply)
  | ended

/-- Where a `bail` is. -/
inductive BailPc
  | recover | reclaim | ended

/-- A call under way. -/
inductive Proc
  | begin (args : BeginArgs) (pc : BeginPc)
  | connect (args : ConnectArgs) (pc : ConnectPc)
  | arrive (args : ArriveArgs) (pc : TripPc)
  | bail (agent : AgentId) (requestId : Option RequestId) (pc : BailPc)
  | crashed

/-- The store, the calls under way, and the call that holds the effect lock. -/
structure Sys where
  store : Store := {}
  procs : List Proc := []
  effect : Option ℕ := none

/-- What the world outside tells a cut: how the merge of Phase B ended, and whether a call
that found the token taken stops trying. -/
structure Input where
  merge : MergeOutcome := {}
  giveUp : Bool := false

/-! ## The calls -/

/-- A call that has returned. -/
def Proc.ended : Proc → Bool
  | .begin _ (.ended _) | .connect _ .ended | .arrive _ .ended | .bail _ _ .ended
  | .crashed => true
  | _ => false

/-- The operation `_complete_split_idem` has to own. -/
def Intent.operation (i : Intent) : AttemptId × String × ℕ :=
  (i.attemptId, i.ownerInstance, i.ownerGeneration)

/-- One cut of `connect`. -/
def connectStep (cfg : Cfg) (env : Env) (input : Input) (s : Store) (c : ConnectArgs) :
    ConnectPc → Except Fault (Store × ConnectPc)
  | .recover => do
      let s ← recover cfg env s
      .ok (s, .reserve)
  | .reserve => do
      let r ← connectReserve env.now s c
      .ok (r.1, if r.2.deferred then .phaseA else .ended)
  | .phaseA => do
      let r ← connectPhaseA cfg env s c.taskId c.agentId c.fence c.bailEpoch c.bound
      match r.2.intent with
      | some intent => .ok (r.1, .phaseC intent)
      | none =>
          if r.2.reply.retry ∧ !input.giveUp then .ok (r.1, .phaseA)
          else .ok (r.1, .complete r.2.reply none)
  | .phaseC intent => do
      let r ← connectPhaseC cfg env.now s intent (reconcileGit env.git intent input.merge)
      if r.2.preserveIdempotency then .ok (r.1, .ended)
      else .ok (r.1, .complete r.2 (some intent))
  | .complete reply operation => do
      let r ← completeSplitIdem env.now s c.requestId c.agentId c.idemArgs reply
        (operation.map Intent.operation)
      .ok (r.1, .ended)
  | .ended => .ok (s, .ended)

/-- The next cut of a trip: the Phase A of its next task, or its end. -/
def tripNext (env : Env) (input : Input) (s : Store) (trip : Trip) :
    Except Fault (Store × TripPc) :=
  match trip.plan with
  | [] => do
      let r ← finishTrip s trip
      .ok (r.1, .complete trip r.2)
  | step :: rest => do
      let r ← barrierConnectPhaseA env s step.taskId step.expectedFence trip.barrierId
        trip.generation
      match r.2.phase.intent with
      | some intent => .ok (r.1, .phaseC { trip with plan := rest } step.taskId intent)
      | none =>
          let reply := r.2.phase.reply
          if r.2.stopped then .ok (r.1, .complete trip reply)
          else if reply.ok = some true then
            .ok (r.1, .next { trip with plan := rest, merged := trip.merged ++ [step.taskId] })
          else if reply.retry ∧ !input.giveUp then .ok (r.1, .next trip)
          else .ok (r.1, .broken trip)

/-- One cut of `barrier_arrive`. -/
def arriveStep (cfg : Cfg) (env : Env) (input : Input) (s : Store) (a : ArriveArgs) :
    TripPc → Except Fault (Store × TripPc)
  | .recover => do
      let s ← recover cfg env s
      .ok (s, .arrive)
  | .arrive => do
      let r ← barrierArrive cfg env.now s a
      match r.2 with
      | none => .ok (r.1.1, .ended)
      | some trip => .ok (r.1.1, .next trip)
  | .next trip =>
      match tripNext env input s trip with
      | .ok r => .ok r
      | .error _ => .ok (s, .raised trip)
  | .phaseC trip task intent =>
      match connectPhaseC cfg env.now s intent (reconcileGit env.git intent input.merge) with
      | .ok r =>
          if r.2.ok = some true then
            .ok (r.1, .next { trip with merged := trip.merged ++ [task] })
          else .ok (r.1, .broken trip)
      | .error _ => .ok (s, .raised trip)
  | .broken trip => do
      let s ← breakTrip s trip
      .ok (s, .complete trip { ok := some false, state := some (.barrier .BROKEN) })
  | .raised trip => do
      let s ← terminalizeTrip env.now s trip
      .ok (s, .ended)
  | .complete trip reply => do
      let r ← completeSplitIdem env.now s trip.args.requestId (some trip.args.agentId)
        trip.args.idemArgs reply none
      .ok (r.1, .ended)
  | .ended => .ok (s, .ended)

/-- One cut of `bail`. -/
def bailStep (cfg : Cfg) (env : Env) (s : Store) (agent : AgentId)
    (requestId : Option RequestId) : BailPc → Except Fault (Store × BailPc)
  | .recover => do
      let s ← recover cfg env s
      .ok (s, .reclaim)
  | .reclaim => do
      let r ← bail cfg env.now s agent requestId
      .ok (r.1, .ended)
  | .ended => .ok (s, .ended)

/-- One cut of a call. -/
def procStep (cfg : Cfg) (env : Env) (input : Input) (s : Store) :
    Proc → Except Fault (Store × Proc)
  | .begin args pc => do
      let r ← beginStep cfg env s args pc
      .ok (r.1, .begin args r.2)
  | .connect args pc => do
      let r ← connectStep cfg env input s args pc
      .ok (r.1, .connect args r.2)
  | .arrive args pc => do
      let r ← arriveStep cfg env input s args pc
      .ok (r.1, .arrive args r.2)
  | .bail agent requestId pc => do
      let r ← bailStep cfg env s agent requestId pc
      .ok (r.1, .bail agent requestId r.2)
  | .crashed => .ok (s, .crashed)

/-! ## The actions -/

/-- The verbs that are one critical section, with their arguments. -/
inductive Verb
  | declare (d : DeclareArgs)
  | depend (task after : TaskId)
  | claim (c : ClaimArgs)
  | rolloverClaim (prior : OrbitId) (agent : AgentId) (expected bailEpoch : ℕ)
      (requestId : RequestId)
  | cancelWait (orbit : OrbitId) (agent : AgentId) (generation bailEpoch : ℕ)
      (requestId : Option RequestId)
  | renew (orbit : OrbitId) (agent : AgentId) (fence : Option ℕ) (ttl : ℚ)
      (requestId : Option RequestId) (bailEpoch : Option ℕ)
  | release (orbit : OrbitId) (agent : AgentId) (fence : Option ℕ)
      (requestId : Option RequestId) (bailEpoch : Option ℕ)
  | heartbeat (agent : AgentId) (ttl : Option ℚ)
  | reclaimZombies
  | sweep
  | nextTask
  | start (task : TaskId) (agent : AgentId) (requestId : Option RequestId)
      (bailEpoch : Option ℕ)
  | commit (task : TaskId) (msg : String) (agent : Option AgentId) (fence : Option ℕ)
      (requestId : Option RequestId) (bailEpoch : Option ℕ) (outcome : CommitOutcome)
  | finish (task : TaskId) (agent : Option AgentId) (fence : Option ℕ)
      (requestId : Option RequestId) (bailEpoch : Option ℕ)
  | cancel (task : TaskId) (requestId : Option RequestId)
  | readRefresh (task : TaskId) (agent : Option AgentId) (fence : Option ℕ)
      (requestId : Option RequestId) (bailEpoch : Option ℕ)
  | barrierDeclare (name : String) (taskIds : List TaskId) (policy : BarrierPolicy)
      (timeout : Option ℚ)
  | barrierAbort (name : String) (agent : Option AgentId) (requestId : Option RequestId)
      (bailEpoch : Option ℕ)
  | barrierConsume (name : String) (agent : Option AgentId) (requestId : Option RequestId)
      (bailEpoch : Option ℕ)
  | barrierStatus (name : String)
  | flagSet (key value : String) (agent : Option AgentId) (type : FlagType) (ttl : Option ℚ)
      (requestId : Option RequestId) (bailEpoch : Option ℕ)
  | flagClear (key : String) (agent : Option AgentId) (requestId : Option RequestId)
      (bailEpoch : Option ℕ)
  | flagWait (key want : String) (timeout : Option ℚ) (agent : Option AgentId)
  | flagWaitPoll (waiter : ℕ)
  | semDeclare (sem : String) (maxPermits : ℤ)
  | acquire (a : AcquireArgs)
  | acquirePoll (waiter : ℕ)
  | semRelease (permit : OrbitId) (agent : AgentId) (fence : Option ℕ)
      (requestId : Option RequestId) (bailEpoch : Option ℕ)
  | semStatus (sem : String)

/-- The transaction of a verb. -/
def Verb.run (cfg : Cfg) (env : Env) (s : Store) : Verb → Except Fault (Store × Reply)
  | .declare d => .ok (Omd.declare env.now s d)
  | .depend task after => .ok (Omd.depend s task after)
  | .claim c => Omd.claim cfg env.now s c
  | .rolloverClaim prior agent expected bailEpoch requestId =>
      Omd.rolloverClaim cfg env.now s prior agent expected bailEpoch requestId
  | .cancelWait orbit agent generation bailEpoch requestId =>
      Omd.cancelWait cfg env.now s orbit agent generation bailEpoch requestId
  | .renew orbit agent fence ttl requestId bailEpoch =>
      Omd.renew env.now s orbit agent fence ttl requestId bailEpoch
  | .release orbit agent fence requestId bailEpoch =>
      Omd.release cfg env.now s orbit agent fence requestId bailEpoch
  | .heartbeat agent ttl => .ok (Omd.heartbeat cfg env.now s agent ttl)
  | .reclaimZombies => do
      let s ← reclaimZombiesNow cfg env.now s
      .ok (s, {})
  | .sweep => do
      let s ← sweepInline cfg env.now s
      .ok (s, {})
  | .nextTask => Omd.nextTask cfg env.now s
  | .start task agent requestId bailEpoch => Omd.start env s task agent requestId bailEpoch
  | .commit task msg agent fence requestId bailEpoch outcome =>
      Omd.commit env s task msg agent fence requestId bailEpoch outcome
  | .finish task agent fence requestId bailEpoch =>
      Omd.finish env.now s task agent fence requestId bailEpoch
  | .cancel task requestId => Omd.cancel cfg env.now s task requestId
  | .readRefresh task agent fence requestId bailEpoch =>
      Omd.readRefresh env.now s task agent fence requestId bailEpoch
  | .barrierDeclare name taskIds policy timeout =>
      .ok (Omd.barrierDeclare env.now s name taskIds policy timeout)
  | .barrierAbort name agent requestId bailEpoch =>
      Omd.barrierAbort env.now s name agent requestId bailEpoch
  | .barrierConsume name agent requestId bailEpoch =>
      Omd.barrierConsume env.now s name agent requestId bailEpoch
  | .barrierStatus name => Omd.barrierStatus cfg env.now s name
  | .flagSet key value agent type ttl requestId bailEpoch =>
      Omd.flagSet cfg env.now s key value agent type ttl requestId bailEpoch
  | .flagClear key agent requestId bailEpoch =>
      Omd.flagClear env.now s key agent requestId bailEpoch
  | .flagWait key want timeout agent => .ok (Omd.flagWait env.now s key want timeout agent)
  | .flagWaitPoll waiter => Omd.flagWaitPoll cfg env.now s waiter
  | .semDeclare sem maxPermits => .ok (Omd.semDeclare cfg env.now s sem maxPermits)
  | .acquire a => Omd.acquire cfg env.now s a
  | .acquirePoll waiter => Omd.acquirePoll cfg env.now s waiter
  | .semRelease permit agent fence requestId bailEpoch =>
      Omd.semRelease cfg env.now s permit agent fence requestId bailEpoch
  | .semStatus sem => Omd.semStatus cfg env.now s sem

/-- What may happen next. -/
inductive Action
  | call (verb : Verb)
  | begin (args : BeginArgs)
  | connect (args : ConnectArgs)
  | arrive (args : ArriveArgs)
  | bail (agent : AgentId) (requestId : Option RequestId)
  | recover
  | resume (i : ℕ) (input : Input)
  | crash (i : ℕ)

/-- A call that takes the effect lock, when it is free. -/
def Sys.spawn (σ : Sys) (p : Proc) : Sys :=
  match σ.effect with
  | some _ => σ
  | none => { σ with procs := σ.procs ++ [p], effect := some σ.procs.length }

/-- The lock goes when its call returns. -/
def Sys.after (σ : Sys) (i : ℕ) (s : Store) (p : Proc) : Sys :=
  { store := s
    procs := σ.procs.set i p
    effect := if p.ended ∧ σ.effect = some i then none else σ.effect }

/-- One step of the system.  A fault leaves everything as it was. -/
def step (cfg : Cfg) (env : Env) (σ : Sys) : Action → Except Fault Sys
  | .call verb => do
      let r ← verb.run cfg env σ.store
      .ok { σ with store := r.1 }
  | .begin args =>
      match beginValidate cfg σ.store args with
      | .inl _ => .ok σ
      | .inr legacy => .ok { σ with procs := σ.procs ++ [.begin args (.declare legacy)] }
  | .connect args =>
      if args.requestId = some "" then .ok σ
      else .ok (σ.spawn (.connect args .recover))
  | .arrive args => .ok (σ.spawn (.arrive args .recover))
  | .bail agent requestId => .ok (σ.spawn (.bail agent requestId .recover))
  | .recover =>
      match σ.effect with
      | some _ => .ok σ
      | none => do
          let s ← Omd.recover cfg env σ.store
          .ok { σ with store := s }
  | .resume i input =>
      match σ.procs[i]? with
      | none => .ok σ
      | some p => do
          let r ← procStep cfg env input σ.store p
          .ok (σ.after i r.1 r.2)
  | .crash i =>
      match σ.procs[i]? with
      | none => .ok σ
      | some _ => .ok (σ.after i σ.store .crashed)

/-! ## Runs -/

/-- One labelled step. -/
def Step (cfg : Cfg) (σ : Sys) (l : Env × Action) (σ' : Sys) : Prop :=
  step cfg l.1 σ l.2 = .ok σ'

/-- The systems that a run reaches from an empty store, when every step of it meets the
condition. -/
def ReachableBy (cfg : Cfg) (P : Sys → Env × Action → Prop) (σ : Sys) : Prop :=
  Transition.Run (Step cfg) P {} σ

/-- The systems that any run reaches from an empty store. -/
def Reachable (cfg : Cfg) (σ : Sys) : Prop := ReachableBy cfg (fun _ _ => True) σ

/-- A history from an empty store: the first `n` steps of `σ` meet the condition. -/
def History (cfg : Cfg) (P : Sys → Env × Action → Prop) (σ : ℕ → Sys) (n : ℕ) : Prop :=
  σ 0 = {} ∧ Transition.Path (Step cfg) P σ n

/-- The system after a list of actions. -/
def exec (cfg : Cfg) : List (Env × Action) → Sys → Except Fault Sys
  | [], σ => .ok σ
  | l :: ls, σ => do
      let σ ← step cfg l.1 σ l.2
      exec cfg ls σ

theorem run_of_exec {cfg : Cfg} {P : Sys → Env × Action → Prop} {ls : List (Env × Action)}
    {σ σ' : Sys} (ok : ∀ l ∈ ls, ∀ σ, P σ l) (h : exec cfg ls σ = .ok σ') :
    Transition.Run (Step cfg) P σ σ' := by
  induction ls generalizing σ with
  | nil =>
      cases h
      exact .refl _
  | cons l ls ih =>
      rw [exec, Outcome.bind_eq_ok] at h
      obtain ⟨σ₁, hstep, h⟩ := h
      have rest := ih (fun l hl => ok l (List.mem_cons_of_mem _ hl)) h
      exact (Transition.Run.tail (.refl _) (ok l List.mem_cons_self σ) hstep).trans rest

/-- An action at a time of one coordinator. -/
def Action.at (a : Action) (now : Time) : Env × Action := ({ now := now, instanceId := "c" }, a)

/-- A test that a list of actions ends in a system with a property, for systems that a
computation exhibits. -/
theorem exists_reachableBy {cfg : Cfg} {P : Sys → Env × Action → Prop}
    (ls : List (Env × Action)) {p : Sys → Prop} [DecidablePred p] (ok : ∀ l ∈ ls, ∀ σ, P σ l)
    (h : (exec cfg ls {}).toOption.any fun σ => p σ) : ∃ σ, ReachableBy cfg P σ ∧ p σ := by
  cases hx : exec cfg ls {} with
  | error e => simp [hx, Except.toOption] at h
  | ok σ =>
      simp only [hx, Except.toOption, Option.any_some, decide_eq_true_eq] at h
      exact ⟨σ, run_of_exec ok hx, h⟩

/-- The system after a list of actions that each pass a check before it. -/
def execWhen (cfg : Cfg) (check : Sys → Env × Action → Bool) :
    List (Env × Action) → Sys → Except Fault Sys
  | [], σ => .ok σ
  | l :: ls, σ =>
      if check σ l then do
        let σ ← step cfg l.1 σ l.2
        execWhen cfg check ls σ
      else .error .diverged

theorem run_of_execWhen {cfg : Cfg} {P : Sys → Env × Action → Prop}
    {check : Sys → Env × Action → Bool} (sound : ∀ σ l, check σ l = true → P σ l)
    {ls : List (Env × Action)} {σ σ' : Sys} (h : execWhen cfg check ls σ = .ok σ') :
    Transition.Run (Step cfg) P σ σ' := by
  induction ls generalizing σ with
  | nil =>
      cases h
      exact .refl _
  | cons l ls ih =>
      rw [execWhen] at h
      split at h
      · rename_i checked
        rw [Outcome.bind_eq_ok] at h
        obtain ⟨σ₁, hstep, h⟩ := h
        exact (Transition.Run.tail (.refl _) (sound σ l checked) hstep).trans (ih h)
      · cases h

/-- A test that a list of actions, each of which meets the condition where it is taken, ends
in a system with a property. -/
theorem exists_reachableWhen {cfg : Cfg} {P : Sys → Env × Action → Prop}
    (ls : List (Env × Action)) (check : Sys → Env × Action → Bool)
    (sound : ∀ σ l, check σ l = true → P σ l) {p : Sys → Prop} [DecidablePred p]
    (h : (execWhen cfg check ls {}).toOption.any fun σ => p σ) :
    ∃ σ, ReachableBy cfg P σ ∧ p σ := by
  cases hx : execWhen cfg check ls {} with
  | error e => simp [hx, Except.toOption] at h
  | ok σ =>
      simp only [hx, Except.toOption, Option.any_some, decide_eq_true_eq] at h
      exact ⟨σ, run_of_execWhen sound hx, h⟩

/-- The systems along a list of actions. -/
def trace (cfg : Cfg) : List (Env × Action) → Sys → ℕ → Sys
  | [], σ, _ => σ
  | _ :: _, σ, 0 => σ
  | l :: ls, σ, n + 1 =>
      match step cfg l.1 σ l.2 with
      | .ok σ => trace cfg ls σ n
      | .error _ => σ

theorem trace_zero (cfg : Cfg) (ls : List (Env × Action)) (σ : Sys) : trace cfg ls σ 0 = σ := by
  cases ls <;> rfl

/-- A list of actions, each of which meets the condition where it is taken, is a history. -/
theorem history_of_execWhen {cfg : Cfg} {P : Sys → Env × Action → Prop}
    (ls : List (Env × Action)) (check : Sys → Env × Action → Bool)
    (sound : ∀ σ l, check σ l = true → P σ l)
    (h : (execWhen cfg check ls {}).toOption.isSome = true) :
    History cfg P (trace cfg ls {}) ls.length := by
  refine ⟨trace_zero cfg ls {}, ?_⟩
  generalize ({} : Sys) = σ at h
  induction ls generalizing σ with
  | nil =>
      intro n hn
      cases hn
  | cons l ls ih =>
      rw [execWhen] at h
      split at h
      · rename_i checked
        cases hstep : step cfg l.1 σ l.2 with
        | error e =>
            rw [hstep] at h
            cases h
        | ok σ₁ =>
            rw [hstep] at h
            intro n hn
            cases n with
            | zero =>
                refine ⟨l, sound σ l checked, ?_⟩
                simp only [trace, hstep, trace_zero]
                exact hstep
            | succ n =>
                obtain ⟨l', ok, next⟩ := ih σ₁ h n (by simpa using hn)
                refine ⟨l', ?_, ?_⟩
                · simpa only [trace, hstep] using ok
                · simpa only [trace, hstep] using next
      · cases h

/-- A test that a step ends in a system with a property. -/
theorem exists_step {cfg : Cfg} {σ : Sys} {l : Env × Action} {p : Sys → Prop} [DecidablePred p]
    (h : (step cfg l.1 σ l.2).toOption.any fun σ' => p σ') : ∃ σ', Step cfg σ l σ' ∧ p σ' := by
  cases hx : step cfg l.1 σ l.2 with
  | error e => simp [hx, Except.toOption] at h
  | ok σ' =>
      simp only [hx, Except.toOption, Option.any_some, decide_eq_true_eq] at h
      exact ⟨σ', hx, h⟩

theorem exists_reachable {cfg : Cfg} (ls : List (Env × Action)) {p : Sys → Prop}
    [DecidablePred p] (h : (exec cfg ls {}).toOption.any fun σ => p σ) :
    ∃ σ, Reachable cfg σ ∧ p σ :=
  exists_reachableBy ls (fun _ _ _ => trivial) h

end Omd
