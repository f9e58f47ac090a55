import Omd.Waiting

/-!
# Requests that were answered

A call with a request identifier takes effect once.  The row of an answered request keeps
its answer along every run, until its time to live is over or the row is dropped with the
claim it stands for; and as long as the row is there, every other call under the identifier
leaves the store as it is.
-/

namespace Omd

open Lib

variable {cfg : Cfg} {env : Env} {now t : Time} {σ σ' : Sys} {c : Scope} {E : TaskId → Prop}
  {s s' : Store} {r : Reply}

/-! ## What a call passes to the wrapper -/

/-- The exact envelope of a request: its identifier, and the agent and the arguments that its
row has to carry. -/
structure Envelope where
  id : RequestId
  agent : Option AgentId
  args : IdemArgs

variable {q q' : Envelope}

/-- The request of a verb that is one critical section. -/
def Verb.envelope (cfg : Cfg) : Verb → Option Envelope
  | .claim c =>
      match c.validate cfg with
      | .error _ => none
      | .ok c => c.requestId.map fun id => ⟨id, some c.agentId, c.idemArgs⟩
  | .rolloverClaim prior agent expected bailEpoch id =>
      some ⟨id, some agent, .rollover_claim prior expected bailEpoch⟩
  | .cancelWait orbit agent generation bailEpoch id =>
      id.map fun id => ⟨id, some agent, .cancel_wait orbit generation bailEpoch⟩
  | .renew orbit agent fence ttl id _ => id.map fun id => ⟨id, some agent, .renew orbit fence ttl⟩
  | .release orbit agent fence id _ => id.map fun id => ⟨id, some agent, .release orbit fence⟩
  | .start task agent id _ => id.map fun id => ⟨id, some agent, .start task⟩
  | .commit task msg agent fence id _ _ => id.map fun id => ⟨id, agent, .commit task msg fence⟩
  | .finish task agent fence id _ => id.map fun id => ⟨id, agent, .finish task fence⟩
  | .cancel task id => id.map fun id => ⟨id, some task, .cancel task⟩
  | .readRefresh task agent fence id _ => id.map fun id => ⟨id, agent, .read_refresh task fence⟩
  | .barrierAbort name agent id _ => id.map fun id => ⟨id, agent, .barrier_abort name⟩
  | .barrierConsume name agent id _ => id.map fun id => ⟨id, agent, .barrier_consume name⟩
  | .flagSet key value agent type _ id _ =>
      id.map fun id => ⟨id, agent, .flag_set key value (type = .EPHEMERAL)⟩
  | .flagClear key agent id _ => id.map fun id => ⟨id, agent, .flag_clear key⟩
  | .acquire a => a.requestId.map fun id => ⟨id, some a.agentId, a.idemArgs⟩
  | .semRelease permit agent fence id _ =>
      id.map fun id => ⟨id, some agent, .sem_release permit fence⟩
  | .declare _ | .depend .. | .heartbeat .. | .reclaimZombies | .sweep | .nextTask
  | .barrierDeclare .. | .barrierStatus _ | .flagWait .. | .flagWaitPoll _ | .semDeclare ..
  | .acquirePoll _ | .semStatus _ => none

/-- The request of a call of several critical sections, at the one that enters `_idem`. -/
def Proc.envelope : Proc → Option Envelope
  | .connect args .reserve => args.requestId.map fun id => ⟨id, args.agentId, args.idemArgs⟩
  | .arrive args .arrive => args.requestId.map fun id => ⟨id, some args.agentId, args.idemArgs⟩
  | .bail agent id .reclaim => id.map fun id => ⟨id, some agent, .bail agent⟩
  | _ => none

/-! ## Bodies that leave an answer -/

/-- The body of a verb never leaves its request to another critical section. -/
def Settles (x : Except Fault (Store × Result)) : Prop := ∀ p, x = .ok p → p.2.deferred = false

@[simp] theorem settles_error (e : Fault) : Settles (.error e) := by
  intro p h
  cases h

@[simp] theorem settles_ok (s : Store) (r : Result) :
    Settles (.ok (s, r)) ↔ r.deferred = false := by
  simp [Settles]

@[simp] theorem Result.set_deferred (r : Reply) : (Result.set r).deferred = false := rfl

@[simp] theorem settles_bind {α : Type} (x : Except Fault α)
    (f : α → Except Fault (Store × Result)) :
    Settles (x >>= f) ↔ ∀ a, x = .ok a → Settles (f a) := by
  cases x <;> simp [Settles, bind, Except.bind]

@[simp] theorem settles_ite (b : Prop) [Decidable b] (x y : Except Fault (Store × Result)) :
    Settles (if b then x else y) ↔ (b → Settles x) ∧ (¬ b → Settles y) := by
  by_cases h : b <;> simp [h]

section Bodies

variable {env : Env} {orbit : OrbitId} {owner : AgentId} {agent : Option AgentId}
  {task : TaskId} {name : String} {generation : ℕ} {fence epoch : Option ℕ}

theorem claimSwept_settles {c : ClaimArgs} {rollover : Option ℕ} :
    Settles (claimSwept cfg s c rollover t) := by
  unfold claimSwept
  split
  · simp
  simp only [settles_bind]
  intro generation _
  split
  · simp
  split
  · simp
  · simp [claimDecide, claimGrant, claimOverload, claimQueue]

theorem rolloverSwept_settles {epoch : ℕ} :
    Settles (rolloverSwept cfg now s orbit owner generation epoch) := by
  unfold rolloverSwept
  split <;> simp

theorem cancelWaitBody_settles {epoch : ℕ} :
    Settles (cancelWaitBody cfg now s orbit owner generation epoch) := by
  unfold cancelWaitBody
  split <;> simp

theorem renewBody_settles {ttl : ℚ} :
    Settles (renewBody now s orbit owner fence ttl epoch) := by
  unfold renewBody
  split
  · simp
  dsimp only
  split
  · simp
  simp only [settles_ite, settles_ok, Result.set_deferred, implies_true, true_and]
  intro _
  split <;> simp

theorem releaseBody_settles : Settles (releaseBody cfg now s orbit owner fence epoch) := by
  unfold releaseBody
  split
  · simp
  dsimp only
  split
  · simp
  simp only [settles_ite, settles_ok, Result.set_deferred, implies_true, true_and]
  intros
  split <;> simp

theorem startBody_settles : Settles (startBody env s task owner epoch) := by
  unfold startBody
  split
  · simp
  split
  · simp
  simp only [settles_ite, settles_bind, settles_ok, Result.set_deferred, implies_true, true_and]
  intros
  split <;> simp

theorem commitBody_settles {outcome : CommitOutcome} :
    Settles (commitBody now s task agent fence epoch outcome) := by
  unfold commitBody
  split
  · simp
  dsimp only
  split
  · simp
  split
  · simp
  split
  · simp
  split <;> simp

theorem finishBody_settles : Settles (finishBody now s task agent fence epoch) := by
  unfold finishBody
  split
  · simp
  dsimp only
  split
  · simp
  split <;> simp

theorem readRefreshBody_settles : Settles (.ok (readRefreshBody s task agent fence epoch)) := by
  unfold readRefreshBody
  split
  · simp
  split
  · simp
  dsimp only
  split
  · simp
  split
  · simp
  split <;> simp

theorem cancelBody_settles : Settles (cancelBody cfg now s task) := by
  unfold cancelBody
  split <;> simp

theorem barrierAbortBody_settles : Settles (barrierAbortBody s name agent epoch) := by
  unfold barrierAbortBody
  split
  · simp
  split <;> simp

theorem barrierConsumeBody_settles : Settles (barrierConsumeBody s name agent epoch) := by
  unfold barrierConsumeBody
  split
  · simp
  split
  · simp
  dsimp only
  split <;> simp

theorem flagSetBody_settles {value : String} {type : FlagType} {ttl : Option ℚ} :
    Settles (.ok (flagSetBody cfg now s name value agent type ttl epoch)) := by
  unfold flagSetBody
  split
  · simp
  split
  · unfold flagSetEphemeral
    split
    · simp
    dsimp only
    split
    · simp
    split <;> simp
  · unfold flagSetLatch latchFlag
    split
    · simp
    split
    · simp
    split
    · simp
    split <;> simp

theorem flagClearBody_settles : Settles (flagClearBody now s name agent epoch) := by
  unfold flagClearBody
  split
  · simp
  split
  · simp
  simp only [settles_ite, settles_ok, Result.set_deferred, implies_true, true_and]
  intros
  split <;> simp

theorem acquireBody_settles {a : AcquireArgs} : Settles (acquireBody cfg now s a) := by
  simp only [acquireBody, settles_bind]
  intro s₁ _
  split
  · simp
  split
  · simp
  unfold acquireDecide
  split
  · simp
  split
  · simp
  split <;> simp [acquireWait]

theorem semReleaseBody_settles :
    Settles (semReleaseBody cfg now s orbit owner fence epoch) := by
  unfold semReleaseBody
  split
  · simp
  split
  · simp
  simp only [settles_ite, settles_ok, Result.set_deferred, implies_true, true_and]
  intros
  split <;> simp

end Bodies

/-! ## Verbs in the wrapper -/

/-- How a verb runs with a request: a gate refuses it, its answer is repeated before the
gate, or it is a body in `_idem`. -/
inductive Wrapped (now : Time) (q : Envelope) (s : Store) (x : Except Fault (Store × Reply)) : Prop
  | refused (r : Reply) (run : x = .ok (s, r)) (refuses : r.ok = some false)
  | repeated (row : IdemRow) (r : Reply) (found : s.getIdem q.id = some row)
      (agent : row.agentId = q.agent) (args : row.argHash = q.args) (done : row.status = .DONE)
      (response : row.response = some r) (run : x = .ok (s, { r with replayed := true }))
  | body (body : Store → Except Fault (Store × Result)) (settles : ∀ s, Settles (body s))
      (run : x = do
        let r ← withIdem now s (some q.id) q.agent q.args body
        .ok (r.1, r.2.reply))

theorem claim_wrapped {c : ClaimArgs} (h : (Verb.claim c).envelope cfg = some q) :
    Wrapped now q s (claim cfg now s c) := by
  simp only [Verb.envelope] at h
  cases valid : c.validate cfg with
  | error r => simp [valid] at h
  | ok c' =>
      simp only [valid, Option.map_eq_some_iff] at h
      obtain ⟨id, request, rfl⟩ := h
      simp only [claim, Option.any_none, Bool.false_eq_true, if_false, valid, claimSection]
      cases overload : replayTerminalClaimOverload s c' with
      | some r =>
          simp only [replayTerminalClaimOverload, request, Option.bind_some] at overload
          split at overload
          · cases overload
          rename_i row found
          split at overload
          · cases overload
          rename_i same
          simp only [not_or, not_not] at same
          split at overload
          · cases overload
          rename_i response answer
          split at overload
          · cases overload
            exact .repeated row response found same.2.1 same.2.2 same.1 answer rfl
          · cases overload
      | none =>
          cases gate : taskGate s c'.taskId with
          | some r =>
              refine .refused r rfl ?_
              simp only [taskGate] at gate
              split at gate
              · cases gate
              split at gate
              · cases gate
                rfl
              split at gate
              · cases gate
              · cases gate
                rfl
          | none =>
              simp only [request]
              refine .body _ (fun s => ?_) rfl
              simp [claimSwept_settles]

theorem Wrapped.keyed {id : Option RequestId} {agent : Option AgentId} {args : IdemArgs}
    {body : Store → Except Fault (Store × Result)}
    (h : id.map (fun id => (⟨id, agent, args⟩ : Envelope)) = some q)
    (settles : ∀ s, Settles (body s)) :
    Wrapped now q s (do
      let r ← withIdem now s id agent args body
      .ok (r.1, r.2.reply)) := by
  simp only [Option.map_eq_some_iff] at h
  obtain ⟨id, rfl, rfl⟩ := h
  exact .body body settles rfl

/-- Each verb with a request is a body in the wrapper, after its gates. -/
theorem Verb.wrapped {v : Verb} (h : v.envelope cfg = some q) :
    Wrapped env.now q s (v.run cfg env s) := by
  cases v with
  | claim c => exact claim_wrapped h
  | rolloverClaim prior agent expected epoch id =>
      cases h
      simp only [Verb.run, Omd.rolloverClaim]
      split
      · exact .refused _ rfl rfl
      split
      · exact .refused _ rfl rfl
      split
      · exact .refused _ rfl rfl
      split
      · exact .refused _ rfl rfl
      split
      · exact .refused _ rfl rfl
      · refine .body _ (fun s => ?_) rfl
        simp [rolloverSwept_settles]
  | cancelWait orbit agent generation epoch id =>
      simp only [Verb.run, Omd.cancelWait]
      split
      · exact .refused _ rfl rfl
      split
      · exact .refused _ rfl rfl
      · exact .keyed h fun _ => cancelWaitBody_settles
  | renew orbit agent fence ttl id epoch =>
      simp only [Verb.run, Omd.renew]
      split
      · exact .refused _ rfl rfl
      · exact .keyed h fun _ => renewBody_settles
  | commit task msg agent fence id epoch outcome =>
      simp only [Verb.run, Omd.commit]
      split
      · exact .refused _ rfl rfl
      · exact .keyed h fun _ => commitBody_settles
  | release => exact .keyed h fun _ => releaseBody_settles
  | start => exact .keyed h fun _ => startBody_settles
  | finish => exact .keyed h fun _ => finishBody_settles
  | cancel => exact .keyed h fun _ => cancelBody_settles
  | readRefresh => exact .keyed h fun _ => readRefreshBody_settles
  | barrierAbort => exact .keyed h fun _ => barrierAbortBody_settles
  | barrierConsume => exact .keyed h fun _ => barrierConsumeBody_settles
  | flagSet => exact .keyed h fun _ => flagSetBody_settles
  | flagClear => exact .keyed h fun _ => flagClearBody_settles
  | acquire => exact .keyed h fun _ => acquireBody_settles
  | semRelease => exact .keyed h fun _ => semReleaseBody_settles
  | _ => cases h

/-! ## Rows that keep an answer -/

/-- The request was answered at a time, and its row is there. -/
def Store.Recalls (s : Store) (q : Envelope) (r : Reply) (t : Time) : Prop :=
  ∃ row ∈ s.idempotency, row.requestId = q.id ∧ row.agentId = q.agent ∧ row.argHash = q.args ∧
    row.status = .DONE ∧ row.response = some r ∧ row.completedAt = some t

/-- A change keeps the answer, unless its time is over or its request is forgotten. -/
theorem Store.Recalls.micro (h : s.Recalls q r t)
    (young : ∀ ttl, c.cfg.idemTtl = some ttl → c.now ≤ t + ttl)
    (kept : ¬ c.may (.forget q.id)) (step : Micro c E s s') : s'.Recalls q r t := by
  obtain ⟨row, hrow, id, agent, args, done, answer, completed⟩ := h
  refine ⟨row, ?_, id, agent, args, done, answer, completed⟩
  cases step with
  | request change frame =>
      cases change with
      | reserve _ _ _ _ rows =>
          rw [rows]
          simp [hrow]
      | update p f step rows =>
          rw [rows, List.mem_map]
          refine ⟨row, hrow, if_neg fun hit => ?_⟩
          cases step row hrow hit <;> simp_all
      | drop p step rows =>
          rw [rows, List.mem_filter]
          refine ⟨hrow, ?_⟩
          by_contra hit
          simp only [Bool.not_eq_true', Bool.not_eq_false] at hit
          cases step row hrow hit with
          | unanswered inflight => simp [done] at inflight
          | expired limit _ at' old =>
              rw [completed, Option.some.injEq] at at'
              subst at'
              have := young _ limit
              linarith
          | forgotten may => exact kept (id ▸ may)
  | frame frame | enroll _ _ _ _ frame | agent _ _ _ _ frame | orbit _ _ _ _ _ _ frame
  | insert _ _ _ _ _ _ _ _ frame | reject _ _ _ _ frame | summary _ _ _ frame | task _ _ _ frame
  | declare _ _ frame | publish _ _ _ frame | waiters _ frame
  | slots _ _ _ _ frame | flags _ frame | arm _ _ _ _ _ _ _ _ frame | trip _ _ _ frame
  | stamp _ frame | archiveTasks _ _ _ _ frame | archiveOrbits _ _ _ frame =>
      rw [frame.idempotency]
      exact hrow

/-- The step leaves the answer of a request that was given at a time alone. -/
def Recalled (cfg : Cfg) (id : RequestId) (t : Time) (σ : Sys) (l : Env × Action) : Prop :=
  ¬ Forgets σ l.2 id ∧ ∀ ttl, cfg.idemTtl = some ttl → l.1.now ≤ t + ttl

/-- Of the verbs, only a rollover and a cancellation drop a request. -/
theorem Forgets.call {v : Verb} {id : RequestId} (h : Forgets σ (.call v) id) :
    (∃ prior agent expected epoch rid, v = .rolloverClaim prior agent expected epoch rid) ∨
      ∃ task rid, v = .cancel task rid := by
  cases h with
  | rollover h => exact .inl ⟨_, _, _, _, _, Action.call.inj h⟩
  | cancel h => exact .inr ⟨_, _, Action.call.inj h⟩
  | repair h =>
      cases h with
      | action h => cases h
      | connect h | arrive h | bail h =>
          obtain ⟨_, h, -⟩ := h
          cases h

theorem Store.Recalls.step {l : Env × Action} (h : σ.store.Recalls q r t) (ok : σ.Ok)
    (recalled : Recalled cfg q.id t σ l) (next : Step cfg σ l σ') : σ'.store.Recalls q r t := by
  refine (step_spec ok next).1.invariant (I := fun s => s.Recalls q r t) ?_ ok.store h
  intro may E s s' licensed _ ih change
  refine ih.micro recalled.2 (fun hd => ?_) change
  cases licensed _ hd with
  | forget forgets => exact recalled.1 forgets

/-- A run of such steps leaves it alone. -/
theorem Store.Recalls.run (h : σ.store.Recalls q r t) (ok : σ.Ok)
    (run : Transition.Run (Step cfg) (Recalled cfg q.id t) σ σ') :
    σ'.Ok ∧ σ'.store.Recalls q r t := by
  refine run.invariant (I := fun τ => τ.Ok ∧ τ.store.Recalls q r t) ?_ ⟨ok, h⟩
  intro τ l τ' ih recalled next
  exact ⟨(step_spec ih.1 next).2, ih.2.step ih.1 recalled next⟩

/-! ## Calls under an identifier that was answered -/

/-- The wrapper answers from the row, and refuses a request other than the one it keeps. -/
theorem Store.Recalls.enterIdem (h : s.Recalls q r t) (ok : s.Ok) (same : q'.id = q.id) :
    ∃ r', Omd.enterIdem s q'.id q'.agent q'.args = .ok (.inl r') ∧
      (q' = q ∧ r' = { r with replayed := true } ∨ r'.ok = some false) := by
  obtain ⟨row, hrow, id, agent, args, done, answer, -⟩ := h
  have found : s.getIdem q'.id = some row := ok.getIdem.mpr ⟨hrow, id.trans same.symm⟩
  unfold Omd.enterIdem
  split
  · exact ⟨_, rfl, .inr rfl⟩
  simp only [found]
  by_cases other : row.agentId ≠ q'.agent ∨ row.argHash ≠ q'.args
  · simp only [other, if_true]
    exact ⟨_, rfl, .inr rfl⟩
  · simp only [other, if_false, done, answer, Option.getD_some]
    simp only [not_or, not_not] at other
    refine ⟨_, rfl, .inl ⟨?_, rfl⟩⟩
    cases q
    cases q'
    simp_all

theorem Store.Recalls.withIdem (now : Time) (body : Store → Except Fault (Store × Result))
    (h : s.Recalls q r t) (ok : s.Ok) (same : q'.id = q.id) :
    ∃ r', Omd.withIdem now s (some q'.id) q'.agent q'.args body = .ok (s, .set r') ∧
      (q' = q ∧ r' = { r with replayed := true } ∨ r'.ok = some false) := by
  obtain ⟨r', entered, answer⟩ := h.enterIdem ok same
  refine ⟨r', ?_, answer⟩
  simp only [Omd.withIdem, entered, Outcome.ok_bind]

/-- A verb under the identifier leaves the store as it is. -/
theorem Store.Recalls.verb {v : Verb} (h : s.Recalls q r t) (ok : s.Ok)
    (request : v.envelope cfg = some q') (same : q'.id = q.id) :
    ∃ r', v.run cfg env s = .ok (s, r') ∧
      (q' = q ∧ r' = { r with replayed := true } ∨ r'.ok = some false) := by
  cases (Verb.wrapped request : Wrapped env.now q' s (v.run cfg env s)) with
  | refused r' run refuses => exact ⟨r', run, .inr refuses⟩
  | repeated row r' found agent args done response run =>
      obtain ⟨row', hrow', id', agent', args', -, answer', -⟩ := h
      have found' := ok.getIdem.mpr ⟨hrow', id'.trans same.symm⟩
      rw [found, Option.some.injEq] at found'
      subst found'
      refine ⟨_, run, .inl ⟨?_, ?_⟩⟩
      · cases q
        cases q'
        simp_all
      · simp_all
  | body body settles run =>
      obtain ⟨r', answered, answer⟩ := h.withIdem env.now body ok same
      rw [answered, Outcome.ok_bind] at run
      exact ⟨r', run, answer⟩

/-- A call of several critical sections ends where it enters the wrapper. -/
theorem Store.Recalls.proc {p : Proc} {input : Input} (h : s.Recalls q r t) (ok : s.Ok)
    (request : p.envelope = some q') (same : q'.id = q.id) :
    ∃ p', procStep cfg env input s p = .ok (s, p') ∧ p'.ended = true := by
  unfold Proc.envelope at request
  split at request
  · rename_i args
    simp only [Option.map_eq_some_iff] at request
    obtain ⟨id, hid, rfl⟩ := request
    refine ⟨.connect args .ended, ?_, rfl⟩
    simp only [procStep, connectStep, connectReserve, hid]
    obtain ⟨r', answered, -⟩ := h.withIdem env.now _ ok same
    rw [answered]
    rfl
  · rename_i args
    simp only [Option.map_eq_some_iff] at request
    obtain ⟨id, hid, rfl⟩ := request
    refine ⟨.arrive args .ended, ?_, rfl⟩
    obtain ⟨r', entered, -⟩ := h.enterIdem ok same
    simp only [procStep, arriveStep, barrierArrive, hid, entered, Outcome.ok_bind]
  · rename_i agent id
    simp only [Option.map_eq_some_iff] at request
    obtain ⟨id, rfl, rfl⟩ := request
    refine ⟨.bail agent (some id) .ended, ?_, rfl⟩
    simp only [procStep, bailStep, bail]
    obtain ⟨r', answered, -⟩ := h.withIdem env.now _ ok same
    rw [answered]
    rfl
  · cases request

/-! ## The first answer -/

/-- The exit of the wrapper writes the answer into the row that is in flight. -/
theorem exitIdem_recalls {result : Result} (settled : result.deferred = false)
    (success : result.reply.isSuccess = true)
    (h : exitIdem now s q.id q.agent q.args result = .ok s') :
    s'.Recalls q result.reply now := by
  simp only [exitIdem, settled, Bool.false_eq_true, if_false, success, or_true, if_true] at h
  split at h
  · cases h
  rename_i finished
  cases h
  simp only [Store.finishIdemExact, Store.updateIdem] at finished
  split at finished
  · rename_i inflight
    cases finished
    obtain ⟨row, hrow, hit⟩ := List.any_eq_true.mp inflight
    have exact := idemExact_iff.mp hit
    refine ⟨_, List.mem_map_of_mem hrow, ?_⟩
    simp [hit, exact]
  · cases finished

/-- A verb that succeeds with a reply of its own leaves that reply under its request. -/
theorem Verb.recalls {v : Verb} (request : v.envelope cfg = some q)
    (h : v.run cfg env s = .ok (s', r)) (success : r.isSuccess = true)
    (new : r.replayed = false) : s'.Recalls q r env.now := by
  cases (Verb.wrapped request : Wrapped env.now q s (v.run cfg env s)) with
  | refused r' run refuses =>
      rw [run] at h
      cases h
      simp [Reply.isSuccess, refuses] at success
  | repeated row r' _ _ _ _ _ run =>
      rw [run] at h
      cases h
      simp at new
  | body body settles run =>
      rw [run, Outcome.bind_eq_ok] at h
      obtain ⟨⟨s₁, result⟩, h, left⟩ := h
      cases left
      unfold withIdem at h
      dsimp only at h
      rw [Outcome.bind_eq_ok] at h
      obtain ⟨hit, entered, h⟩ := h
      cases hit with
      | inl r' =>
          cases h
          rcases enterIdem_hit entered with ⟨refuses, -⟩ | ⟨row, -, -, -, -, replay⟩
          · simp [Result.set, Reply.isSuccess, refuses] at success
          · simp [Result.set, replay] at new
      | inr s₂ =>
          dsimp only at h
          rw [Outcome.bind_eq_ok] at h
          obtain ⟨⟨s₃, result'⟩, ran, h⟩ := h
          rw [Outcome.bind_eq_ok] at h
          obtain ⟨s₄, left, h⟩ := h
          cases h
          exact exitIdem_recalls (settles s₂ (s₃, result') ran) success left

/-! ## Once -/

/-- A call that succeeded takes effect once.  Within its time to live, and while its row is
not dropped with its claim, every other call under its identifier leaves the store as it is;
a verb answers what the first call was answered, if its envelope is the same, or refuses. -/
theorem call_once {v : Verb} (reach : Reachable cfg σ) (request : v.envelope cfg = some q)
    (first : v.run cfg env σ.store = .ok (s, r)) (success : r.isSuccess = true)
    (new : r.replayed = false)
    (run : Transition.Run (Step cfg) (Recalled cfg q.id env.now) { σ with store := s } σ') :
    (∀ (env' : Env) (v' : Verb) (q' : Envelope), v'.envelope cfg = some q' → q'.id = q.id →
      ∃ r', v'.run cfg env' σ'.store = .ok (σ'.store, r') ∧
        (q' = q ∧ r' = { r with replayed := true } ∨ r'.ok = some false)) ∧
    ∀ (env' : Env) (input : Input) (p : Proc) (q' : Envelope), p.envelope = some q' →
      q'.id = q.id → ∃ p', procStep cfg env' input σ'.store p = .ok (σ'.store, p') ∧
        p'.ended = true := by
  have next : Step cfg σ (env, .call v) { σ with store := s } := by
    simp [Step, step, first, Outcome.ok_bind]
  have ok := (step_spec reach.ok next).2
  have recalls : s.Recalls q r env.now := Verb.recalls request first success new
  obtain ⟨ok', kept⟩ := Store.Recalls.run (σ := { σ with store := s }) recalls ok run
  constructor
  · intro env' v' q' request' same
    exact kept.verb ok'.store request' same
  · intro env' input p q' request' same
    exact kept.proc ok'.store request' same

/-- The signal of a producer that retries its calls. -/
def latchDone : Verb := .flagSet "built" "done" none .LATCH none (some "r") none

/-- A sweep comes between the call and its retry. -/
theorem call_once_latch : ∃ s σ' r, latchDone.run {} { now := 0, instanceId := "c" } {} =
    .ok (s, { ok := some true }) ∧
      Step {} { store := s } ({ now := 5, instanceId := "c" }, .call .sweep) σ' ∧
      latchDone.run {} { now := 9, instanceId := "c" } σ'.store = .ok (σ'.store, r) := by
  have first : (latchDone.run {} { now := 0, instanceId := "c" } {}).toOption.any
      (fun p => p.2 = { ok := some true } && (step {} { now := 5, instanceId := "c" }
        { store := p.1 } (.call .sweep)).toOption.isSome) = true := by decide +kernel
  cases ran : latchDone.run {} { now := 0, instanceId := "c" } {} with
  | error e => simp [ran, Except.toOption] at first
  | ok p =>
      obtain ⟨s, r⟩ := p
      simp only [ran, Except.toOption, Option.any_some, Bool.and_eq_true,
        decide_eq_true_eq] at first
      obtain ⟨rfl, swept⟩ := first
      cases next : step {} { now := 5, instanceId := "c" } { store := s } (.call .sweep) with
      | error e => simp [next] at swept
      | ok σ' =>
          have recalled : Recalled {} "r" 0 { store := s }
              ({ now := 5, instanceId := "c" }, .call .sweep) := by
            refine ⟨fun forgets => ?_, fun ttl limit => ?_⟩
            · rcases forgets.call with ⟨_, _, _, _, _, h⟩ | ⟨_, _, h⟩ <;> cases h
            · cases limit
              norm_num
          have step : Step {} { store := s } ({ now := 5, instanceId := "c" }, .call .sweep) σ' :=
            next
          obtain ⟨r, again, -⟩ := (call_once (σ := {}) (.refl _) rfl ran rfl rfl
            (.tail (.refl _) recalled step)).1 { now := 9, instanceId := "c" } latchDone _ rfl rfl
          exact ⟨s, σ', r, rfl, step, again⟩

end Omd
