import Omd.Licences

/-!
# What a step does to the store

Every step is a run of moves under the licences of its action, in which no agent is
reclaimed after the first request is admitted; the two cuts that open an attempt end with
the group that opens it.
-/

namespace Omd

open Lib

variable {cfg : Cfg} {env : Env} {σ σ' : Sys} {a : Action} {s s' : Store}

/-! ## Sweeping -/

theorem Before.agents : Before cfg env σ a .agents := ⟨.agents, by simp⟩

theorem After.agents : After cfg env σ a .agents := ⟨.agents, by simp⟩

theorem After.admission (h : Admits σ a) : After cfg env σ a .admission := ⟨.admission h, by simp⟩

theorem NamesRequest.after {id : RequestId} (h : NamesRequest σ a id) :
    After cfg env σ a (.name id) :=
  ⟨.name h, by simp⟩

/-- The agents that a sweeping action finds silent. -/
theorem Sweeps.stale (h : Sweeps σ a) {agent : AgentId}
    (stale : σ.store.Stale cfg env.now agent) : Before cfg env σ a (.zombie agent) :=
  ⟨.zombie h stale.overdue, by simp⟩

/-- A sweep may reclaim the agents that are silent. -/
theorem Sweeps.overdue (h : Sweeps σ a) {agent : AgentId}
    (overdue : σ.store.Overdue cfg env.now agent) : Before cfg env σ a (.zombie agent) :=
  ⟨.zombie h overdue, by simp⟩

theorem Collects.archive (h : Collects σ a) : Collecting (Before cfg env σ a) :=
  ⟨⟨.lapse h, by simp⟩, fun _ => ⟨.archive h, by simp⟩⟩

theorem Answers.before {id : RequestId} {args : IdemArgs} {r : Reply}
    (h : Answers cfg env σ a id args r) : Before cfg env σ a (.answer id args r) :=
  ⟨.answer h, by simp⟩

theorem Answers.after {id : RequestId} {args : IdemArgs} {r : Reply}
    (h : Answers cfg env σ a id args r) : After cfg env σ a (.answer id args r) :=
  ⟨.answer h, by simp⟩

theorem Forgets.before {id : RequestId} (h : Forgets σ a id) :
    Before cfg env σ a (.forget id) := ⟨.forget h, by simp⟩

theorem Forgets.after {id : RequestId} (h : Forgets σ a id) :
    After cfg env σ a (.forget id) := ⟨.forget h, by simp⟩

/-! ## The verbs -/

/-- The effect of a verb. -/
theorem verb_phases {v : Verb} {r : Reply} (h : v.run cfg env σ.store = .ok (s', r))
    (ok : σ.store.Ok) :
    Phases cfg env.now (Before cfg env σ (.call v)) (After cfg env σ (.call v)) σ.store s' := by
  have one (h : Takes ⟨cfg, env.now, Before cfg env σ (.call v)⟩ σ.store s') :
      Phases cfg env.now (Before cfg env σ (.call v)) (After cfg env σ (.call v)) σ.store s' :=
    h.phases _ ok
  have given {x : Store × Reply} (hx : (Except.ok x : Except Fault _) = .ok (s', r))
      (h : Takes ⟨cfg, env.now, Before cfg env σ (.call v)⟩ σ.store x.1) :
      Phases cfg env.now (Before cfg env σ (.call v)) (After cfg env σ (.call v)) σ.store s' := by
    cases hx
    exact one h
  have sweeps (hv : v.sweeps = true) : Sweeps σ (.call v) := .verb rfl hv
  have collects (hv : v.sweeps = true) : Collects σ (.call v) := .verb rfl hv
  have answer {id : RequestId} {args : IdemArgs} (hv : v.request = some (id, args))
      (success : r.isSuccess = true) : Before cfg env σ (.call v) (.answer id args r) :=
    Answers.before (.verb rfl hv h success)
  cases v with
  | declare d =>
      exact given h (declare_takes d ⟨.declare rfl, by simp⟩)
  | depend task after =>
      exact given h (depend_takes task after fun t ht hid =>
        ⟨.depend rfl ht hid, by simp⟩)
  | claim c =>
      have admits : Admits σ (.call (.claim c)) := .claim rfl
      exact claim_phases Before.agents After.agents (.admission admits)
        (fun id hid => Or.inl (NamesRequest.claim rfl hid).after)
        (fun _ => (collects rfl).archive) (fun _ _ stale => (sweeps rfl).stale stale)
        (fun id args hid verb settled => (Answers.claim rfl hid verb h settled).after)
        (by simp) (by simp) h ok
  | rolloverClaim prior agent expected epoch id =>
      have admits : Admits σ (.call (.rolloverClaim prior agent expected epoch id)) :=
        .rollover rfl
      exact rolloverClaim_phases Before.agents After.agents (.admission admits)
        (collects rfl).archive (fun _ stale => (sweeps rfl).stale stale)
        (fun o ho key id hid => (Forgets.rollover rfl ho key hid).after)
        (fun o ho key id args r hid verb settled =>
          (Answers.nested rfl ho key hid verb settled).after)
        (Answers.rollover rfl h).after h ok
  | cancelWait orbit agent generation epoch id =>
      refine one (cancelWait_takes Before.agents (fun _ h => (sweeps rfl).overdue h)
        (fun id hid success => answer (by rw [Verb.request, hid]; rfl) success) h)
  | renew orbit agent fence ttl id epoch =>
      exact one (renew_takes Before.agents ⟨.renew rfl, by simp⟩
        (fun id hid success => answer (by rw [Verb.request, hid]; rfl) success) h)
  | release orbit agent fence id epoch =>
      exact one (release_takes Before.agents (fun _ h => (sweeps rfl).overdue h)
        ⟨.release rfl, by simp⟩
        (fun id hid success => answer (by rw [Verb.request, hid]; rfl) success) h)
  | heartbeat agent ttl =>
      exact given h (heartbeat_takes Before.agents fun id => ⟨.heartbeat rfl, by simp⟩)
  | reclaimZombies =>
      rw [Verb.run, Outcome.bind_eq_ok] at h
      obtain ⟨s₁, h₁, h⟩ := h
      cases h
      exact one (reclaimZombiesNow_takes Before.agents (fun _ h => (sweeps rfl).stale h) h₁)
  | sweep =>
      rw [Verb.run, Outcome.bind_eq_ok] at h
      obtain ⟨s₁, h₁, h⟩ := h
      cases h
      exact one (sweepInline_takes Before.agents (collects rfl).archive
        (fun _ h => (sweeps rfl).stale h) h₁)
  | nextTask =>
      exact one (nextTask_takes Before.agents (collects rfl).archive
        (fun _ h => (sweeps rfl).stale h) h)
  | start task agent id epoch =>
      exact one (start_takes Before.agents ⟨.start rfl, by simp⟩ rfl
        (fun id hid success => answer (by rw [Verb.request, hid]; rfl) success) h)
  | commit task msg agent fence id epoch outcome =>
      exact one (commit_takes Before.agents rfl
        (fun id hid success => answer (by rw [Verb.request, hid]; rfl) success) h)
  | finish task agent fence id epoch =>
      exact one (finish_takes Before.agents
        (fun finishes => ⟨.mark (.finish rfl finishes), by simp⟩)
        (fun id hid success => answer (by rw [Verb.request, hid]; rfl) success) h)
  | cancel task id =>
      exact one (cancel_takes Before.agents (fun _ h => (sweeps rfl).stale h)
        ⟨.cancel rfl, by simp⟩ ⟨.close rfl, by simp⟩
        (fun o ho kind task id hid => (Forgets.cancel rfl ho kind task hid).before)
        (fun id hid success => answer (by rw [Verb.request, hid]; rfl) success) h)
  | readRefresh task agent fence id epoch =>
      exact one (readRefresh_takes ⟨.refresh rfl, by simp⟩
        (fun id hid success => answer (by rw [Verb.request, hid]; rfl) success) h)
  | barrierDeclare name tasks policy timeout =>
      exact given h (barrierDeclare_takes ⟨.arm rfl, by simp⟩)
  | barrierAbort name agent id epoch =>
      exact one (barrierAbort_takes
        (fun id hid success => answer (by rw [Verb.request, hid]; rfl) success) h)
  | barrierConsume name agent id epoch =>
      exact one (barrierConsume_takes
        (fun id hid success => answer (by rw [Verb.request, hid]; rfl) success) h)
  | barrierStatus name =>
      exact one (barrierStatus_takes Before.agents (collects rfl).archive
        (fun _ h => (sweeps rfl).stale h) h)
  | flagSet key value agent type ttl id epoch =>
      exact one (flagSet_takes Before.agents ⟨.signal rfl rfl, by simp⟩
        (by rintro rfl; exact ⟨.own rfl, by simp⟩) (by rintro rfl; exact ⟨.set rfl, by simp⟩)
        (fun id hid success => answer (by rw [Verb.request, hid]; rfl) success) h)
  | flagClear key agent id epoch =>
      exact one (flagClear_takes
        (fun id hid success => answer (by rw [Verb.request, hid]; rfl) success) h)
  | flagWait key want timeout agent =>
      exact given h (flagWait_keeps (c := ⟨cfg, env.now, _⟩) ⟨.signal rfl rfl, by simp⟩).takes
  | flagWaitPoll waiter =>
      exact one (flagWaitPoll_takes Before.agents (collects rfl).archive
        (fun _ h => (sweeps rfl).stale h) (fun w row waiting => ⟨.poll rfl row waiting, by simp⟩) h)
  | semDeclare sem max =>
      exact given h (semDeclare_takes ⟨.slots rfl, by simp⟩)
  | acquire q =>
      exact one (acquire_takes Before.agents (collects rfl).archive (fun may => may.2.2 _ rfl)
        (fun _ h => (sweeps rfl).stale h)
        (fun id s₁ s₂ r₁ hid enter body reply success =>
          (Answers.acquire rfl hid enter body reply h success).before) h)
  | acquirePoll waiter =>
      exact one (acquirePoll_takes Before.agents (collects rfl).archive
        (fun _ h => (sweeps rfl).stale h) h)
  | semRelease permit agent fence id epoch =>
      exact one (semRelease_takes
        (by rintro p hp rfl owner; exact ⟨.yield rfl hp owner, by simp⟩)
        (fun id hid success => answer (by rw [Verb.request, hid]; rfl) success) h)
  | semStatus sem =>
      exact one (semStatus_takes Before.agents (collects rfl).archive
        (fun _ h => (sweeps rfl).stale h) h)

/-! ## The calls -/

/-- The attempt a call drives: the repository and the executor speak of the same one. -/
structure Intent.Drawn (s : Store) (i : Intent) : Prop where
  drawn : i.attemptId < s.uuid
  agree : ∀ t ∈ s.tasks, t.state = .CONNECTING → t.connectAttemptId = some i.attemptId →
    t.attempt.2 = i.attempt.2

/-- The intent of a call between its Phase A and its Phase C. -/
def Proc.intent : Proc → Option Intent
  | .connect _ (.phaseC i) | .arrive _ (.phaseC _ _ i) => some i
  | _ => none

/-- The trip a call drives. -/
def TripPc.trip : TripPc → Option Trip
  | .next trip | .phaseC trip _ _ | .broken trip | .raised trip | .complete trip _ => some trip
  | _ => none

/-- The licences of an action before it admits, as a scope. -/
abbrev Sys.scope (σ : Sys) (cfg : Cfg) (env : Env) (a : Action) : Scope :=
  ⟨cfg, env.now, Before cfg env σ a⟩

/-- The action opens an attempt of the task in the store it has made so far: a Phase A. -/
structure Opens (cfg : Cfg) (env : Env) (σ : Sys) (a : Action) (t : Task) (i : Intent)
    (s₁ s' : Store) : Prop where
  before : Moves (σ.scope cfg env a) σ.store s₁
  opened : OpenedBy (σ.scope cfg env a) t i s₁ s'
  cut : (∃ c input, σ.Cut a (.connect c .phaseA) input ∧ c.taskId = t.taskId ∧
      ghostReads s₁ t = []) ∨
    ∃ q trip step rest input, σ.Cut a (.arrive q (.next trip)) input ∧
      trip.plan = step :: rest ∧ step.taskId = t.taskId

theorem Moves.drawn {c : Scope} {i : Intent} (h : Moves c s s') (ok : s.Ok) (drawn : i.Drawn s) :
    i.Drawn s' := by
  have uuid : s.uuid ≤ s'.uuid := by
    refine (Moves.invariant (I := fun s₁ => s.uuid ≤ s₁.uuid) ?_ h ok le_rfl).2
    intro s₁ s₂ _ ih move
    obtain ⟨_, _, -, run⟩ := move.micros
    exact ih.trans (Micros.uuid run)
  refine ⟨drawn.drawn.trans_le uuid, fun t' ht' connecting attempt => ?_⟩
  obtain ⟨t, ht, h⟩ := h.continues ok t' ht' connecting id
  exact h.evidence.trans (drawn.agree t ht h.state (h.attempt.symm.trans attempt))

theorem OpenedBy.drawn {c : Scope} {t : Task} {i j : Intent} (h : OpenedBy c t i s s') (ok : s.Ok)
    (drawn : j.Drawn s) : j.Drawn s' := by
  refine ⟨drawn.drawn.trans h.opened.drawn, fun t' ht' connecting attempt => ?_⟩
  by_cases hid : t'.taskId = t.taskId
  · obtain ⟨-, -, new⟩ := h.opened.bound t' ht' hid
    rw [new] at attempt
    exact absurd (Option.some.inj attempt) drawn.drawn.ne'
  · obtain ⟨t₀, ht₀, h₀⟩ := h.opened.run.continues ok t' ht' connecting hid
    exact h₀.evidence.trans (drawn.agree t₀ ht₀ h₀.state (h₀.attempt.symm.trans attempt))

theorem OpenedBy.new {c : Scope} {t : Task} {i : Intent} (h : OpenedBy c t i s s') (ok : s.Ok) :
    i.Drawn s' := by
  refine ⟨h.attempt ▸ h.opened.drawn, fun t' ht' connecting attempt => ?_⟩
  by_cases hid : t'.taskId = t.taskId
  · exact congrArg (·.2) (h.columns t' ht' hid)
  · obtain ⟨t₀, ht₀, h₀⟩ := h.opened.run.continues ok t' ht' connecting hid
    have old := ok.attempts.attemptDrawn t₀ ht₀ _ (h₀.attempt.symm.trans attempt)
    exact absurd h.attempt old.ne

/-- Recovery runs under the licences of its action. -/
theorem recovers_takes (h : Recovers σ a) (run : recover cfg env σ.store = .ok s') :
    Takes (σ.scope cfg env a) σ.store s' :=
  recover_takes Before.agents (fun _ stale => Sweeps.stale (.recovery h) stale) rfl
    (fun _ proven => ⟨.merge (Or.inl h) proven, by simp⟩)
    (fun _ verified => ⟨.rollback h verified, by simp⟩)
    (fun _ ht merged => ⟨.mark (.recovery h ht merged), by simp⟩)
    (fun _ ht aborted => ⟨.repair h ht aborted, by simp⟩)
    (fun _ ht aborted _ ho kind task _ request =>
      (Forgets.repair h ht aborted ho kind task request).before)
    (fun _ => ⟨.retry h, by simp⟩) (fun _ _ _ reply => (Answers.recovered h reply).before) run

theorem PhaseC.completes {i : Intent} {input : Input} (h : PhaseC σ a i input) :
    Completes σ a i.taskId input := by
  cases h with
  | connect h => exact .connect h rfl
  | trip h => exact .trip h rfl

/-- A Phase C runs under the licences of the cut that resumes it. -/
theorem completes_takes {i : Intent} {input : Input} {r : Reply} (sweeps : Sweeps σ a)
    (phaseC : PhaseC σ a i input) (drawn : i.Drawn σ.store)
    (h : connectPhaseC cfg env.now σ.store i (reconcileGit env.git i input.merge) = .ok (s', r)) :
    Takes (σ.scope cfg env a) σ.store s' :=
  have completes : Completes σ a i.taskId input := phaseC.completes
  connectPhaseC_takes Before.agents (fun _ stale => sweeps.stale stale)
    (fun _ proven => ⟨.merge (Or.inr ⟨_, _, completes⟩) proven, by simp⟩)
    (fun owns publishes => ⟨.mark (.phaseC phaseC owns publishes), by simp⟩)
    (fun _ verified => ⟨.undo completes verified, by simp⟩) ⟨.reopen completes, by simp⟩
    (fun t ht _ connecting attempt => drawn.agree t ht connecting (congrArg (·.1) attempt)) h

/-- What a cut leaves: moves, or an attempt that it opened. -/
inductive CutLeft (cfg : Cfg) (env : Env) (σ : Sys) (a : Action) (s' : Store) (p' : Proc) : Prop
  | quiet (moves : Moves (σ.scope cfg env a) σ.store s') (intent : p'.intent = none)
  | opens {t : Task} {i : Intent} {s₁ : Store} (opens : Opens cfg env σ a t i s₁ s')
      (intent : p'.intent = some i)

theorem connectReserve_takes {c : ConnectArgs} {r : Result} {input : Input}
    (cut : σ.Cut a (.connect c .reserve) input)
    (h : connectReserve env.now σ.store c = .ok (s', r)) :
    Takes (σ.scope cfg env a) σ.store s' := by
  refine withIdem_takes (c := σ.scope cfg env a) (fun s₁ s₂ r _ h => ?_)
    (fun id s₁ s₂ hid _ h now final => ?_) h
  · split at h
    · cases h
      exact .refl _
    · split at h <;> (cases h; exact .refl _)
  · split at h
    · cases h
      cases now
    · split at h
      · cases h
        exact (Answers.reserve cut hid rfl rfl).before
      · cases h
        cases now

/-- Phase A of a connect, after its sweep. -/
theorem connectPhaseA_left {c : ConnectArgs} {p : PhaseA} {input : Input}
    (cut : σ.Cut a (.connect c .phaseA) input) (ok : σ.store.Ok)
    (h : connectPhaseA cfg env σ.store c.taskId c.agentId c.fence c.bailEpoch c.bound =
      .ok (s', p)) :
    p.intent = none ∧ Moves (σ.scope cfg env a) σ.store s' ∨
      ∃ t i s₁, p.intent = some i ∧ Opens cfg env σ a t i s₁ s' := by
  rw [connectPhaseA, Outcome.bind_eq_ok] at h
  obtain ⟨s₁, h₁, h⟩ := h
  have sweep : Moves (σ.scope cfg env a) σ.store s₁ :=
    sweepInline_takes Before.agents (Collects.archive (.phaseA cut))
      (fun _ stale => Sweeps.stale (.phaseA cut) stale) h₁ ok
  rcases connectSwept_spec (c := σ.scope cfg env a) h (ok.moves sweep) with
    ⟨none, rest⟩ | ⟨t, i, hid, ghost, hi, opened⟩
  · exact Or.inl ⟨none, sweep.trans rest⟩
  · exact Or.inr ⟨t, i, s₁, hi, sweep, opened, Or.inl ⟨c, input, cut, hid.symm, ghost⟩⟩

/-- Each cut of a `connect` runs under the licences of its action. -/
theorem connectStep_left {c : ConnectArgs} {pc pc' : ConnectPc} {input : Input}
    (cut : σ.Cut a (.connect c pc) input) (ok : σ.store.Ok)
    (drawn : ∀ i, pc = .phaseC i → i.Drawn σ.store)
    (h : connectStep cfg env input σ.store c pc = .ok (s', pc')) :
    CutLeft cfg env σ a s' (.connect c pc') := by
  unfold connectStep at h
  split at h
  · rw [Outcome.bind_eq_ok] at h
    obtain ⟨s₁, h₁, h⟩ := h
    cases h
    exact .quiet (recovers_takes (.connect cut) h₁ ok) rfl
  · rw [Outcome.bind_eq_ok] at h
    obtain ⟨⟨s₁, r⟩, h₁, h⟩ := h
    cases h
    refine .quiet (connectReserve_takes cut h₁ ok) ?_
    split <;> rfl
  · rw [Outcome.bind_eq_ok] at h
    obtain ⟨⟨s₁, p⟩, h₁, h⟩ := h
    dsimp only at h
    rcases connectPhaseA_left cut ok h₁ with ⟨none, moves⟩ | ⟨t, i, s₂, hi, opens⟩
    · rw [none] at h
      dsimp only at h
      split at h <;> (cases h; exact .quiet moves rfl)
    · rw [hi] at h
      cases h
      exact .opens opens rfl
  · rename_i i
    rw [Outcome.bind_eq_ok] at h
    obtain ⟨⟨s₁, r⟩, h₁, h⟩ := h
    have moves := completes_takes (.phaseC cut) (.connect cut) (drawn i rfl) h₁ ok
    dsimp only at h
    split at h <;> (cases h; exact .quiet moves rfl)
  · rw [Outcome.bind_eq_ok] at h
    obtain ⟨⟨s₁, r⟩, h₁, h⟩ := h
    cases h
    exact .quiet ((completeSplitIdem_requested (c := σ.scope cfg env a)
      (fun id hid success => (Answers.connect cut hid success).before) h₁).takes ok) rfl
  · cases h
    exact .quiet .refl rfl

/-- The next task of a trip. -/
theorem tripNext_left {q : ArriveArgs} {trip : Trip} {pc' : TripPc} {input : Input}
    (cut : σ.Cut a (.arrive q (.next trip)) input) (ok : σ.store.Ok)
    (h : tripNext env input σ.store trip = .ok (s', pc')) :
    CutLeft cfg env σ a s' (.arrive q pc') := by
  rw [tripNext] at h
  split at h
  · rename_i hplan
    rw [Outcome.bind_eq_ok] at h
    obtain ⟨⟨s₁, r⟩, h₁, h⟩ := h
    cases h
    exact .quiet (finishTrip_takes (c := σ.scope cfg env a) ⟨.trip cut hplan, by simp⟩ h₁ ok) rfl
  · rename_i step rest hplan
    rw [Outcome.bind_eq_ok] at h
    obtain ⟨⟨s₁, p⟩, h₁, h⟩ := h
    dsimp only at h
    rcases barrierConnectPhaseA_spec (c := σ.scope cfg env a) h₁ ok with
      ⟨none, moves⟩ | ⟨t, i, hid, hi, opened⟩
    · rw [none] at h
      dsimp only at h
      split at h
      · cases h
        exact .quiet moves rfl
      split at h
      · cases h
        exact .quiet moves rfl
      split at h <;> (cases h; exact .quiet moves rfl)
    · rw [hi] at h
      cases h
      exact .opens ⟨.refl, opened, Or.inr ⟨q, trip, step, rest, input, cut, hplan, hid.symm⟩⟩ rfl

/-- Each cut of a `barrier_arrive` does too. -/
theorem arriveStep_left {q : ArriveArgs} {pc pc' : TripPc} {input : Input}
    (cut : σ.Cut a (.arrive q pc) input) (ok : σ.store.Ok)
    (drawn : ∀ trip task i, pc = .phaseC trip task i → i.Drawn σ.store)
    (h : arriveStep cfg env input σ.store q pc = .ok (s', pc')) :
    CutLeft cfg env σ a s' (.arrive q pc') := by
  unfold arriveStep at h
  split at h
  · rw [Outcome.bind_eq_ok] at h
    obtain ⟨s₁, h₁, h⟩ := h
    cases h
    exact .quiet (recovers_takes (.arrive cut) h₁ ok) rfl
  · rw [Outcome.bind_eq_ok] at h
    obtain ⟨⟨⟨s₁, r⟩, trip⟩, h₁, h⟩ := h
    have moves : Moves (σ.scope cfg env a) σ.store s₁ := by
      refine barrierArrive_takes Before.agents (Collects.archive (.arrive cut))
        (fun _ stale => Sweeps.stale (.arrive cut) stale)
        (fun id s₁ s₂ r trip hid enter body now success => ?_) h₁ ok
      exact (Answers.arrive cut hid enter body rfl now success).before
    dsimp only at h
    split at h <;> (cases h; exact .quiet moves rfl)
  · rename_i trip
    split at h
    · rename_i hnext
      cases h
      exact tripNext_left cut ok hnext
    · cases h
      exact .quiet .refl rfl
  · rename_i trip task i
    split at h
    · rename_i r h₁
      have moves := completes_takes (.tripC cut) (.trip cut) (drawn trip task i rfl) h₁ ok
      split at h <;> (cases h; exact .quiet moves rfl)
    · cases h
      exact .quiet .refl rfl
  · rw [Outcome.bind_eq_ok] at h
    obtain ⟨s₁, h₁, h⟩ := h
    cases h
    exact .quiet ((frame_breakTrip h₁).takes ok) rfl
  · rename_i trip
    rw [Outcome.bind_eq_ok] at h
    obtain ⟨s₁, h₁, h⟩ := h
    cases h
    exact .quiet (terminalizeTrip_takes (c := σ.scope cfg env a)
      (fun merged => ⟨.raised cut merged, by simp⟩)
      (fun id r hid ended => (Answers.raised cut hid ended).before) h₁ ok) rfl
  · rw [Outcome.bind_eq_ok] at h
    obtain ⟨⟨s₁, r⟩, h₁, h⟩ := h
    cases h
    exact .quiet ((completeSplitIdem_requested (c := σ.scope cfg env a)
      (fun id hid success => (Answers.trip cut hid success).before) h₁).takes ok) rfl
  · cases h
    exact .quiet .refl rfl

/-! ## What a trip says -/

theorem arriveBody_trip {now : Time} {q : ArriveArgs} {x : Store × Result} {trip : Trip}
    (h : arriveBody cfg now s q = .ok (x, some trip)) : trip.args = q := by
  rw [arriveBody, Outcome.bind_eq_ok] at h
  obtain ⟨s₁, -, h⟩ := h
  split at h
  · cases h
  split at h
  · cases h
  split at h
  · cases h
  · cases h
  · cases h
  · cases h
  rw [arriveArmed] at h
  split at h
  · cases h
  split at h
  · cases h
  split at h
  · cases h
  · rw [Outcome.bind_eq_ok] at h
    obtain ⟨⟨s₂, plan⟩, -, h⟩ := h
    dsimp only at h
    split at h <;> cases h
    rfl

theorem barrierArrive_trip {now : Time} {q : ArriveArgs} {x : Store × Reply} {trip : Trip}
    (h : barrierArrive cfg now s q = .ok (x, some trip)) : trip.args = q := by
  unfold barrierArrive at h
  split at h
  · rw [Outcome.bind_eq_ok] at h
    obtain ⟨⟨y, trip'⟩, h₁, h⟩ := h
    cases h
    exact arriveBody_trip h₁
  · rw [Outcome.bind_eq_ok] at h
    obtain ⟨hit, -, h⟩ := h
    cases hit with
    | inl reply => cases h
    | inr s₁ =>
        rw [Outcome.bind_eq_ok] at h
        obtain ⟨⟨y, trip'⟩, h₁, h⟩ := h
        rw [Outcome.bind_eq_ok] at h
        obtain ⟨s₃, -, h⟩ := h
        cases h
        exact arriveBody_trip h₁

/-- The reply of a trip that merged its plan. -/
theorem finishTrip_reply {trip : Trip} {r : Reply} (h : finishTrip s trip = .ok (s', r)) :
    r.isSuccess = true → r.EndedBarrier := by
  rw [finishTrip] at h
  dsimp only at h
  split at h
  · rw [Outcome.bind_eq_ok] at h
    obtain ⟨state, -, h⟩ := h
    cases h
    exact fun _ => ⟨_, rfl, by simp⟩
  · cases h
    intro success
    simp [Reply.isSuccess, tripStopped, Reply.refuse] at success

/-- A Phase A that stops a trip answers no success. -/
theorem barrierConnectPhaseA_stopped {task : TaskId} {fence : Option ℕ} {id : BarrierId}
    {generation : ℕ} {r : TripA}
    (h : barrierConnectPhaseA env s task fence id generation = .ok (s', r))
    (stopped : r.stopped = true) : r.phase.reply.isSuccess = false := by
  rw [barrierConnectPhaseA] at h
  split at h
  · cases h
    simp [Reply.isSuccess, tripStopped, Reply.refuse]
  split at h
  · cases h
    cases stopped
  split at h
  · cases h
    cases stopped
  split at h
  · cases h
    cases stopped
  · dsimp only at h
    rw [Outcome.bind_eq_ok] at h
    obtain ⟨⟨s₁, p⟩, -, h⟩ := h
    cases h
    cases stopped

/-- What a cut of a trip says of the call and of its answer. -/
structure TripPc.Ok (q : ArriveArgs) (pc : TripPc) : Prop where
  trip : ∀ trip, pc.trip = some trip → trip.args = q
  reply : ∀ trip r, pc = .complete trip r → r.isSuccess = true → r.EndedBarrier

theorem TripPc.Ok.ended (q : ArriveArgs) : TripPc.Ok q .ended :=
  ⟨fun _ h => (by cases h), fun _ _ h => (by cases h)⟩

theorem TripPc.Ok.of_trip {q : ArriveArgs} {pc : TripPc} {trip : Trip}
    (same : pc.trip = some trip) (args : trip.args = q) (open_ : ∀ trip r, pc ≠ .complete trip r) :
    TripPc.Ok q pc :=
  ⟨fun _ h => (by cases same.symm.trans h; exact args), fun trip r h => absurd h (open_ trip r)⟩

theorem TripPc.Ok.complete {q : ArriveArgs} {trip : Trip} {r : Reply} (args : trip.args = q)
    (reply : r.isSuccess = true → r.EndedBarrier) : TripPc.Ok q (.complete trip r) :=
  ⟨fun _ h => (by cases h; exact args), fun _ _ h => (by cases h; exact reply)⟩

theorem tripNext_ok {q : ArriveArgs} {trip : Trip} {pc' : TripPc} {input : Input}
    (args : trip.args = q) (h : tripNext env input s trip = .ok (s', pc')) : pc'.Ok q := by
  rw [tripNext] at h
  split at h
  · rw [Outcome.bind_eq_ok] at h
    obtain ⟨⟨s₁, r⟩, h₁, h⟩ := h
    cases h
    exact .complete args (finishTrip_reply h₁)
  · rw [Outcome.bind_eq_ok] at h
    obtain ⟨⟨s₁, p⟩, h₁, h⟩ := h
    dsimp only at h
    split at h
    · cases h
      exact .of_trip rfl args (by simp)
    · split at h
      · rename_i stopped
        cases h
        refine .complete args fun success => ?_
        rw [barrierConnectPhaseA_stopped h₁ stopped] at success
        cases success
      split at h
      · cases h
        exact .of_trip rfl args (by simp)
      split at h <;> (cases h; exact .of_trip rfl args (by simp))

theorem arriveStep_ok {q : ArriveArgs} {pc pc' : TripPc} {input : Input} (ok : pc.Ok q)
    (h : arriveStep cfg env input s q pc = .ok (s', pc')) : pc'.Ok q := by
  unfold arriveStep at h
  split at h
  · rw [Outcome.bind_eq_ok] at h
    obtain ⟨s₁, -, h⟩ := h
    cases h
    exact ⟨fun _ h => (by cases h), fun _ _ h => (by cases h)⟩
  · rw [Outcome.bind_eq_ok] at h
    obtain ⟨⟨x, trip⟩, h₁, h⟩ := h
    dsimp only at h
    split at h
    · cases h
      exact .ended q
    · cases h
      exact .of_trip rfl (barrierArrive_trip h₁) (by simp)
  · rename_i trip
    have args := ok.trip trip rfl
    split at h
    · rename_i hnext
      cases h
      exact tripNext_ok args hnext
    · cases h
      exact .of_trip rfl args (by simp)
  · rename_i trip task i
    have args := ok.trip trip rfl
    split at h
    · split at h <;> (cases h; exact .of_trip rfl args (by simp))
    · cases h
      exact .of_trip rfl args (by simp)
  · rename_i trip
    rw [Outcome.bind_eq_ok] at h
    obtain ⟨s₁, -, h⟩ := h
    cases h
    exact .complete (ok.trip trip rfl) fun success => by simp [Reply.isSuccess] at success
  · rw [Outcome.bind_eq_ok] at h
    obtain ⟨s₁, -, h⟩ := h
    cases h
    exact .ended q
  · rw [Outcome.bind_eq_ok] at h
    obtain ⟨s₁, -, h⟩ := h
    cases h
    exact .ended q
  · cases h
    exact .ended q

/-! ## The system -/

/-- What holds of a call under way. -/
structure Proc.Ok (s : Store) (p : Proc) : Prop where
  intent : ∀ i, p.intent = some i → i.Drawn s
  trip : ∀ q pc, p = .arrive q pc → pc.Ok q

/-- What holds of a system in every run. -/
structure Sys.Ok (σ : Sys) : Prop where
  store : σ.store.Ok
  procs : ∀ p ∈ σ.procs, p.Ok σ.store

/-- What a step does to the store. -/
inductive Stepped (cfg : Cfg) (env : Env) (σ : Sys) (a : Action) (s' : Store) : Prop
  | phases (h : Phases cfg env.now (Before cfg env σ a) (After cfg env σ a) σ.store s')
  | opens {t : Task} {i : Intent} {s₁ : Store} (h : Opens cfg env σ a t i s₁ s')

/-- Both halves of a step keep the invariant. -/
theorem Phases.ok {now : Time} {may may' : Deed → Prop} (h : Phases cfg now may may' s s')
    (ok : s.Ok) : s'.Ok := by
  obtain ⟨s₁, first, second⟩ := h
  exact (ok.moves first).moves second

theorem Phases.drawn {now : Time} {may may' : Deed → Prop} {i : Intent}
    (h : Phases cfg now may may' s s') (ok : s.Ok) (drawn : i.Drawn s) : i.Drawn s' := by
  obtain ⟨s₁, first, second⟩ := h
  exact second.drawn (ok.moves first) (first.drawn ok drawn)

theorem Stepped.ok (h : Stepped cfg env σ a s') (ok : σ.store.Ok) : s'.Ok := by
  cases h with
  | phases h => exact h.ok ok
  | opens h => exact (ok.moves h.before).micros h.opened.opened.run

theorem Stepped.drawn {i : Intent} (h : Stepped cfg env σ a s') (ok : σ.store.Ok)
    (drawn : i.Drawn σ.store) : i.Drawn s' := by
  cases h with
  | phases h => exact h.drawn ok drawn
  | opens h => exact h.opened.drawn (ok.moves h.before) (h.before.drawn ok drawn)

/-- The calls that a step leaves alone. -/
theorem Proc.Ok.of_stepped {p : Proc} (h : Stepped cfg env σ a s') (ok : σ.store.Ok)
    (hp : p.Ok σ.store) : p.Ok s' :=
  ⟨fun i hi => h.drawn ok (hp.intent i hi), hp.trip⟩

theorem CutLeft.stepped {p' : Proc} (h : CutLeft cfg env σ a s' p') : Stepped cfg env σ a s' := by
  cases h with
  | quiet moves => exact .phases ⟨_, moves, .refl⟩
  | opens opens => exact .opens opens

/-- The intent that a cut hands on was drawn before. -/
theorem CutLeft.intent {p' : Proc} (h : CutLeft cfg env σ a s' p') (ok : σ.store.Ok) {i : Intent}
    (hi : p'.intent = some i) : i.Drawn s' := by
  cases h with
  | quiet moves none =>
      rw [none] at hi
      cases hi
  | opens opens some =>
      cases some.symm.trans hi
      exact opens.opened.new (ok.moves opens.before)

/-- A cut of a begin. -/
theorem beginStep_stepped {b : BeginArgs} {pc pc' : BeginPc} {input : Input}
    (cut : σ.Cut a (.begin b pc) input) (ok : σ.store.Ok)
    (h : beginStep cfg env σ.store b pc = .ok (s', pc')) : Stepped cfg env σ a s' := by
  refine .phases (beginStep_phases ?_ h ok)
  refine ⟨Before.agents, ?_, ?_, ?_, ?_, ?_, ?_, ?_⟩
  · rintro legacy rfl
    exact ⟨.begin cut, by simp⟩
  · rintro legacy rfl id
    exact ⟨.liveness cut, by simp⟩
  · rintro legacy rfl
    exact Collects.archive (.batch cut)
  · rintro legacy rfl agent stale
    exact Sweeps.stale (.batch cut) stale
  · rintro legacy rfl
    exact ⟨After.agents, .admission (.batch cut),
      fun spec id hid => (NamesRequest.batch cut hid).after,
      fun spec id args r hid verb settled => (Answers.member cut hid verb settled).after⟩
  · rintro claims state rfl
    exact ⟨⟨.ready cut, by simp⟩, fun t ht hid pending blocked =>
      ⟨.overwrite cut ht hid pending blocked, by simp⟩⟩
  · rintro claims rfl
    exact ⟨⟨.begun cut, by simp⟩, fun id r hid success =>
      (Answers.start cut hid success).before⟩

/-- A cut of a call. -/
theorem procStep_stepped {p p' : Proc} {input : Input} (cut : σ.Cut a p input) (ok : σ.store.Ok)
    (hp : p.Ok σ.store) (h : procStep cfg env input σ.store p = .ok (s', p')) :
    Stepped cfg env σ a s' ∧ p'.Ok s' := by
  cases p with
  | begin b pc =>
      rw [procStep, Outcome.bind_eq_ok] at h
      obtain ⟨⟨s₁, pc'⟩, h₁, h⟩ := h
      cases h
      exact ⟨beginStep_stepped cut ok h₁, fun i hi => (by cases hi), fun q pc hq => (by cases hq)⟩
  | connect c pc =>
      rw [procStep, Outcome.bind_eq_ok] at h
      obtain ⟨⟨s₁, pc'⟩, h₁, h⟩ := h
      cases h
      have left := connectStep_left cut ok (fun i hi => hp.intent i (by rw [hi]; rfl)) h₁
      exact ⟨left.stepped, fun i hi => left.intent ok hi, fun q pc hq => (by cases hq)⟩
  | arrive q pc =>
      rw [procStep, Outcome.bind_eq_ok] at h
      obtain ⟨⟨s₁, pc'⟩, h₁, h⟩ := h
      cases h
      have left := arriveStep_left cut ok (fun trip task i hi => hp.intent i (by rw [hi]; rfl)) h₁
      refine ⟨left.stepped, fun i hi => left.intent ok hi, fun q' pc'' hq => ?_⟩
      cases hq
      exact arriveStep_ok (hp.trip q pc rfl) h₁
  | bail agent id pc =>
      rw [procStep, Outcome.bind_eq_ok] at h
      obtain ⟨⟨s₁, pc'⟩, h₁, h⟩ := h
      cases h
      refine ⟨.phases (Takes.phases _ ?_ ok), fun i hi => (by cases hi),
        fun q pc hq => (by cases hq)⟩
      unfold bailStep at h₁
      split at h₁
      · rw [Outcome.bind_eq_ok] at h₁
        obtain ⟨s₂, h₂, h₁⟩ := h₁
        cases h₁
        exact recovers_takes (.bail cut) h₂
      · rw [Outcome.bind_eq_ok] at h₁
        obtain ⟨⟨s₂, r⟩, h₂, h₁⟩ := h₁
        cases h₁
        exact bail_takes (c := σ.scope cfg env a) Before.agents ⟨.bail cut, by simp⟩
          (fun id hid success => (Answers.bail cut hid success).before) h₂
      · cases h₁
        exact .refl _
  | crashed =>
      cases h
      exact ⟨.phases (.refl _ _ _ _ _), fun i hi => (by cases hi), fun q pc hq => (by cases hq)⟩

/-- The calls that begin. -/
theorem Proc.Ok.spawned {p : Proc} (intent : p.intent = none)
    (trip : ∀ q pc, p = .arrive q pc → pc = .recover) : p.Ok s := by
  refine ⟨fun i hi => ?_, fun q pc hp => ?_⟩
  · rw [intent] at hi
    cases hi
  · rw [trip q pc hp]
    exact ⟨fun _ h => (by cases h), fun _ _ h => (by cases h)⟩

theorem Sys.Ok.append {p : Proc} (ok : σ.Ok) (hp : p.Ok σ.store) :
    ∀ r ∈ σ.procs ++ [p], r.Ok σ.store := by
  intro r hr
  rcases List.mem_append.mp hr with hr | hr
  · exact ok.procs r hr
  · exact List.mem_singleton.mp hr ▸ hp

/-- A process that is started knows only what was drawn. -/
theorem Sys.Ok.spawn {p : Proc} (ok : σ.Ok) (hp : p.Ok σ.store) :
    (σ.spawn p).Ok ∧ (σ.spawn p).store = σ.store := by
  rw [Sys.spawn]
  split
  · exact ⟨ok, rfl⟩
  · exact ⟨⟨ok.store, ok.append hp⟩, rfl⟩

/-- What a step of a system does to its store, and what it preserves. -/
theorem step_spec (ok : σ.Ok) (h : step cfg env σ a = .ok σ') :
    Stepped cfg env σ a σ'.store ∧ σ'.Ok := by
  have same {τ : Sys} (hτ : τ.Ok) (store : τ.store = σ.store)
      (h : .ok τ = (.ok σ' : Except Fault Sys)) :
      Stepped cfg env σ a σ'.store ∧ σ'.Ok := by
    cases h
    exact ⟨store ▸ .phases (.refl _ _ _ _ _), hτ⟩
  cases a with
  | call v =>
      rw [step, Outcome.bind_eq_ok] at h
      obtain ⟨⟨s₁, r⟩, h₁, h⟩ := h
      cases h
      have left : Stepped cfg env σ (.call v) s₁ := .phases (verb_phases h₁ ok.store)
      exact ⟨left, left.ok ok.store, fun p hp => (ok.procs p hp).of_stepped left ok.store⟩
  | begin args =>
      rw [step] at h
      split at h
      · exact same ok rfl h
      · rename_i legacy _
        have spawned : ∀ r ∈ σ.procs ++ [.begin args (.declare legacy)], r.Ok σ.store :=
          ok.append (.spawned rfl fun _ _ h => by cases h)
        cases h
        exact ⟨.phases (.refl _ _ _ _ _), ok.store, spawned⟩
  | connect args =>
      rw [step] at h
      split at h
      · exact same ok rfl h
      · have spawned := ok.spawn (p := .connect args .recover)
          (.spawned rfl fun _ _ h => by cases h)
        exact same spawned.1 spawned.2 h
  | arrive args =>
      have spawned := ok.spawn (p := .arrive args .recover)
        (.spawned rfl fun _ _ h => by cases h; rfl)
      exact same spawned.1 spawned.2 h
  | bail agent id =>
      have spawned := ok.spawn (p := .bail agent id .recover) (.spawned rfl fun _ _ h => by cases h)
      exact same spawned.1 spawned.2 h
  | recover =>
      rw [step] at h
      split at h
      · exact same ok rfl h
      · rw [Outcome.bind_eq_ok] at h
        obtain ⟨s₁, h₁, h⟩ := h
        cases h
        have left : Stepped cfg env σ .recover s₁ :=
          .phases (Takes.phases _ (recovers_takes (.action rfl) h₁) ok.store)
        exact ⟨left, left.ok ok.store, fun p hp => (ok.procs p hp).of_stepped left ok.store⟩
  | resume i input =>
      rw [step] at h
      split at h
      · exact same ok rfl h
      · rename_i p hp
        rw [Outcome.bind_eq_ok] at h
        obtain ⟨⟨s₁, p'⟩, h₁, h⟩ := h
        cases h
        obtain ⟨left, hp'⟩ := procStep_stepped (a := .resume i input) ⟨i, rfl, hp⟩ ok.store
          (ok.procs p (List.mem_of_getElem? hp)) h₁
        refine ⟨left, left.ok ok.store, fun r hr => ?_⟩
        rcases List.mem_or_eq_of_mem_set hr with hr | rfl
        · exact (ok.procs r hr).of_stepped left ok.store
        · exact hp'
  | crash i =>
      rw [step] at h
      split at h
      · exact same ok rfl h
      · cases h
        refine ⟨.phases (.refl _ _ _ _ _), ok.store, fun r hr => ?_⟩
        rcases List.mem_or_eq_of_mem_set hr with hr | rfl
        · exact ok.procs r hr
        · exact .spawned rfl fun _ _ h => by cases h

/-! ## Runs -/

/-- What every change under the licences of an action preserves, whoever is exempt, its
step preserves. -/
theorem Stepped.invariant {I : Store → Prop}
    (micro : ∀ may E s s', (∀ d, may d → Licence cfg env σ a d) → s.Ok → I s →
      Micro ⟨cfg, env.now, may⟩ E s s' → I s')
    (h : Stepped cfg env σ a s') (ok : σ.store.Ok) (init : I σ.store) : I s' := by
  have moves {may : Deed → Prop} {s s' : Store} (licensed : ∀ d, may d → Licence cfg env σ a d)
      (run : Moves ⟨cfg, env.now, may⟩ s s') (ok : s.Ok) (init : I s) : s'.Ok ∧ I s' := by
    refine Moves.invariant (fun s₁ s₂ ok₁ ih move => ?_) run ok init
    refine move.invariant (fun c' E s₃ s₄ within ok₃ ih change => ?_) ok₁ ih
    obtain ⟨cfg', now', may'⟩ := c'
    cases within.cfg
    cases within.now
    refine micro may' E s₃ s₄ (fun d hd => ?_) ok₃ ih change
    rcases within.may d hd with hd | ⟨sem, rfl⟩
    · exact licensed d hd
    · exact .serve
  cases h with
  | phases h =>
      obtain ⟨s₁, first, second⟩ := h
      obtain ⟨ok₁, h₁⟩ := moves (fun _ => And.left) first ok init
      exact (moves (fun _ => And.left) second ok₁ h₁).2
  | opens h =>
      obtain ⟨ok₁, h₁⟩ := moves (fun _ => And.left) h.before ok init
      exact (Micros.invariant (fun _ _ ok ih step => micro _ _ _ _ (fun _ => And.left) ok ih step)
        h.opened.opened.run ok₁ h₁).2

/-- The licences of an action outside the groups that hand slots on. -/
def Outside (cfg : Cfg) (env : Env) (σ : Sys) (a : Action) (may : Deed → Prop) : Prop :=
  ∀ d, may d → Licence cfg env σ a d ∧ ∀ sem, d ≠ .serve sem

/-- What every move of a step preserves, and every change of an opening, the step preserves. -/
theorem Stepped.moves_invariant {I : Store → Prop}
    (move : ∀ may s s', Outside cfg env σ a may → s.Ok → I s →
      Move ⟨cfg, env.now, may⟩ s s' → I s')
    (micro : ∀ may E s s', Outside cfg env σ a may → s.Ok → I s →
      Micro ⟨cfg, env.now, may⟩ E s s' → I s')
    (h : Stepped cfg env σ a s') (ok : σ.store.Ok) (init : I σ.store) : I s' := by
  have before : Outside cfg env σ a (Before cfg env σ a) := fun d hd => ⟨hd.1, hd.2.2⟩
  have after : Outside cfg env σ a (After cfg env σ a) := fun d hd => ⟨hd.1, hd.2.2⟩
  cases h with
  | phases h =>
      obtain ⟨s₁, first, second⟩ := h
      obtain ⟨ok₁, h₁⟩ := Moves.invariant (fun _ _ => move _ _ _ before) first ok init
      exact (Moves.invariant (fun _ _ => move _ _ _ after) second ok₁ h₁).2
  | opens h =>
      obtain ⟨ok₁, h₁⟩ := Moves.invariant (fun _ _ => move _ _ _ before) h.before ok init
      exact (Micros.invariant (fun _ _ => micro _ _ _ _ before) h.opened.opened.run ok₁ h₁).2

theorem Sys.Ok.empty : Sys.Ok {} := ⟨.empty, by simp⟩

theorem Sys.Ok.run {P : Sys → Env × Action → Prop}
    (run : Transition.Run (Step cfg) P σ σ') (ok : σ.Ok) : σ'.Ok := by
  refine run.invariant (fun σ l σ' ok _ h => ?_) ok
  have h : step cfg l.1 σ l.2 = .ok σ' := h
  exact (step_spec ok h).2

theorem ReachableBy.ok {P : Sys → Env × Action → Prop} (h : ReachableBy cfg P σ) : σ.Ok :=
  Sys.Ok.empty.run h

/-- What every change preserves, whoever is exempt, a run preserves. -/
theorem Sys.Ok.run_invariant {P : Sys → Env × Action → Prop} {I : Store → Prop}
    (micro : ∀ c E s s', s.Ok → I s → Micro c E s s' → I s')
    (run : Transition.Run (Step cfg) P σ σ') (ok : σ.Ok) (init : I σ.store) : I σ'.store := by
  refine (run.invariant (I := fun τ => τ.Ok ∧ I τ.store) (fun τ l τ' ih _ h => ?_) ⟨ok, init⟩).2
  have h : step cfg l.1 τ l.2 = .ok τ' := h
  obtain ⟨left, ok'⟩ := step_spec ih.1 h
  exact ⟨ok', left.invariant (fun _ E s s' _ => micro _ E s s') ih.1.store ih.2⟩

end Omd
