import Omd.Steps

/-!
# Who waits for a flag

Who waits for a flag is woken by its writer, and nobody else tells them: a poll looks at the
flag as it is then.  Every writer that sets, clears or breaks a flag wakes those it concerns.
`set_flag` does not, and `finish`, Phase C and recovery mark the end of a task with it; so a
wait ends in the run in which nobody waits for just the value that is marked.
-/

namespace Omd

open Lib

variable {cfg : Cfg} {env : Env} {σ σ' : Sys} {a : Action} {c : Scope} {E : TaskId → Prop}
  {s s' : Store}

/-- Nobody waits for just this value of the flag, or the flag was cleared or broken and is no
announcement of a stale read. -/
def Store.Unawaited (s : Store) (key value : String) : Prop :=
  ∀ w ∈ s.flagWaiters, w.state = .WAITING → w.key = key → w.wantValue = value →
    Dormant s.flags key ∧ ∀ orbit, key ≠ readStaleKey orbit

/-- The end of a task that the step marks is not awaited. -/
def Heeded (σ : Sys) (l : Env × Action) : Prop :=
  ∀ task value, Marks l.1 σ l.2 task value → σ.store.Unawaited task value

/-! ## The mark -/

theorem dormant_setFlag {key task value : String} {agent : Option AgentId}
    (h : Dormant s.flags key) : Dormant (s.setFlag task value agent).flags key := by
  obtain ⟨f, row, status⟩ := h
  by_cases same : key = task
  · subst same
    have row : s.getFlag key = some f := row
    have marked := getFlag_setFlag s key value agent
    rw [row] at marked
    exact ⟨_, marked, status⟩
  · exact ⟨f, (getFlag_setFlag_ne s same).trans row, status⟩

/-- A row that `set_flag` adds has no rank. -/
theorem flagReady_added {key value want : String} {agent : Option AgentId}
    (other : value ≠ want) :
    flagReady (some { key := key, value := value, setBy := agent }) want = false := by
  have unranked : 0 < latchRank want → latchRank want ≠ 0 := fun pos => pos.ne'
  simpa [flagReady, flagBroken, flagSatisfied, other] using unranked

/-- A row whose value `set_flag` writes keeps its rank and its status. -/
theorem flagReady_marked {f : Flag} {value want : String} {agent : Option AgentId}
    (unready : flagReady (some f) want = false) (other : value = want → f.status ≠ .LIVE) :
    flagReady (some { f with value := value, setBy := agent }) want = false := by
  simp only [flagReady, flagBroken, flagSatisfied] at unready ⊢
  by_cases live : f.status = .LIVE
  · have apart : value ≠ want := fun same => other same live
    simp_all
  · simp_all

/-- A mark that nobody waits for makes no flag ready that somebody waits for. -/
theorem heard_setFlag {task value : String} {agent : Option AgentId}
    (heard : Heard s.flags s.flagWaiters) (unawaited : s.Unawaited task value) :
    Heard (s.setFlag task value agent).flags s.flagWaiters := by
  intro w hw waits
  have before : flagReady (s.getFlag w.key) w.wantValue = false := heard w hw waits
  by_cases same : w.key = task
  · have awake : value = w.wantValue → Dormant s.flags w.key := fun want =>
      same ▸ (unawaited w hw waits same want.symm).1
    subst same
    have after := getFlag_setFlag s w.key value agent
    cases row : s.getFlag w.key with
    | none =>
        rw [row] at after
        refine (congrArg (flagReady · w.wantValue) after).trans (flagReady_added fun want => ?_)
        obtain ⟨f, found, -⟩ := awake want
        cases found.symm.trans row
    | some f =>
        rw [row] at after before
        refine (congrArg (flagReady · w.wantValue) after).trans
          (flagReady_marked before fun want => ?_)
        obtain ⟨f', found, status⟩ := awake want
        cases found.symm.trans row
        exact status
  · exact (congrArg (flagReady · w.wantValue) (getFlag_setFlag_ne s same)).trans before

/-! ## One change -/

/-- The flags and their waiters after a change. -/
theorem Micro.signals (h : Micro c E s s') : Board s.flags s.flagWaiters s'.flags s'.flagWaiters ∨
    FlagChange c s s'.uuid s'.flags s'.flagWaiters := by
  cases h with
  | flags change frame => exact Or.inr change
  | frame frame | enroll _ _ _ _ frame | agent _ _ _ _ frame | orbit _ _ _ _ _ _ frame
  | insert _ _ _ _ _ _ _ _ frame | reject _ _ _ _ frame | summary _ _ _ frame | task _ _ _ frame
  | declare _ _ frame | publish _ _ _ frame | request _ frame | waiters _ frame
  | slots _ _ _ _ frame | arm _ _ _ _ _ _ _ _ frame | trip _ _ _ frame | stamp _ frame
  | archiveTasks _ _ _ _ frame
  | archiveOrbits _ _ _ frame => exact Or.inl frame.board

theorem FlagWaiter.Woken.asleep {w w' : FlagWaiter} (h : w.Woken w') (waits : w'.state = .WAITING) :
    w' = w := by
  cases h with
  | stays => rfl
  | satisfied _ | broken _ => cases waits

/-- Nobody misses a flag, and no end of a task that may be marked is awaited. -/
structure Attentive (marks : TaskId → String → Prop) (s : Store) : Prop where
  heard : Heard s.flags s.flagWaiters
  unawaited : ∀ task value, marks task value → s.Unawaited task value

theorem Micro.attentive {marks : TaskId → String → Prop} (h : Micro c E s s') (ok : s.Ok)
    (marked : ∀ task value, c.may (.mark task value) → marks task value)
    (apart : c.may .signal → ∀ task value, ¬ marks task value) (ih : Attentive marks s) :
    Attentive marks s' := by
  rcases h.signals with board | change
  · refine ⟨board.heard ok.listenerIds ih.heard, fun task value may w' hw' waits key want => ?_⟩
    obtain ⟨w, hw, woken⟩ := board.back ok.listenerIds hw'
    cases woken.asleep waits
    obtain ⟨dormant, plain⟩ := ih.unawaited task value may w' hw waits key want
    exact ⟨board.dormant task plain dormant, plain⟩
  cases change with
  | write key signal writer others back rows wakes =>
      exact ⟨wakes.heard ok.listenerIds ih.heard, fun task value may =>
        absurd may (apart signal task value)⟩
  | mark task value agent may unsigned flags waiters =>
      refine ⟨?_, fun task' value' may' w hw waits key want => ?_⟩
      · rw [flags, waiters]
        exact heard_setFlag ih.heard (ih.unawaited task value (marked task value may))
      · obtain ⟨dormant, plain⟩ :=
          ih.unawaited task' value' may' w (waiters ▸ hw) waits key want
        exact ⟨flags ▸ dormant_setFlag dormant, plain⟩
  | listen w signal id drawn unready flags waiters =>
      refine ⟨fun r hr waits => ?_, fun task value may => absurd may (apart signal task value)⟩
      rw [waiters] at hr
      rw [flags]
      rcases List.mem_append.mp hr with hr | hr
      · exact ih.heard r hr waits
      · rw [List.mem_singleton.mp hr]
        exact unready
  | poll id state may ended flags waiters =>
      have old (w : FlagWaiter) (hw : w ∈ s'.flagWaiters) (waits : w.state = .WAITING) :
          w ∈ s.flagWaiters := by
        rw [waiters] at hw
        rcases Table.mem_modify.mp hw with ⟨hw, -⟩ | ⟨_, -, -, rfl⟩
        · exact hw
        · exact absurd waits ended
      refine ⟨fun w hw waits => ?_, fun task value may w hw waits => ?_⟩
      · rw [flags]
        exact ih.heard w (old w hw waits) waits
      · rw [flags]
        exact ih.unawaited task value may w (old w hw waits) waits

/-- A waiter that no poll ends is left as it is, or it is woken. -/
theorem Micro.woken (h : Micro c E s s') (ok : s.Ok) {w : FlagWaiter}
    (unpolled : ¬ c.may (.poll w.waiterId)) (hw : w ∈ s.flagWaiters) :
    ∃ w' ∈ s'.flagWaiters, w.Woken w' := by
  have wakes (rows : Wakes s.flags s.flagWaiters s'.flags s'.flagWaiters) :
      ∃ w' ∈ s'.flagWaiters, w.Woken w' := by
    obtain ⟨f, woken, eq⟩ := rows.rows ok.listenerIds
    exact ⟨f w, eq ▸ List.mem_map_of_mem hw, woken w hw⟩
  rcases h.signals with board | change
  · exact wakes board.toWakes
  cases change with
  | write key signal writer others back rows wakes' => exact wakes wakes'
  | mark task value agent may unsigned flags waiters => exact ⟨w, waiters ▸ hw, .stays⟩
  | listen r signal id drawn unready flags waiters =>
      exact ⟨w, waiters ▸ List.mem_append_left _ hw, .stays⟩
  | poll id state may ended flags waiters =>
      have other : w.waiterId ≠ id := fun same => unpolled (same ▸ may)
      exact ⟨w, waiters ▸ Table.mem_modify.mpr (Or.inl ⟨hw, other⟩), .stays⟩

/-! ## One step -/

/-- Who marks a task as done is its `finish`; who marks it as merged, a Phase C or a recovery. -/
theorem Marks.source {task : TaskId} {value : String} (h : Marks env σ a task value) :
    (value = "done" ∧ ∃ agent fence id epoch, a = .call (.finish task agent fence id epoch)) ∨
      value = "merged" ∧ ∀ v, a ≠ .call v := by
  cases h with
  | finish call => exact Or.inl ⟨rfl, _, _, _, _, call⟩
  | phaseC cut =>
      refine Or.inr ⟨rfl, fun v call => ?_⟩
      rcases cut with ⟨i, h, -⟩ | ⟨i, h, -⟩ <;> cases h.symm.trans call
  | recovery recovers =>
      refine Or.inr ⟨rfl, fun v call => ?_⟩
      rcases recovers with h | ⟨i, h, -⟩ | ⟨i, h, -⟩ | ⟨i, h, -⟩ <;> cases h.symm.trans call

/-- Who sets a flag or waits for one marks no task. -/
theorem Licence.unmarked {task : TaskId} {value : String}
    (signal : Licence cfg env σ a .signal) : ¬ Marks env σ a task value := by
  intro marks
  cases signal with
  | signal call signals =>
      rcases marks.source with ⟨-, agent, fence, id, epoch, finish⟩ | ⟨-, uncalled⟩
      · cases call.symm.trans finish
        cases signals
      · exact uncalled _ call

theorem step_heard (ok : σ.Ok) (heard : Heard σ.store.flags σ.store.flagWaiters)
    (heeded : Heeded σ (env, a)) (h : step cfg env σ a = .ok σ') :
    Heard σ'.store.flags σ'.store.flagWaiters := by
  have start : Attentive (Marks env σ a) σ.store := ⟨heard, heeded⟩
  refine ((step_spec ok h).1.invariant (I := Attentive (Marks env σ a))
    (fun may E s s' licensed ok ih step => ?_) ok.store start).heard
  refine step.attentive ok (fun task value hmay => ?_) (fun signal task value => ?_) ih
  · cases licensed _ hmay with
    | mark marks => exact marks
  · exact (licensed _ signal).unmarked

/-- A waiter that is not waiting, or that is not polled, is left as it is or woken. -/
theorem step_woken (ok : σ.Ok) (h : step cfg env σ a = .ok σ') {w : FlagWaiter}
    (hw : w ∈ σ.store.flagWaiters)
    (unpolled : w.state = .WAITING → a ≠ .call (.flagWaitPoll w.waiterId)) :
    ∃ w' ∈ σ'.store.flagWaiters, w.Woken w' := by
  refine (step_spec ok h).1.invariant (I := fun s => ∃ w' ∈ s.flagWaiters, w.Woken w')
    (fun may E s s' licensed ok₁ ih step => ?_) ok.store ⟨w, hw, .stays⟩
  obtain ⟨w₁, hw₁, woken₁⟩ := ih
  have unpolled₁ : ¬ may (.poll w₁.waiterId) := by
    intro polled
    generalize same : w₁.waiterId = id at polled
    cases licensed _ polled with
    | poll call row waiting =>
        have key : w.waiterId = id := woken₁.id.symm.trans same
        have found : σ.store.getFlagWaiter w.waiterId = some w := ok.store.listenerIds.get_of_mem hw
        rw [key] at found unpolled
        cases found.symm.trans row
        exact unpolled waiting call
  obtain ⟨w', hw', woken⟩ := step.woken ok₁ unpolled₁ hw₁
  exact ⟨w', hw', woken₁.trans woken⟩

/-- Who is not waiting stays so. -/
theorem run_woken {P : Sys → Env × Action → Prop} (ok : σ.Ok)
    (run : Transition.Run (Step cfg) P σ σ') {w : FlagWaiter} (hw : w ∈ σ.store.flagWaiters)
    (woken : w.state ≠ .WAITING) : w ∈ σ'.store.flagWaiters := by
  refine (run.invariant (I := fun τ => τ.Ok ∧ w ∈ τ.store.flagWaiters)
    (fun τ l τ' ih _ h => ?_) ⟨ok, hw⟩).2
  have h : step cfg l.1 τ l.2 = .ok τ' := h
  refine ⟨(step_spec ih.1 h).2, ?_⟩
  obtain ⟨w', hw', change⟩ := step_woken ih.1 h ih.2 fun waiting => absurd waiting woken
  cases change with
  | stays => exact hw'
  | satisfied waiting | broken waiting => exact absurd waiting woken

/-! ## A poll -/

/-- A poll reports how a wait ended. -/
theorem flagWaitPoll_ended {now : Time} {w : FlagWaiter} (ok : s.Ok) (hw : w ∈ s.flagWaiters)
    (ended : w.state ≠ .WAITING) : flagWaitPoll cfg now s w.waiterId =
      .ok (s, { state := some w.state.reply }) := by
  have found : s.getFlagWaiter w.waiterId = some w := ok.listenerIds.get_of_mem hw
  rw [flagWaitPoll, found]
  exact if_pos ended

theorem sweepInline_woken {now : Time} (ok : s.Ok) (h : sweepInline cfg now s = .ok s')
    {w : FlagWaiter} (hw : w ∈ s.flagWaiters) :
    s'.Ok ∧ ∃ w' ∈ s'.flagWaiters, w.Woken w' := by
  let c : Scope := ⟨cfg, now, fun d => ∀ id, d ≠ .poll id⟩
  have swept : Moves c s s' :=
    sweepInline_takes (c := c) (by simp [c]) ⟨by simp [c], by simp [c]⟩ (by simp [c]) h ok
  refine swept.invariant (I := fun s => ∃ w' ∈ s.flagWaiters, w.Woken w')
    (fun s₁ s₂ ok₁ ih move => ?_) ok ⟨w, hw, .stays⟩
  refine move.invariant (I := fun s => ∃ w' ∈ s.flagWaiters, w.Woken w')
    (fun c' E s₃ s₄ within ok₃ ih step => ?_) ok₁ ih
  obtain ⟨w₁, hw₁, woken₁⟩ := ih
  have unpolled : ¬ c'.may (.poll w₁.waiterId) :=
    within.forbids (fun no => no w₁.waiterId rfl) (by simp)
  obtain ⟨w', hw', woken⟩ := step.woken ok₃ unpolled hw₁
  exact ⟨w', hw', woken₁.trans woken⟩

/-- The row that a poll ends. -/
theorem mem_setFlagWaiter {w : FlagWaiter} (state : FlagWaiterState) (hw : w ∈ s.flagWaiters) :
    { w with state := state } ∈ (s.setFlagWaiter w.waiterId state).flagWaiters :=
  Table.mem_modify.mpr (Or.inr ⟨w, hw, rfl, rfl⟩)

/-- The poll of who waits finds them woken when the flag is ready. -/
theorem flagWaitPoll_ready {now : Time} {w : FlagWaiter} {r : Reply} (ok : s.Ok)
    (hw : w ∈ s.flagWaiters) (waiting : w.state = .WAITING)
    (h : flagWaitPoll cfg now s w.waiterId = .ok (s', r))
    (ready : flagReady (s'.getFlag w.key) w.wantValue = true) :
    ∃ w' ∈ s'.flagWaiters, w'.waiterId = w.waiterId ∧
      (w'.state = .SATISFIED ∨ w'.state = .BROKEN) := by
  have found : s.getFlagWaiter w.waiterId = some w := ok.listenerIds.get_of_mem hw
  rw [flagWaitPoll, found] at h
  dsimp only at h
  rw [if_neg (not_not.mpr waiting), Outcome.bind_eq_ok] at h
  obtain ⟨s₁, sweep, h⟩ := h
  obtain ⟨-, w₁, hw₁, woken⟩ := sweepInline_woken ok sweep hw
  have row (state : FlagWaiterState) : ∃ w' ∈ (s₁.setFlagWaiter w.waiterId state).flagWaiters,
      w'.waiterId = w.waiterId ∧ w'.state = state :=
    ⟨{ w₁ with state := state }, woken.id ▸ mem_setFlagWaiter state hw₁, woken.id, rfl⟩
  split at h
  · cases h
    obtain ⟨w', hw', id, state⟩ := row .BROKEN
    exact ⟨w', hw', id, Or.inr state⟩
  rename_i unbroken
  split at h
  · cases h
    obtain ⟨w', hw', id, state⟩ := row .SATISFIED
    exact ⟨w', hw', id, Or.inl state⟩
  rename_i unsatisfied
  have unready : flagReady (s₁.getFlag w.key) w.wantValue = false := by
    rw [flagReady, Bool.eq_false_of_not_eq_true unbroken, Bool.eq_false_of_not_eq_true unsatisfied]
    rfl
  have same : s'.getFlag w.key = s₁.getFlag w.key := by
    split at h <;> (cases h; rfl)
  rw [same, unready] at ready
  cases ready

/-! ## Runs -/

theorem ReachableBy.heard (run : ReachableBy cfg Heeded σ) :
    Heard σ.store.flags σ.store.flagWaiters := by
  refine (Transition.Run.invariant
    (I := fun τ : Sys => τ.Ok ∧ Heard τ.store.flags τ.store.flagWaiters)
    (fun τ l τ' ih heeded h => ?_) run ⟨.empty, fun w hw => (by cases hw)⟩).2
  have h : step cfg l.1 τ l.2 = .ok τ' := h
  exact ⟨(step_spec ih.1 h).2, step_heard ih.1 ih.2 heeded h⟩

theorem step_ready (ok : σ.Ok) (heard : Heard σ.store.flags σ.store.flagWaiters)
    (heeded : Heeded σ (env, a)) (h : step cfg env σ a = .ok σ') {w : FlagWaiter}
    (hw : w ∈ σ.store.flagWaiters) (waiting : w.state = .WAITING)
    (ready : flagReady (σ'.store.getFlag w.key) w.wantValue = true) :
    ∃ w' ∈ σ'.store.flagWaiters, w'.waiterId = w.waiterId ∧
      (w'.state = .SATISFIED ∨ w'.state = .BROKEN) := by
  by_cases poll : a = .call (.flagWaitPoll w.waiterId)
  · subst poll
    rw [step, Outcome.bind_eq_ok] at h
    obtain ⟨⟨s₁, r⟩, run, h⟩ := h
    cases h
    exact flagWaitPoll_ready ok.store hw waiting run ready
  · have heard' := step_heard ok heard heeded h
    obtain ⟨w', hw', woken⟩ := step_woken ok h hw fun _ => poll
    cases woken with
    | stays => exact absurd ((heard' w hw' waiting).symm.trans ready) Bool.false_ne_true
    | satisfied waits => exact ⟨_, hw', rfl, Or.inl rfl⟩
    | broken waits => exact ⟨_, hw', rfl, Or.inr rfl⟩

/-- In a run in which no end of a task is awaited where it is marked, nobody waits for a
flag that is ready: who waited has been woken by the step that made it ready, stays so, and
is told so by every later poll. -/
theorem flags_heard (run : ReachableBy cfg Heeded σ) :
    Heard σ.store.flags σ.store.flagWaiters ∧
    ∀ l σ', Heeded σ l → step cfg l.1 σ l.2 = .ok σ' →
      ∀ w ∈ σ.store.flagWaiters, w.state = .WAITING →
        flagReady (σ'.store.getFlag w.key) w.wantValue = true →
        ∃ w' ∈ σ'.store.flagWaiters, w'.waiterId = w.waiterId ∧
          (w'.state = .SATISFIED ∨ w'.state = .BROKEN) ∧
          ∀ τ, Transition.Run (Step cfg) (fun _ _ => True) σ' τ → w' ∈ τ.store.flagWaiters ∧
            ∀ now, flagWaitPoll cfg now τ.store w.waiterId =
              .ok (τ.store, { state := some w'.state.reply }) := by
  have ok := ReachableBy.ok run
  have heard := ReachableBy.heard run
  refine ⟨heard, fun l σ' heeded h w hw waiting ready => ?_⟩
  obtain ⟨w', hw', id, woken⟩ := step_ready ok heard heeded h hw waiting ready
  have ended : w'.state ≠ .WAITING := by
    rcases woken with woken | woken <;> simp [woken]
  refine ⟨w', hw', id, woken, fun τ later => ?_⟩
  have ok' := (step_spec ok h).2
  have stays := run_woken ok' later hw' ended
  exact ⟨stays, fun now => id ▸ flagWaitPoll_ended (ok'.run later).store stays ended⟩

/-- A wait for a latch that nobody has set. -/
def latchWait : List (Env × Action) :=
  [(Action.call (.flagWait "k" "go" (some 10) none)).at 1]

/-- The writer of the latch. -/
def latchSet : Env × Action := (Action.call (.flagSet "k" "go" none .LATCH none none none)).at 2

theorem Heeded.call {v : Verb}
    (h : ∀ task agent fence id epoch, v ≠ .finish task agent fence id epoch) :
    Heeded σ (env, .call v) := by
  intro task value marks
  cases marks with
  | finish call finishes =>
      cases call
      exact absurd rfl (h _ _ _ _ _)
  | phaseC phaseC owns publishes =>
      cases phaseC with
      | connect h | trip h =>
          obtain ⟨i, h, -⟩ := h
          cases h
  | recovery recovers row merged =>
      cases recovers with
      | action h => cases h
      | connect h | arrive h | bail h =>
          obtain ⟨i, h, -⟩ := h
          cases h

/-- Who waits for a latch is woken by its writer. -/
theorem latchSet_heard : ∃ σ σ' : Sys, ∃ w ∈ σ.store.flagWaiters, w.state = .WAITING ∧
    Step {} σ latchSet σ' ∧ ∃ w' ∈ σ'.store.flagWaiters, w'.waiterId = w.waiterId ∧
      (w'.state = .SATISFIED ∨ w'.state = .BROKEN) := by
  have run : ∃ σ, ReachableBy {} Heeded σ ∧ ∃ w ∈ σ.store.flagWaiters, w.state = .WAITING ∧
      ((step {} latchSet.1 σ latchSet.2).toOption.any fun σ' =>
        flagReady (σ'.store.getFlag w.key) w.wantValue = true) = true := by
    refine exists_reachableBy latchWait (fun l hl σ => ?_) (by decide +kernel)
    rw [List.mem_singleton.mp hl]
    exact .call (by simp)
  obtain ⟨σ, run, w, hw, waiting, ready⟩ := run
  obtain ⟨σ', h, ready⟩ := exists_step ready
  obtain ⟨w', hw', id, woken, -⟩ :=
    (flags_heard run).2 latchSet σ' (.call (by simp)) h w hw waiting ready
  exact ⟨σ, σ', w, hw, waiting, h, w', hw', id, woken⟩

/-- A task in progress whose end somebody waits for. -/
def awaitedTask : List (Env × Action) :=
  [ (Action.call (.declare { taskId := "T" })).at 1,
    (Action.call .nextTask).at 2,
    (Action.call (.start "T" "A" none none)).at 3,
    (Action.call (.flagWait "T" "done" (some 10) none)).at 4 ]

/-- The end of the task. -/
def awaitedFinish : Env × Action := (Action.call (.finish "T" (some "A") none none none)).at 5

/-- Another writer of its flag. -/
def flagOverwrite : Env × Action :=
  (Action.call (.flagSet "T" "other" none .LATCH none none none)).at 6

/-- Who waits for the end of the task is not woken by it; once the flag has another value,
their poll reports a timeout. -/
theorem awaitedFinish_unheard : ∃ σ σ' τ : Sys, Reachable {} σ ∧ Step {} σ awaitedFinish σ' ∧
    Step {} σ' flagOverwrite τ ∧ ∃ w ∈ σ.store.flagWaiters, w.state = .WAITING ∧
      awaitedFinish.1.now < w.deadline ∧
      flagReady (σ'.store.getFlag w.key) w.wantValue = true ∧ w ∈ σ'.store.flagWaiters ∧
      (flagWaitPoll {} 20 τ.store w.waiterId).toOption.map (fun r => r.2.state) =
        some (some .TIMEOUT) := by
  have run : ∃ σ, Reachable {} σ ∧ ((step {} awaitedFinish.1 σ awaitedFinish.2).toOption.any
      fun σ' => ((step {} flagOverwrite.1 σ' flagOverwrite.2).toOption.any fun τ =>
        ∃ w ∈ σ.store.flagWaiters, w.state = .WAITING ∧ awaitedFinish.1.now < w.deadline ∧
          flagReady (σ'.store.getFlag w.key) w.wantValue = true ∧ w ∈ σ'.store.flagWaiters ∧
          (flagWaitPoll {} 20 τ.store w.waiterId).toOption.map (fun r => r.2.state) =
            some (some .TIMEOUT)) = true) = true :=
    exists_reachable awaitedTask (by decide +kernel)
  obtain ⟨σ, reach, h⟩ := run
  obtain ⟨σ', finished, h⟩ := exists_step h
  obtain ⟨τ, written, h⟩ := exists_step h
  exact ⟨σ, σ', τ, reach, finished, written, h⟩

end Omd
