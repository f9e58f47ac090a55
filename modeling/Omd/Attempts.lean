import Omd.Interleaving

/-!
# Attempts to merge

An attempt is opened by a Phase A and outlives its executor: it is ended by the Phase C of a call,
by a recovery, or by the death of the agent of its task.  One merge token serialises the
attempts, so at most one executor passes the checks of Phase C at a time; the identifier of an
attempt that has ended is never in use again, so that its executor, wherever it was held up,
finds itself fenced out; and no attempt ends without evidence.
-/

namespace Omd

open Lib

variable {cfg : Cfg} {env : Env} {σ σ' : Sys} {a : Action} {l : Env × Action} {c : Scope}
  {E : TaskId → Prop} {s s' : Store} {o o' : Orbit} {t t' : Task} {n : AttemptId}

/-! ## The merge token -/

/-- The row is a merge token that is held. -/
structure Orbit.HeldToken (o : Orbit) : Prop where
  kind : o.kind = .merge_token
  state : o.state = .HELD

/-- No two tokens are held. -/
structure Store.OneToken (s : Store) : Prop where
  resource : ∀ o ∈ s.orbits, o.kind = .merge_token → o.resourceKey = some Store.mergeResource
  alone : ∀ o ∈ s.orbits, ∀ o' ∈ s.orbits, o.HeldToken → o'.HeldToken → o.orbitId = o'.orbitId

/-- A token that is held was held. -/
theorem OrbitStep.heldToken (h : OrbitStep c E s o o') (held : o'.HeldToken) : o.HeldToken := by
  have kind : o.kind = .merge_token := h.row.kind.symm.trans held.kind
  refine ⟨kind, ?_⟩
  have state := held.state
  cases h.change with
  | keep same | rebind _ _ same => exact same.symm.trans state
  | expire _ state' | deny _ state' => simp [state] at state'
  | promote pending => simp [Orbit.isPending, kind] at pending
  | release other | lease other | permit other | cancelled _ _ _ other | reclaimed _ other
  | attempt _ _ other => simp [kind] at other
  | token _ held => exact held

theorem Store.OneToken.micro (h : s.OneToken) (ok : s.Ok) (step : Micro c E s s') :
    s'.OneToken where
  resource := by
    intro o' ho' kind
    rcases (step.orbits ok).back ho' with ⟨o, ho, change⟩ | ⟨new, -⟩
    · rw [change.row.resourceKey]
      exact h.resource o ho (change.row.kind.symm.trans kind)
    · cases new with
      | held claimed | queued claimed => simp [claimed.kind] at kind
      | permit other | lease other => simp [other] at kind
      | token _ _ _ resource => exact resource
  alone := by
    -- a token is inserted when none is held
    have other {o o' : Orbit} (ho : o ∈ s.orbits) (held : o.HeldToken) (new : NewRow c s o')
        (held' : o'.HeldToken) : False := by
      cases new with
      | held claimed | queued claimed => cases claimed.kind.symm.trans held'.kind
      | permit kind | lease kind => cases kind.symm.trans held'.kind
      | token _ _ _ _ _ free =>
          rw [Store.heldMergeToken, List.find?_eq_none] at free
          have listed : o ∈ s.heldOfKind .merge_token := by
            simp [Store.heldOfKind, ho, held.kind, held.state]
          simpa [h.resource o ho held.kind] using free o listed
    intro o₁ h₁ o₂ h₂ held₁ held₂
    rcases (step.orbits ok).back h₁ with ⟨r₁, hr₁, c₁⟩ | ⟨new₁, id₁⟩
    · rcases (step.orbits ok).back h₂ with ⟨r₂, hr₂, c₂⟩ | ⟨new₂, -⟩
      · rw [c₁.row.orbitId, c₂.row.orbitId]
        exact h.alone r₁ hr₁ r₂ hr₂ (c₁.heldToken held₁) (c₂.heldToken held₂)
      · exact (other hr₁ (c₁.heldToken held₁) new₂ held₂).elim
    · rcases (step.orbits ok).back h₂ with ⟨r₂, hr₂, c₂⟩ | ⟨-, id₂⟩
      · exact (other hr₂ (c₂.heldToken held₂) new₁ held₁).elim
      · exact id₁.trans id₂.symm

theorem ReachableBy.oneToken {P : Sys → Env × Action → Prop} (h : ReachableBy cfg P σ) :
    σ.store.OneToken :=
  Sys.Ok.empty.run_invariant (I := Store.OneToken) (fun _ _ _ _ ok ih step => ih.micro ok step) h
    ⟨by simp, by simp⟩

/-! ## One executor -/

/-- The columns that bind an executor to its attempt. -/
def Intent.binding (i : Intent) : TaskId × AttemptId × OrbitId × AgentId × String × ℕ :=
  (i.taskId, i.attemptId, i.tokenId, i.tokenAgent, i.ownerInstance, i.ownerGeneration)

theorem ownsToken_iff {i : Intent} (ok : s.Ok) : ownsToken s i = true ↔
    ∃ o ∈ s.orbits, o.orbitId = i.tokenId ∧ o.HeldToken ∧ o.resourceKey = some Store.mergeResource ∧
      o.agentId = i.tokenAgent ∧ o.operationId = some i.attemptId ∧
        o.ownerInstance = some i.ownerInstance ∧ o.ownerGeneration = some i.ownerGeneration := by
  simp only [ownsToken, Option.any_eq_true, ok.getOrbit, Bool.and_eq_true, decide_eq_true_eq]
  constructor
  · rintro ⟨o, ⟨ho, id⟩, ⟨⟨⟨⟨⟨held, kind⟩, key⟩, agent⟩, attempt⟩, owner⟩, generation⟩
    exact ⟨o, ho, id, ⟨kind, held⟩, key, agent, attempt, owner, generation⟩
  · rintro ⟨o, ho, id, ⟨kind, held⟩, key, agent, attempt, owner, generation⟩
    exact ⟨o, ⟨ho, id⟩, ⟨⟨⟨⟨⟨held, kind⟩, key⟩, agent⟩, attempt⟩, owner⟩, generation⟩

theorem ownsTask_iff {i : Intent} (ok : s.Ok) : ownsTask s i = true ↔
    ∃ t ∈ s.tasks, t.taskId = i.taskId ∧ t.state = .CONNECTING ∧
      t.connectAttemptId = some i.attemptId ∧ t.connectOwnerInstance = some i.ownerInstance ∧
        t.connectOwnerGeneration = i.ownerGeneration ∧ t.connectTokenId = some i.tokenId := by
  simp only [ownsTask, Option.any_eq_true, ok.getTask, Bool.and_eq_true, decide_eq_true_eq]
  constructor
  · rintro ⟨t, ⟨ht, id⟩, ⟨⟨⟨state, attempt⟩, owner⟩, generation⟩, token⟩
    exact ⟨t, ht, id, state, attempt, owner, generation, token⟩
  · rintro ⟨t, ht, id, state, attempt, owner, generation, token⟩
    exact ⟨t, ⟨ht, id⟩, ⟨⟨⟨state, attempt⟩, owner⟩, generation⟩, token⟩

/-- Two executors that pass the checks of Phase C in a store with one merge token are bound to one
attempt of one task, by one token, for one owner. -/
theorem Store.OneToken.binding_eq {i j : Intent} (h : s.OneToken) (ok : s.Ok)
    (hi : ownsAttempt s i = true) (hj : ownsAttempt s j = true) : i.binding = j.binding := by
  simp only [ownsAttempt, Bool.and_eq_true] at hi hj
  obtain ⟨t, ht, task, -, attempt, -, -, token⟩ := (ownsTask_iff ok).mp hi.1.1.1
  obtain ⟨t', ht', task', -, attempt', -, -, token'⟩ := (ownsTask_iff ok).mp hj.1.1.1
  obtain ⟨o, ho, id, held, -, agent, op, owner, generation⟩ := (ownsToken_iff ok).mp hi.1.1.2
  obtain ⟨o', ho', id', held', -, agent', op', owner', generation'⟩ :=
    (ownsToken_iff ok).mp hj.1.1.2
  have same : o = o' := ok.orbit_eq ho ho' (h.alone o ho o' ho' held held')
  subst same
  have tokens : i.tokenId = j.tokenId := id.symm.trans id'
  have tasks : t = t' := ok.attempts.token t ht t' ht' _ token (tokens ▸ token')
  subst tasks
  simp only [Intent.binding, Prod.mk.injEq]
  refine ⟨task.symm.trans task', ?_, tokens, agent.symm.trans agent', ?_, ?_⟩
  · exact Option.some.inj (attempt.symm.trans attempt')
  · exact Option.some.inj (owner.symm.trans owner')
  · exact Option.some.inj (generation.symm.trans generation')

/-- At most one executor may act: one merge token is held at a time, and two executors that pass the
checks of Phase C are bound alike. -/
theorem executors_exclusive (reach : Reachable cfg σ) :
    (∀ o ∈ σ.store.orbits, ∀ o' ∈ σ.store.orbits, o.HeldToken → o'.HeldToken → o = o') ∧
      ∀ i j : Intent, ownsAttempt σ.store i = true → ownsAttempt σ.store j = true →
        i.binding = j.binding := by
  have ok := reach.ok.store
  have one := ReachableBy.oneToken reach
  constructor
  · intro o ho o' ho' held held'
    exact ok.orbit_eq ho ho' (one.alone o ho o' ho' held held')
  · intro i j hi hj
    exact one.binding_eq ok hi hj

/-- A task is finished, and the merge of its attempt is about to be completed. -/
def mergeDue : List (Env × Action) :=
  [ (Action.call (.declare { taskId := "T", writes := ["a"] })).at 1,
    (Action.call .nextTask).at 1,
    (Action.call (.claim { agentId := "A", pathspec := ["a"], taskId := some "T" })).at 2,
    (Action.call (.start "T" "A" none none)).at 3,
    (Action.call (.finish "T" (some "A") (some 1) none none)).at 3,
    (Action.connect { taskId := "T", agentId := some "A", fence := some 1 }).at 4,
    (Action.resume 0 {}).at 4, (Action.resume 0 {}).at 4, (Action.resume 0 {}).at 4 ]

/-- Its executor. -/
def mergeOfT : Intent where
  taskId := "T"
  branch := none
  worktree := none
  writes := [0]
  branchTipSha := none
  integrationBaseSha := none
  attemptId := 1
  ownerInstance := "c"
  ownerGeneration := 1
  tokenId := 2
  tokenAgent := "A"
  requestId := none
  requestAgent := none
  requestArgHash := none
  repoBound := false

/-- The token of the merge is the one that is held, and an executor elsewhere may act only as the
one that is bound. -/
theorem executors_exclusive_mergeDue : ∃ σ i j, Reachable {} σ ∧ i ≠ j ∧
    ownsAttempt σ.store i = true ∧ ownsAttempt σ.store j = true ∧ i.binding = j.binding ∧
      ∃ o ∈ σ.store.orbits, o.HeldToken ∧ ∀ o' ∈ σ.store.orbits, o'.HeldToken → o = o' := by
  have run : ∃ σ, Reachable {} σ ∧ ownsAttempt σ.store mergeOfT = true ∧
      ownsAttempt σ.store { mergeOfT with worktree := some "elsewhere" } = true ∧
        ∃ o ∈ σ.store.orbits, o.kind = .merge_token ∧ o.state = .HELD :=
    exists_reachable mergeDue (by decide +kernel)
  obtain ⟨σ, reach, owns, owns', o, ho, kind, held⟩ := run
  obtain ⟨one, alike⟩ := executors_exclusive reach
  have token : o.HeldToken := ⟨kind, held⟩
  exact ⟨σ, _, _, reach, by decide, owns, owns', alike _ _ owns owns',
    o, ho, token, fun o' ho' held' => one o ho o' ho' token held'⟩

/-! ## Attempts that have ended -/

/-- A task is connecting with the attempt. -/
def Store.Attempting (s : Store) (n : AttemptId) : Prop :=
  ∃ t ∈ s.tasks, t.state = .CONNECTING ∧ t.connectAttemptId = some n

instance (s : Store) (n : AttemptId) : Decidable (s.Attempting n) :=
  inferInstanceAs (Decidable (∃ t ∈ s.tasks, t.state = .CONNECTING ∧ t.connectAttemptId = some n))

/-- The attempt was opened, and has ended. -/
structure Store.Ended (s : Store) (n : AttemptId) : Prop where
  drawn : n < s.uuid
  gone : ¬ s.Attempting n

theorem Store.Ended.moves (h : s.Ended n) (ok : s.Ok) (run : Moves c s s') : s'.Ended n where
  drawn := by
    refine (Moves.invariant (I := fun s => n < s.uuid) ?_ run ok h.drawn).2
    intro s₁ s₂ _ ih move
    obtain ⟨_, _, -, micros⟩ := move.micros
    exact ih.trans_le (Micros.uuid micros)
  gone := by
    rintro ⟨t', ht', connecting, attempt⟩
    obtain ⟨t, ht, continues⟩ := run.continues ok t' ht' connecting id
    exact h.gone ⟨t, ht, continues.state, continues.attempt.symm.trans attempt⟩

/-- No step takes up an attempt that has ended: what a Phase A opens is new. -/
theorem Store.Ended.step (h : σ.store.Ended n) (ok : σ.Ok) (next : Step cfg σ l σ') :
    σ'.store.Ended n := by
  cases (step_spec ok next).1 with
  | phases phases =>
      obtain ⟨s₁, first, second⟩ := phases
      exact (h.moves ok.store first).moves (ok.store.moves first) second
  | @opens r i s₁ opens =>
      have ok₁ := ok.store.moves opens.before
      have mid := h.moves ok.store opens.before
      have opened := opens.opened.opened
      refine ⟨mid.drawn.trans opened.drawn, ?_⟩
      rintro ⟨t', ht', connecting, attempt⟩
      by_cases hid : t'.taskId = r.taskId
      · rw [(opened.bound t' ht' hid).2.2] at attempt
        exact mid.drawn.ne (Option.some.inj attempt).symm
      · obtain ⟨t, ht, continues⟩ := opened.run.continues ok₁ t' ht' connecting hid
        exact mid.gone ⟨t, ht, continues.state, continues.attempt.symm.trans attempt⟩

theorem Store.Ended.run {P : Sys → Env × Action → Prop} (h : σ.store.Ended n) (ok : σ.Ok)
    (run : Transition.Run (Step cfg) P σ σ') : σ'.Ok ∧ σ'.store.Ended n := by
  refine run.invariant (I := fun τ => τ.Ok ∧ τ.store.Ended n) ?_ ⟨ok, h⟩
  intro τ l τ' ih _ next
  exact ⟨(step_spec ih.1 next).2, ih.2.step ih.1 next⟩

/-- An executor of an attempt that has ended does nothing. -/
theorem Store.Ended.fenced {i : Intent} {now : Time} {p : GitProof} (h : s.Ended i.attemptId)
    (ok : s.Ok) : ∃ r, connectPhaseC cfg now s i p = .ok (s, r) ∧ r.fencedOut = true := by
  have lost : ownsAttempt s i = false := by
    rw [Bool.eq_false_iff]
    intro owns
    simp only [ownsAttempt, Bool.and_eq_true] at owns
    obtain ⟨t, ht, -, connecting, attempt, -⟩ := (ownsTask_iff ok).mp owns.1.1.1
    exact h.gone ⟨t, ht, connecting, attempt⟩
  rw [connectPhaseC, lost]
  exact ⟨_, rfl, rfl⟩

/-- An attempt ends once.  After a step that ends it no task is ever connecting with it again, so
no later step ends it a second time, and whoever still executes it is fenced out and leaves the
store as it is. -/
theorem attempt_ends_once (reach : Reachable cfg σ) (open_ : σ.store.Attempting n)
    (next : Step cfg σ l σ') (ended : ¬ σ'.store.Attempting n) {τ : Sys}
    (run : Transition.Run (Step cfg) (fun _ _ => True) σ' τ) :
    ¬ τ.store.Attempting n ∧ ∀ (i : Intent) (now : Time) (p : GitProof), i.attemptId = n →
      ∃ r, connectPhaseC cfg now τ.store i p = .ok (τ.store, r) ∧ r.fencedOut = true := by
  have ok := reach.ok
  have drawn : n < σ.store.uuid := by
    obtain ⟨t, ht, -, attempt⟩ := open_
    exact ok.store.attempts.attemptDrawn t ht n attempt
  have uuid : σ.store.uuid ≤ σ'.store.uuid :=
    (step_spec ok next).1.invariant (I := fun s => σ.store.uuid ≤ s.uuid)
      (fun _ _ _ _ _ _ ih change => ih.trans change.uuid) ok.store le_rfl
  have ended' : σ'.store.Ended n := ⟨drawn.trans_le uuid, ended⟩
  obtain ⟨ok', last⟩ := ended'.run (step_spec ok next).2 run
  refine ⟨last.gone, ?_⟩
  rintro i now p rfl
  exact last.fenced ok'.store

/-- The merge ends its attempt, and who executes it again is fenced out. -/
theorem attempt_ends_once_mergeDue : ∃ σ σ' : Sys, Reachable {} σ ∧ σ.store.Attempting 1 ∧
    ¬ σ'.store.Attempting 1 ∧ ∀ p, ∃ r,
      connectPhaseC {} 5 σ'.store mergeOfT p = .ok (σ'.store, r) ∧ r.fencedOut = true := by
  have run : ∃ σ, Reachable {} σ ∧ σ.store.Attempting 1 ∧
      (step {} ((Action.resume 0 {}).at 4).1 σ (.resume 0 {})).toOption.any
        fun σ' => ¬ σ'.store.Attempting 1 :=
    exists_reachable mergeDue (by decide +kernel)
  obtain ⟨σ, reach, open_, ends⟩ := run
  obtain ⟨σ', next, ended⟩ := exists_step (l := (Action.resume 0 {}).at 4) ends
  obtain ⟨-, fenced⟩ := attempt_ends_once reach open_ next ended (.refl σ')
  exact ⟨σ, σ', reach, open_, ended, fun p => fenced mergeOfT 5 p rfl⟩

/-! ## How an attempt ends -/

/-- A step that moves the task of an attempt out of `CONNECTING`, and what it makes of the task. -/
inductive AttemptEnd (cfg : Cfg) (env : Env) (σ : Sys) (a : Action) (s' : Store) (t t' : Task) :
    Prop
  | merged (h : Recovers σ a ∨ ∃ task input, Completes σ a task input)
      (proven : MergeProven env.git t) (state : t'.state = .MERGED)
  | rolledBack (h : Recovers σ a) (verified : RollbackVerified env.git False t)
      (back : t'.state = .DONE ∨ t.reclaims < t'.reclaims)
  | undone {task : TaskId} {input : Input} (h : Completes σ a task input)
      (verified : RollbackVerified env.git (input.merge.err = some .precondition) t)
      (back : t'.state = .DONE ∨ t.reclaims < t'.reclaims)
  | reclaimed {agent : AgentId} (owner : t.agentId = some agent)
      (h : Reclaims cfg σ (env, a) agent) (alive : ¬ σ.store.Retired agent)
      (retired : s'.Retired agent) (count : t.reclaims < t'.reclaims)
  | overwritten {b : BeginArgs} {claims : List Acquired} {state : TaskState} {input : Input}
      (h : σ.Cut a (.begin b (.ready claims state)) input) (key : t.taskId = b.taskId)
      (ready : t'.state = .READY)

/-- What becomes of the row of an attempt: it goes on, or its attempt ends. -/
structure Fate (cfg : Cfg) (env : Env) (σ : Sys) (a : Action) (s' : Store) (t t' : Task) :
    Prop where
  row : Survives t t'
  ends : t.Continues t' ∧ t'.state = .CONNECTING ∨ AttemptEnd cfg env σ a s' t t'

/-- A change that is not about the attempt leaves it open. -/
theorem TaskStep.goesOn (h : TaskStep c E s t t') (connecting : t.state = .CONNECTING)
    (free : ¬ E t.taskId) (no : ¬ c.may (.overwrite t.taskId)) :
    t.Continues t' ∧ t'.state = .CONNECTING := by
  obtain ⟨state, -⟩ := h.connecting free no connecting
  exact ⟨h.continues state free, state⟩

theorem Micros.goesOn (h : Micros c E s s') (ok : s.Ok) (ht : t ∈ s.tasks)
    (connecting : t.state = .CONNECTING) (free : ¬ E t.taskId)
    (no : ¬ c.may (.overwrite t.taskId)) :
    s.RowTo s' t fun t' => t.Continues t' ∧ t'.state = .CONNECTING := by
  refine h.rowTo (P := fun _ t' => t.Continues t' ∧ t'.state = .CONNECTING) ok ht
    (fun _ _ h => h.1.id) ⟨.of_attempt rfl connecting rfl rfl, connecting⟩ ?_
  rintro s₁ s₂ t₁ t₂ - - ⟨goes, state⟩ - step
  obtain ⟨goes', state'⟩ := step.goesOn state (goes.id ▸ free) (goes.id ▸ no)
  exact ⟨goes.trans goes', state'⟩

/-- A row that is not archived is there. -/
theorem Micros.rowStays (h : Micros c E s s') (ok : s.Ok) (ht : t ∈ s.tasks) :
    s.RowTo s' t fun t' => t'.taskId = t.taskId :=
  h.rowTo (P := fun _ t' => t'.taskId = t.taskId) ok ht (fun _ _ h => h) rfl
    fun _ _ _ _ _ _ h₁ _ h₂ => h₂.id.trans h₁

/-- What the reclaim of an agent makes of a task that it may count. -/
theorem AgentReclaimed.row {agent : AgentId} (h : AgentReclaimed c agent s s') (ok : s.Ok)
    (ht : t ∈ s.tasks) (owner : t.agentId = some agent) :
    s.RowTo s' t fun t' => t' = t ∧ t.state.inProgress = false ∨
      t'.taskId = t.taskId ∧ t'.reclaims = t.reclaims + 1 := by
  obtain ⟨sems, run, -⟩ := h.run
  intro same
  obtain ⟨t', ht', id⟩ := run.rowStays ok ht same
  refine ⟨t', ht', ?_⟩
  rcases h.tasks t' ht' with ⟨kept, idle⟩ | ⟨r, hr, id', -, requeued⟩
  · cases ok.task_eq kept ht id
    exact Or.inl ⟨rfl, idle owner⟩
  · cases ok.task_eq hr ht (id'.symm.trans id)
    exact Or.inr ⟨id, requeued.count⟩

/-- What one move makes of an attempt that is open. -/
theorem Move.ends (h : Move c s s') (ok : s.Ok) (ht : t ∈ s.tasks)
    (connecting : t.state = .CONNECTING) (no : ¬ c.may (.overwrite t.taskId)) :
    s.RowTo s' t fun t' => t.Continues t' ∧ t'.state = .CONNECTING ∨ t'.taskId = t.taskId ∧
      (c.may (.merge t) ∧ t'.state = .MERGED ∨ c.may (.rollback t) ∧ t'.state = .DONE ∨
        t.reclaims < t'.reclaims ∧ ∃ agent, t.agentId = some agent ∧ c.reclaims agent ∧
          s.Alive agent ∧ s'.Retired agent) := by
  have goesOn {c' : Scope} {E : TaskId → Prop} (run : Micros c' E s s') (free : ¬ E t.taskId)
      (no : ¬ c'.may (.overwrite t.taskId)) {P : Task → Prop} :
      s.RowTo s' t fun t' => t.Continues t' ∧ t'.state = .CONNECTING ∨ P t' := by
    intro same
    obtain ⟨t', ht', h'⟩ := run.goesOn ok ht connecting free no same
    exact ⟨t', ht', Or.inl h'⟩
  cases h with
  | micro h => exact goesOn (.single h) id no
  | takenOver r h =>
      by_cases hid : t.taskId = r.taskId
      · intro same
        obtain ⟨t', ht', id⟩ := h.run.rowStays ok ht same
        cases ok.task_eq ht h.task hid
        obtain ⟨state, -, attempt, token, agent, evidence, -⟩ := h.bound t' ht' id
        exact ⟨t', ht', Or.inl ⟨⟨id, connecting, agent, attempt, token, evidence⟩, state⟩⟩
      · exact goesOn h.run hid no
  | closed r h =>
      by_cases hid : t.taskId = r.taskId
      · intro same
        obtain ⟨t', ht', id⟩ := h.run.rowStays ok ht same
        cases ok.task_eq ht h.task hid
        refine ⟨t', ht', Or.inr ⟨id, ?_⟩⟩
        rcases h.ended with ⟨may, ended⟩ | ⟨may, ended⟩
        · exact Or.inl ⟨may, ended t' ht' id⟩
        · exact Or.inr (Or.inl ⟨may, ended t' ht' id⟩)
      · exact goesOn h.run hid no
  | handed sems h => exact goesOn h.run id no
  | cancelled task h =>
      by_cases hid : t.taskId = task
      · rcases h.idle t ht hid with waiting | aborted
        · simp [connecting, TaskState.admission] at waiting
        · simp [connecting] at aborted
      · exact goesOn h.run hid no
  | reclaimed agent h =>
      obtain ⟨sems, run, -⟩ := h.run
      by_cases owner : t.agentId = some agent
      · intro same
        obtain ⟨t', ht', idle | ⟨id, count⟩⟩ := h.row ok ht owner same
        · simp [connecting, TaskState.inProgress] at idle
        · refine ⟨t', ht', Or.inr ⟨id, Or.inr (Or.inr ⟨by omega, agent, owner, ?_, h.alive,
            h.retired⟩)⟩⟩
          exact h.may.elim Or.inr fun h => Or.inl h.1
      · refine goesOn run ?_ no
        rintro ⟨r, hr, id, owner'⟩
        exact owner (ok.task_eq ht hr id.symm ▸ owner')

/-- What one move makes of a task that is done. -/
theorem Move.done (h : Move c s s') (ok : s.Ok) (ht : t ∈ s.tasks) (done : t.state = .DONE)
    (no : ¬ c.may (.overwrite t.taskId)) :
    s.RowTo s' t fun t' =>
      t'.taskId = t.taskId ∧ (t'.state = .DONE ∨ t.reclaims < t'.reclaims) := by
  have rests {c' : Scope} {E : TaskId → Prop} (run : Micros c' E s s') (free : ¬ E t.taskId)
      (no : ¬ c'.may (.overwrite t.taskId)) : s.RowTo s' t fun t' =>
        t'.taskId = t.taskId ∧ (t'.state = .DONE ∨ t.reclaims < t'.reclaims) := by
    suffices s.RowTo s' t fun t' => t'.taskId = t.taskId ∧ t'.state = .DONE by
      intro same
      obtain ⟨t', ht', id, state⟩ := this same
      exact ⟨t', ht', id, Or.inl state⟩
    refine run.rowTo (P := fun _ t' => t'.taskId = t.taskId ∧ t'.state = .DONE) ok ht
      (fun _ _ h => h.1) ⟨rfl, done⟩ ?_
    rintro s₁ s₂ t₁ t₂ - - ⟨id, state⟩ - step
    refine ⟨step.id.trans id, ?_⟩
    cases step.change with
    | keep same | sync same | refresh _ same => exact same.trans state
    | ready waiting => simp [state, id, no] at waiting
    | start _ admitted => simp [state] at admitted
    | finish started => simp [state] at started
    | abort exempt | reclaim _ _ exempt | attempt exempt => exact absurd (id ▸ exempt) free
  -- a group that is about a task that is connecting is about another
  have other {r : Task} (hr : r ∈ s.tasks) (connecting : r.state = .CONNECTING) :
      t.taskId ≠ r.taskId := by
    intro hid
    rw [← ok.task_eq ht hr hid, done] at connecting
    cases connecting
  cases h with
  | micro h => exact rests (.single h) id no
  | takenOver r h => exact rests h.run (other h.task h.state) no
  | closed r h => exact rests h.run (other h.task h.state) no
  | handed sems h => exact rests h.run id no
  | cancelled task h =>
      by_cases hid : t.taskId = task
      · rcases h.idle t ht hid with waiting | aborted
        · simp [done, TaskState.admission] at waiting
        · simp [done] at aborted
      · exact rests h.run hid no
  | reclaimed agent h =>
      obtain ⟨sems, run, -⟩ := h.run
      by_cases owner : t.agentId = some agent
      · intro same
        obtain ⟨t', ht', ⟨rfl, -⟩ | ⟨id, count⟩⟩ := h.row ok ht owner same
        · exact ⟨_, ht', rfl, Or.inl done⟩
        · exact ⟨t', ht', id, Or.inr (by omega)⟩
      · refine rests run ?_ no
        rintro ⟨r, hr, id, owner'⟩
        exact owner (ok.task_eq ht hr id.symm ▸ owner')

theorem Micros.survives (h : Micros c E s s') (ok : s.Ok) (ht : t ∈ s.tasks)
    (no : ¬ c.may (.overwrite t.taskId)) : s.RowTo s' t (Survives t) := by
  refine h.rowTo (P := fun _ => Survives t) ok ht (fun _ _ h => h.id) (.refl t) ?_
  intro s₁ s₂ t₁ t₂ _ _ h₁ _ h₂
  exact h₁.trans (h₂.survives (h₁.id ▸ no))

theorem Move.survives (h : Move c s s') (ok : s.Ok) (ht : t ∈ s.tasks)
    (no : ¬ c.may (.overwrite t.taskId)) : s.RowTo s' t (Survives t) := by
  obtain ⟨c', E, within, run⟩ := h.micros
  refine run.survives ok ht fun may => ?_
  rcases within.may _ may with may | ⟨sem, h⟩
  · exact no may
  · cases h

theorem Task.Continues.mergeProven {git : Option GitView} (h : t.Continues t')
    (proven : MergeProven git t') : MergeProven git t := by
  have bound : t'.connectRepoBound = t.connectRepoBound := congrArg (·.1) h.evidence
  have tip : t'.branchTipSha = t.branchTipSha := congrArg (·.2.1) h.evidence
  simpa only [MergeProven, bound, tip, h.attempt] using proven

theorem Task.Continues.rollbackVerified {git : Option GitView} {stopped : Prop}
    (h : t.Continues t') (verified : RollbackVerified git stopped t') :
    RollbackVerified git stopped t := by
  have bound : t'.connectRepoBound = t.connectRepoBound := congrArg (·.1) h.evidence
  have base : t'.integrationBaseSha = t.integrationBaseSha := congrArg (·.2.2) h.evidence
  simpa only [RollbackVerified, bound, base, h.attempt] using verified

/-- The action writes `READY` over no read of the task. -/
def Calm (σ : Sys) (a : Action) (t : Task) : Prop :=
  ∀ b claims state input, σ.Cut a (.begin b (.ready claims state)) input → t.taskId ≠ b.taskId

theorem Calm.no_overwrite (h : Calm σ a t) : ¬ Licence cfg env σ a (.overwrite t.taskId) := by
  intro may
  generalize key : t.taskId = id at may
  cases may with
  | overwrite cut => exact h _ _ _ _ cut key

/-- What an end made of a task stays, as long as what is done stays done. -/
theorem AttemptEnd.lasts {t₁ t₂ : Task} (h : AttemptEnd cfg env σ a s t t₁) (calm : Calm σ a t)
    (before : Survives t t₁) (row : Survives t₁ t₂)
    (done : t₁.state = .DONE → t₂.state = .DONE ∨ t₁.reclaims < t₂.reclaims)
    (dead : ∀ agent, s.Retired agent → s'.Retired agent) : AttemptEnd cfg env σ a s' t t₂ := by
  have le := before.count
  have le' := row.count
  have taken (back : t₁.state = .DONE ∨ t.reclaims < t₁.reclaims) :
      t₂.state = .DONE ∨ t.reclaims < t₂.reclaims := by
    rcases back with back | back
    · exact (done back).imp_right fun lt => by omega
    · exact Or.inr (by omega)
  cases h with
  | merged h proven state =>
      exact .merged h proven ((row.ended (by rw [state]; rfl)).trans state)
  | rolledBack h verified back => exact .rolledBack h verified (taken back)
  | undone h verified back => exact .undone h verified (taken back)
  | reclaimed owner h alive retired count =>
      exact .reclaimed owner h alive (dead _ retired) (by omega)
  | overwritten cut key => exact absurd key (calm _ _ _ _ cut)

/-- What holds of an attempt amid a step. -/
structure Fated (cfg : Cfg) (env : Env) (σ : Sys) (a : Action) (t : Task) (s : Store) : Prop where
  ok : s.Ok
  dead : ∀ agent, σ.store.Retired agent → s.Retired agent
  departures : σ.store.departures t.taskId ≤ s.departures t.taskId
  row : σ.store.RowTo s t (Fate cfg env σ a s t)

theorem Fated.next (h : Fated cfg env σ a t s) (ok : s'.Ok)
    (dead : ∀ agent, s.Retired agent → s'.Retired agent)
    (departures : s.departures t.taskId ≤ s'.departures t.taskId)
    (row : ∀ t₁ ∈ s.tasks, Fate cfg env σ a s t t₁ → s.RowTo s' t₁ (Fate cfg env σ a s' t)) :
    Fated cfg env σ a t s' where
  ok := ok
  dead := fun agent retired => dead agent (h.dead agent retired)
  departures := h.departures.trans departures
  row := by
    intro same
    have le := h.departures
    obtain ⟨t₁, ht₁, h₁⟩ := h.row (by omega)
    exact row t₁ ht₁ h₁ (by rw [h₁.row.id]; omega)

theorem Fate.move {may : Deed → Prop} {t₁ : Task} (h : Fate cfg env σ a s t t₁)
    (licensed : ∀ d, may d → Licence cfg env σ a d) (calm : Calm σ a t)
    (dead : ∀ agent, σ.store.Retired agent → s.Retired agent) (ok : s.Ok) (ht₁ : t₁ ∈ s.tasks)
    (move : Move ⟨cfg, env.now, may⟩ s s') : s.RowTo s' t₁ (Fate cfg env σ a s' t) := by
  intro same
  have ok' := ok.move move
  have no : ¬ may (.overwrite t₁.taskId) :=
    fun write => calm.no_overwrite (h.row.id ▸ licensed _ write)
  obtain ⟨t₂, ht₂, row⟩ := move.survives ok ht₁ no same
  have unique {r : Task} (hr : r ∈ s'.tasks) (id : r.taskId = t₁.taskId) : r = t₂ :=
    ok'.task_eq hr ht₂ (id.trans row.id.symm)
  refine ⟨t₂, ht₂, h.row.trans row, ?_⟩
  rcases h.ends with ⟨goes, connecting⟩ | ended
  · obtain ⟨r, hr, goes' | ⟨id, ends⟩⟩ := move.ends ok ht₁ connecting no same
    · cases unique hr goes'.1.id
      exact Or.inl ⟨goes.trans goes'.1, goes'.2⟩
    · cases unique hr id
      have le := h.row.count
      right
      rcases ends with ⟨may, state⟩ | ⟨may, state⟩ | ⟨count, agent, owner, may, alive, retired⟩
      · cases licensed _ may with
        | merge h proven => exact .merged h (goes.mergeProven proven) state
      · cases licensed _ may with
        | rollback h verified => exact .rolledBack h (goes.rollbackVerified verified) (.inl state)
        | undo h verified => exact .undone h (goes.rollbackVerified verified) (.inl state)
      · exact .reclaimed (goes.agent ▸ owner) (Licence.reclaims (may.imp (licensed _) (licensed _)))
          (fun before => (dead agent before).not_alive alive) retired (by omega)
  · refine Or.inr (ended.lasts calm h.row row (fun done => ?_) fun _ dead => dead.move ok move)
    obtain ⟨r, hr, id, back⟩ := move.done ok ht₁ done no same
    cases unique hr id
    exact back

theorem Fated.moves {may : Deed → Prop} (h : Fated cfg env σ a t s)
    (licensed : ∀ d, may d → Licence cfg env σ a d) (calm : Calm σ a t)
    (run : Moves ⟨cfg, env.now, may⟩ s s') : Fated cfg env σ a t s' := by
  refine (Moves.invariant (I := Fated cfg env σ a t) (fun s₁ s₂ ok₁ ih move => ?_) run h.ok h).2
  exact ih.next (ok₁.move move) (fun agent dead => dead.move ok₁ move) (move.departures t.taskId)
    fun t₁ ht₁ h₁ => h₁.move licensed calm ih.dead ok₁ ht₁ move

/-- An action that opens an attempt ends none by its merge or its rollback. -/
theorem Opens.apart {r : Task} {i : Intent} {s₁ : Store} (h : Opens cfg env σ a r i s₁ s') :
    ¬ Recovers σ a ∧ ∀ task input, ¬ Completes σ a task input := by
  have cut : ∃ p input, σ.Cut a p input ∧ ((∃ c, p = .connect c .phaseA) ∨
      ∃ q trip, p = .arrive q (.next trip)) := by
    rcases h.cut with ⟨c, input, cut, -⟩ | ⟨q, trip, _, _, input, cut, -⟩
    · exact ⟨_, input, cut, Or.inl ⟨c, rfl⟩⟩
    · exact ⟨_, input, cut, Or.inr ⟨q, trip, rfl⟩⟩
  obtain ⟨p, input, cut, opening⟩ := cut
  constructor
  · intro recovers
    cases recovers with
    | action h =>
        obtain ⟨_, h', -⟩ := cut
        cases h.symm.trans h'
    | connect h | arrive h | bail h =>
        cases (h.unique cut).1
        simp at opening
  · intro task input' completes
    cases completes with
    | connect h | trip h =>
        cases (h.unique cut).1
        simp at opening

/-- What a step makes of a task that is connecting, as long as its row is not archived. -/
theorem Stepped.fate (h : Stepped cfg env σ a s') (ok : σ.store.Ok) (calm : Calm σ a t)
    (ht : t ∈ σ.store.tasks) (connecting : t.state = .CONNECTING) :
    σ.store.RowTo s' t (Fate cfg env σ a s' t) := by
  have init : Fated cfg env σ a t σ.store :=
    ⟨ok, fun _ dead => dead, le_rfl, fun _ =>
      ⟨t, ht, .refl t, Or.inl ⟨.of_attempt rfl connecting rfl rfl, connecting⟩⟩⟩
  suffices Fated cfg env σ a t s' from this.row
  cases h with
  | phases h =>
      obtain ⟨s₁, first, second⟩ := h
      exact (init.moves (fun _ => And.left) calm first).moves (fun _ => And.left) calm second
  | @opens r i s₁ h =>
      have mid := init.moves (fun _ => And.left) calm h.before
      have opened := h.opened.opened
      have ok' := mid.ok.micros opened.run
      have dead (agent : AgentId) (retired : s₁.Retired agent) : s'.Retired agent :=
        retired.micros mid.ok opened.run
      refine mid.next ok' dead (Micros.departures opened.run _) fun t₁ ht₁ h₁ same => ?_
      have no : ¬ (σ.scope cfg env a).may (.overwrite t₁.taskId) :=
        fun write => calm.no_overwrite (h₁.row.id ▸ write.1)
      obtain ⟨t₂, ht₂, row⟩ := opened.run.survives mid.ok ht₁ no same
      refine ⟨t₂, ht₂, h₁.row.trans row, ?_⟩
      rcases h₁.ends with ⟨goes, state⟩ | ended
      · have other : t₁.taskId ≠ r.taskId := by
          intro hid
          have := opened.state
          rw [← mid.ok.task_eq ht₁ opened.task hid, state] at this
          simp at this
        obtain ⟨r', hr', goes', state'⟩ := opened.run.goesOn mid.ok ht₁ state other no same
        cases ok'.task_eq hr' ht₂ (goes'.id.trans row.id.symm)
        exact Or.inl ⟨goes.trans goes', state'⟩
      · have le := row.count
        refine Or.inr ?_
        cases ended with
        | merged h' =>
            rcases h' with h' | ⟨task, input, h'⟩
            · exact absurd h' h.apart.1
            · exact absurd h' (h.apart.2 _ _)
        | rolledBack h' => exact absurd h' h.apart.1
        | undone h' => exact absurd h' (h.apart.2 _ _)
        | reclaimed owner h' alive retired count =>
            exact .reclaimed owner h' alive (dead _ retired) (by omega)
        | overwritten cut key => exact absurd key (calm _ _ _ _ cut)

/-- What a step makes of a task that is connecting, as long as its row is not archived. -/
theorem step_fate (ok : σ.Ok) (next : Step cfg σ l σ') (ht : t ∈ σ.store.tasks)
    (connecting : t.state = .CONNECTING) :
    σ.store.RowTo σ'.store t (fun t' => t'.taskId = t.taskId ∧
      (t.Continues t' ∧ t'.state = .CONNECTING ∨ AttemptEnd cfg l.1 σ l.2 σ'.store t t')) := by
  by_cases calm : Calm σ l.2 t
  · intro same
    obtain ⟨t', ht', h⟩ := (step_spec ok next).1.fate ok.store calm ht connecting same
    exact ⟨t', ht', h.row.id, h.ends⟩
  · intro _
    simp only [Calm, not_forall, not_not] at calm
    obtain ⟨b, claims, state, input, ⟨i, act, found⟩, key⟩ := calm
    obtain ⟨env, a⟩ := l
    cases act
    refine ⟨{ t with state := .READY }, ?_, rfl, Or.inr (.overwritten ⟨i, rfl, found⟩ key rfl)⟩
    rw [step_beginReady found next]
    exact Table.mem_modify.mpr (Or.inr ⟨t, ht, key, rfl⟩)

/-- Until its row is archived an attempt is open, or a step of the run has ended it: it was merged,
which the repository showed; it was rolled back, which the repository showed; its agent died; or a
begin wrote over it. -/
theorem attempt_ends (reach : Reachable cfg σ) (ht : t ∈ σ.store.tasks)
    (connecting : t.state = .CONNECTING) {τ : Sys}
    (run : Transition.Run (Step cfg) (fun _ _ => True) σ τ) :
    σ.store.RowTo τ.store t (fun t' => t.Continues t' ∧ t'.state = .CONNECTING) ∨
      ∃ σ₁ l σ₂, Transition.Run (Step cfg) (fun _ _ => True) σ σ₁ ∧ Step cfg σ₁ l σ₂ ∧
        Transition.Run (Step cfg) (fun _ _ => True) σ₂ τ ∧ ∃ t₁ ∈ σ₁.store.tasks,
          t.Continues t₁ ∧ t₁.state = .CONNECTING ∧ ∃ t₂ ∈ σ₂.store.tasks,
            t₂.taskId = t.taskId ∧ AttemptEnd cfg l.1 σ₁ l.2 σ₂.store t₁ t₂ := by
  induction run with
  | refl => exact Or.inl fun _ => ⟨t, ht, .of_attempt rfl connecting rfl rfl, connecting⟩
  | @tail τ τ' l run _ next ih =>
      have reach' : Reachable cfg τ := reach.trans run
      have ok := reach'.ok
      rcases ih with row | ⟨σ₁, l₁, σ₂, before, ends, after, h⟩
      · have le : σ.store.departures t.taskId ≤ τ.store.departures t.taskId :=
          reach.ok.run_invariant (I := fun s => σ.store.departures t.taskId ≤ s.departures t.taskId)
            (fun _ _ _ _ _ ih change => ih.trans (change.departures _)) run le_rfl
        have le' : τ.store.departures t.taskId ≤ τ'.store.departures t.taskId :=
          (step_spec ok next).1.invariant
            (I := fun s => τ.store.departures t.taskId ≤ s.departures t.taskId)
            (fun _ _ _ _ _ _ ih change => ih.trans (change.departures _)) ok.store le_rfl
        by_cases same : τ'.store.departures t.taskId = σ.store.departures t.taskId
        · obtain ⟨t₁, ht₁, goes, state⟩ := row (by omega)
          obtain ⟨t₂, ht₂, id, h⟩ := step_fate ok next ht₁ state (by rw [goes.id]; omega)
          rcases h with ⟨goes', state'⟩ | ended
          · exact Or.inl fun _ => ⟨t₂, ht₂, goes.trans goes', state'⟩
          · exact Or.inr ⟨τ, l, τ', run, next, .refl τ', t₁, ht₁, goes, state, t₂, ht₂,
              id.trans goes.id, ended⟩
        · exact Or.inl fun h => absurd h same
      · exact Or.inr ⟨σ₁, l₁, σ₂, before, ends, after.tail trivial next, h⟩

/-- A coordinator whose integration branch shows the commit, or no merge at all. -/
def showing (merge : Option Sha) (now : Time) (a : Action) : Env × Action :=
  ({ now := now
     instanceId := "c"
     git := some
       { branchTip := fun _ => some "c"
         integrationTip := some "m"
         changedPaths := fun _ _ => some ["a"]
         branchInIntegration := fun _ => some merge
         isAncestor := fun tip sha => tip = "c" && sha = "s" } }, a)

/-- A task begins and its merge in the repository is about to be judged. -/
def judged : List (Env × Action) :=
  ([ .begin { taskId := "T", agentId := "A", writes := ["a"] },
      .resume 0 {}, .resume 0 {}, .resume 0 {}, .resume 0 {}, .resume 0 {}, .resume 0 {} ].map
    (showing none 1)) ++
  ([ .connect { taskId := "T", agentId := some "A", fence := some 1 },
      .resume 1 {}, .resume 1 {}, .resume 1 {} ].map (showing none 2))

/-- The merge is how the attempt of a task that is bound to a repository ends. -/
theorem attempt_ends_judged : ∃ σ τ t, Reachable {} σ ∧ t ∈ σ.store.tasks ∧
    t.state = .CONNECTING ∧ ∃ σ₁ l σ₂ t₁ t₂, Step {} σ₁ l σ₂ ∧
      Transition.Run (Step {}) (fun _ _ => True) σ₂ τ ∧ t₁.connectRepoBound = true ∧
        AttemptEnd {} l.1 σ₁ l.2 σ₂.store t₁ t₂ := by
  have run : ∃ σ, Reachable {} σ ∧
      (∃ t ∈ σ.store.tasks, t.state = .CONNECTING ∧ t.connectRepoBound = true) ∧
        (step {} (showing (some "s") 3 .recover).1 σ (.resume 1 {})).toOption.any fun σ' =>
          (∀ t ∈ σ'.store.tasks, t.state = .MERGED) ∧
            σ'.store.departures "T" = σ.store.departures "T" ∧
              ∀ t ∈ σ.store.tasks, t.taskId = "T" :=
    exists_reachable judged (by decide +kernel)
  obtain ⟨σ, reach, ⟨t, ht, connecting, bound⟩, ends⟩ := run
  obtain ⟨σ', next, merged, same, only⟩ :=
    exists_step (l := showing (some "s") 3 (.resume 1 {})) ends
  have run : Transition.Run (Step {}) (fun _ _ => True) σ σ' := .tail (.refl σ) trivial next
  rcases attempt_ends reach ht connecting run with goes | ⟨σ₁, l, σ₂, -, step, rest, h⟩
  · obtain ⟨t', ht', -, state⟩ := goes (by rw [only t ht, same])
    rw [merged t' ht'] at state
    cases state
  · obtain ⟨t₁, -, goes, -, t₂, -, -, end_⟩ := h
    have bound₁ : t₁.connectRepoBound = true := (congrArg (·.1) goes.evidence).trans bound
    exact ⟨σ, σ', t, reach, ht, connecting, σ₁, l, σ₂, t₁, t₂, step, rest, bound₁, end_⟩

end Omd
