import Omd.Effects.Attempt

/-!
# The effect of recovery

Recovery walks over the attempts that were left behind.  Each round is about one task: it
takes the attempt over, and then ends it or guards its token.  The walk keeps that every
attempt it has passed is guarded, so the tokens it expires afterwards are nobody's.
-/

namespace Omd

open Lib

variable {c : Scope} {E : TaskId → Prop} {s s₁ s' : Store}

/-! ## Tokens -/

/-- A token that is held was held before, unless it is new. -/
theorem Micro.heldToken (h : Micro c E s s') (ok : s.Ok) {o' : Orbit} (ho' : o' ∈ s'.orbits)
    (kind : o'.kind = .merge_token) (held : o'.state = .HELD) (old : o'.orbitId < s.uuid) :
    ∃ o ∈ s.orbits, o.orbitId = o'.orbitId ∧ o.kind = .merge_token ∧ o.state = .HELD := by
  rcases (h.orbits ok).back ho' with ⟨o, ho, step⟩ | ⟨-, hid⟩
  · have hkind : o.kind = .merge_token := step.row.kind ▸ kind
    refine ⟨o, ho, step.row.orbitId.symm, hkind, ?_⟩
    cases step.change with
    | keep state => exact state ▸ held
    | expire _ state => rw [state] at held; cases held
    | deny _ state => rw [state] at held; cases held
    | promote pending => rw [(isPending_iff.mp pending).2] at hkind; cases hkind
    | release kind => rw [kind] at hkind; cases hkind
    | lease _ held _ => exact held
    | permit _ held => exact held
    | cancelled _ _ _ kind => rw [kind] at hkind; cases hkind
    | reclaimed _ kind => rw [kind] at hkind; cases hkind
    | attempt _ _ kind => rw [kind] at hkind; cases hkind
    | token _ held _ _ => exact held
    | rebind _ _ state => exact state ▸ held
  · exact absurd hid old.ne

/-- The old tokens that are held were held before. -/
def Store.TokensFrom (s s' : Store) : Prop :=
  s.uuid ≤ s'.uuid ∧ ∀ o' ∈ s'.orbits, o'.kind = .merge_token → o'.state = .HELD →
    o'.orbitId < s.uuid →
      ∃ o ∈ s.orbits, o.orbitId = o'.orbitId ∧ o.kind = .merge_token ∧ o.state = .HELD

theorem Moves.tokensFrom (h : Moves c s s') (ok : s.Ok) : s.TokensFrom s' := by
  refine (Moves.invariant (I := s.TokensFrom) (fun s₁ s₂ ok₁ back move => ?_) h ok
    ⟨le_rfl, fun o ho kind held _ => ⟨o, ho, rfl, kind, held⟩⟩).2
  refine move.invariant (I := s.TokensFrom) (fun _ _ s₃ s₄ _ ok₃ ih micro => ?_) ok₁ back
  refine ⟨ih.1.trans micro.uuid, fun o' ho' kind held old => ?_⟩
  obtain ⟨o, ho, hid, hkind, hheld⟩ := micro.heldToken ok₃ ho' kind held (old.trans_le ih.1)
  obtain ⟨o₀, ho₀, hid₀, h₀⟩ := ih.2 o ho hkind hheld (hid ▸ old)
  exact ⟨o₀, ho₀, hid₀.trans hid, h₀⟩

/-! ## The takeover -/

theorem tokenBound_eq {t : Task} {operation : Option AttemptId} {owner : Option String}
    {generation : Option ℕ} {o : Orbit} (h : tokenBound t operation owner generation o = true) :
    o.state = .HELD ∧ o.kind = .merge_token := by
  simp only [tokenBound, Bool.and_eq_true, decide_eq_true_eq] at h
  obtain ⟨⟨⟨⟨⟨⟨hstate, hkind⟩, -⟩, -⟩, -⟩, -⟩, -⟩ := h
  exact ⟨hstate, hkind⟩

/-- The attempt that recovery found, with its held token. -/
structure Found (s : Store) (t : Task) (o : Orbit) (n : AttemptId) : Prop where
  attempt : t.connectAttemptId = some n
  token : t.connectTokenId = some o.orbitId
  mem : o ∈ s.orbits
  kind : o.kind = .merge_token
  held : o.state = .HELD

/-- An attempt that recovery accepts is a bound one. -/
theorem recoverBinding_spec {t : Task} {b : Binding} (ok : s.Ok) (ht : t ∈ s.tasks)
    (connecting : t.state = .CONNECTING) (h : recoverBinding s t = some b) :
    ∃ o n, Found s t o n ∧ b.tokenId = some o.orbitId := by
  rw [recoverBinding] at h
  split at h
  · rename_i hnone
    exact absurd hnone (ok.attempts.bound t ht connecting).1
  rename_i attempt hattempt
  rw [modernBinding] at h
  split at h
  · cases h
  rename_i owner howner
  split at h
  · cases h
  split at h
  · cases h
  rename_i o hget
  split at h
  · cases h
  rename_i hbound
  split at h
  · cases h
  cases h
  rw [Option.bind_eq_some_iff] at hget
  obtain ⟨id, htoken, hget⟩ := hget
  obtain ⟨hmem, rfl⟩ := ok.getOrbit.mp hget
  obtain ⟨held, kind⟩ := tokenBound_eq (by simpa using hbound)
  exact ⟨o, attempt, ⟨hattempt, htoken, hmem, kind, held⟩, rfl⟩

theorem takeoverRequest_requested {env : Env} {t : Task} {attempt : AttemptId}
    {request : Option IdemRow} (h : takeoverRequest env s t attempt request = .ok s') :
    Requested c s s' := by
  unfold takeoverRequest at h
  split at h
  · cases h
    exact .refl _
  · split at h
    · cases h
    · rename_i htake
      cases h
      exact takeoverIdemOperationExact_requested htake

/-- What a takeover leaves. -/
structure TookOver (c : Scope) (t : Task) (o : Orbit) (s s' : Store) : Prop where
  takenOver : TakenOver c t s s'
  focus : Focus c t.taskId s s'
  row : ∃ t' ∈ s'.tasks, t'.taskId = t.taskId ∧ t'.state = .CONNECTING ∧
    t'.connectTokenId = some o.orbitId ∧ t'.connectAttemptId = t.connectAttemptId
  kind : ∀ r ∈ s'.orbits, r.orbitId = o.orbitId → r.kind = .merge_token

theorem takeover_spec {env : Env} {t : Task} {b : Binding} {o : Orbit} {attempt : AttemptId}
    (ok : s.Ok) (ht : t ∈ s.tasks) (connecting : t.state = .CONNECTING)
    (bound : Found s t o attempt) (token : b.tokenId = some o.orbitId)
    (h : takeover env s t b = .ok s') : TookOver c t o s s' := by
  simp only [takeover, bound.attempt, token] at h
  have request : Requested c _ s' := takeoverRequest_requested h
  -- the new columns of the task, and of its token
  obtain ⟨f, hf⟩ : ∃ f : Task → Task, f = fun r =>
      { r with
        connectAttemptId := some attempt
        connectOwnerInstance := some env.instanceId
        connectOwnerGeneration := t.connectOwnerGeneration + 1
        connectTokenId := some o.orbitId } := ⟨_, rfl⟩
  obtain ⟨g, hg⟩ : ∃ g : Orbit → Orbit, g = fun r =>
      { r with
        operationId := some attempt
        ownerInstance := some env.instanceId
        ownerGeneration := some (t.connectOwnerGeneration + 1) } := ⟨_, rfl⟩
  rw [← hf, ← hg] at request
  have hrow : f t = { t with
      connectOwnerInstance := some env.instanceId
      connectOwnerGeneration := t.connectOwnerGeneration + 1 } := by
    rw [hf]
    simp only [← bound.attempt, ← bound.token]
  have task : Focus c t.taskId s (s.setTask t.taskId f) := by
    refine Focus.setTask fun ok r hr hid => ?_
    cases ok.task_eq hr ht hid
    rw [hrow]
    refine ⟨rfl, .same rfl rfl, Or.inl rfl, id,
      .attempt rfl (Or.inr ⟨connecting, Or.inl connecting⟩) rfl rfl ?_⟩
    exact ⟨Or.inl rfl, Or.inl rfl, ok.attempts.tokenDrawn t ht, ok.attempts.attemptDrawn t ht,
      fun _ => ok.attempts.bound t ht connecting⟩
  obtain ⟨run, others⟩ := task ok
  have ok₁ := ok.micros run
  have orbit : Keeps c (· = t.taskId) (s.setTask t.taskId f)
      ((s.setTask t.taskId f).setOrbit o.orbitId g) := by
    refine Keeps.setOrbit (fun r hr hid => ?_) fun r hr hid => ?_ <;>
      cases ok.orbit_eq hr bound.mem hid <;> rw [hg]
    · refine ⟨rfl, .rebind bound.kind (unbound_of_others ok ht bound.token others) rfl, fun h => ?_⟩
      rw [bound.kind] at h
      cases h
    · exact .silent fun _ => ⟨rfl, Or.inl rfl⟩
  have focus : Focus c t.taskId s s' := (task.trans orbit.focus).trans (request.keeps _).focus
  have htasks : ∀ r, r ∈ s'.tasks ↔ r ∈ s.tasks ∧ r.taskId ≠ t.taskId ∨ r = f t := by
    intro r
    rw [request.apart.tasks]
    exact ok.mem_setTask ht f r
  have horbits : ∀ r, r ∈ s'.orbits ↔ r ∈ s.orbits ∧ r.orbitId ≠ o.orbitId ∨ r = g o := by
    intro r
    rw [request.apart.orbits]
    exact ok₁.mem_setOrbit bound.mem g r
  have hg' : (g o).kind = .merge_token := by
    rw [hg]
    exact bound.kind
  have hid : (f t).taskId = t.taskId := by rw [hrow]
  refine ⟨⟨ht, connecting, (focus ok).1, ?_, ?_, f t, (htasks _).mpr (Or.inr rfl), hid⟩,
    focus, ?_, ?_⟩
  · intro t' ht' hid
    rcases (htasks t').mp ht' with ⟨-, hne⟩ | rfl
    · exact absurd hid hne
    · rw [hrow]
      refine ⟨connecting, ⟨g o, (horbits _).mpr (Or.inr rfl), ?_⟩, rfl, rfl, rfl, rfl, rfl⟩
      rw [hg]
      refine ⟨bound.token, bound.kind, bound.held, ?_, Option.some_ne_none _, ?_⟩
      · rw [bound.attempt]
        exact Option.some_ne_none _
      · simp [Orbit.binding, bound.attempt]
  · intro r kind
    rw [horbits]
    refine ⟨?_, fun hr => Or.inl ⟨hr, fun hid => ?_⟩⟩
    · rintro (⟨hr, -⟩ | rfl)
      · exact hr
      · rw [hg'] at kind
        cases kind
    · rw [ok.orbit_eq hr bound.mem hid, bound.kind] at kind
      cases kind
  · refine ⟨f t, (htasks _).mpr (Or.inr rfl), ?_⟩
    rw [hrow]
    exact ⟨rfl, connecting, bound.token, rfl⟩
  · intro r hr hid
    rcases (horbits r).mp hr with ⟨-, hne⟩ | rfl
    · exact absurd hid hne
    · exact hg'

/-! ## The verdict -/

theorem recoverVerdict_merged {git : Option GitView} {t : Task} {sha : Sha} {n : AttemptId}
    (attempt : t.connectAttemptId = some n) (h : recoverVerdict git t = .ok (.merged sha)) :
    MergeProven git t := by
  intro hbound
  simp only [recoverVerdict, hbound, Bool.not_true, Bool.false_eq_true, if_false, attemptTrailer,
    attempt] at h
  split at h
  · cases h
  rename_i view
  split at h
  · cases h
  rename_i hready
  split at h
  · cases h
  · rename_i sha' hsome
    split at h
    · rename_i htip
      simp only [reduceCtorEq, false_or, Option.any_eq_true] at htip
      obtain ⟨tip, htip, hancestor⟩ := htip
      exact ⟨view, n, sha', tip, rfl, by simpa using hready, attempt, hsome, htip, hancestor⟩
    · cases h
  · split at h
    · cases h
    · split at h <;> cases h

theorem recoverVerdict_rollback {git : Option GitView} {t : Task} {n : AttemptId}
    (attempt : t.connectAttemptId = some n) (h : recoverVerdict git t = .ok .rollback) :
    RollbackVerified git False t := by
  intro hbound
  simp only [recoverVerdict, hbound, Bool.not_true, Bool.false_eq_true, if_false, attemptTrailer,
    attempt] at h
  split at h
  · cases h
  rename_i view
  split at h
  · cases h
  rename_i hready
  split at h
  · cases h
  · split at h <;> cases h
  · rename_i hnone
    split at h
    · cases h
    · rename_i base hbase
      split at h
      · rename_i habort
        exact ⟨view, n, rfl, by simpa using hready, attempt, hnone,
          Or.inr ⟨base, hbase, habort⟩⟩
      · cases h
      · cases h

/-- Recovery finds the merge of the attempt of a task. -/
def Task.RecoveredMerged (git : Option GitView) (t : Task) : Prop :=
  t.state = .CONNECTING ∧ ∃ sha, recoverVerdict git t = .ok (.merged sha)

theorem recoverVerdict_congr {t t' : Task} (id : t'.taskId = t.taskId)
    (attempt : t'.connectAttemptId = t.connectAttemptId) (columns : t'.attempt.2 = t.attempt.2)
    (git : Option GitView) : recoverVerdict git t' = recoverVerdict git t := by
  have bound : t'.connectRepoBound = t.connectRepoBound := congrArg (·.1) columns
  have tip : t'.branchTipSha = t.branchTipSha := congrArg (·.2.1) columns
  have base : t'.integrationBaseSha = t.integrationBaseSha := congrArg (·.2.2) columns
  have trailer : attemptTrailer t' = attemptTrailer t := by
    rw [attemptTrailer, attemptTrailer, id, attempt]
  unfold recoverVerdict
  rw [bound, trailer, attempt, tip, base]

/-! ## One round -/

/-- The group that publishes a merge that recovery found. -/
theorem recoverMergeGroup {t : Task} {token : OrbitId} {sha : Sha}
    (mark : c.may (.mark t.taskId "merged")) (ht : t ∈ s.tasks) (connecting : t.state = .CONNECTING)
    (htoken : t.connectTokenId = some token)
    (kind : ∀ o ∈ s.orbits, o.orbitId = token → o.kind = .merge_token)
    (h : recoverMerge c.now s t.taskId (some token) sha = .ok s') (ok : s.Ok) :
    Focus c t.taskId s s' ∧ ∀ r ∈ s'.tasks, r.taskId = t.taskId → r.state = .MERGED := by
  rw [recoverMerge] at h
  rw [Outcome.bind_eq_ok] at h
  obtain ⟨s₁, h₁, h⟩ := h
  rw [Outcome.bind_eq_ok] at h
  obtain ⟨s₂, h₂, h⟩ := h
  rw [Outcome.bind_eq_ok] at h
  obtain ⟨s₃, h₃, h⟩ := h
  cases h
  rw [releaseToken] at h₃
  have columns := mergeColumns_focus (c := c) (s := s) t.taskId (some sha) c.now
  have publish := publishMerge_keeps (c := c) (E := (· = t.taskId)) rfl mark h₁
  have hconnecting : s₁.Connecting t.taskId := by
    intro r hr hid
    rw [(publish (ok.micros (columns ok).1)).2] at hr
    exact row_setTask (P := fun r => r.state = .CONNECTING)
      (fun r hr hid => (ok.task_eq hr ht hid) ▸ connecting) r hr hid
  obtain ⟨merge, merged⟩ := mergeTask_focus (c := c) hconnecting h₂
  have all := releaseToken_focus ht htoken kind ((columns.trans publish.focus).trans merge) h₃
  have flag : Keeps c (· = t.taskId) s₃ (s₃.setFlag t.taskId "merged" none) :=
    setFlag_keeps mark fun _ => rfl
  refine ⟨all.trans flag.focus, fun r hr hid => merged r ?_ hid⟩
  rwa [(flag (ok.micros (all ok).1)).2, releaseMergeToken_tasks h₃] at hr

/-- The connecting tasks whose held token is not guarded are among `rest`. -/
def Passed (s : Store) (guarded : List OrbitId) (rest : List Task) : Prop :=
  ∀ t ∈ s.tasks, t.state = .CONNECTING → t ∉ rest → ∀ o ∈ s.orbits, o.kind = .merge_token →
    o.state = .HELD → t.connectTokenId = some o.orbitId → o.orbitId ∈ guarded

/-- What one round does: it is about its task, and leaves its attempt ended or guarded. -/
structure Recovered (c : Scope) (t : Task) (r r' : RecoverState) : Prop where
  moves : Moves c r.store r'.store
  others : ∀ x, x.taskId ≠ t.taskId → (x ∈ r'.store.tasks ↔ x ∈ r.store.tasks)
  guarded : r.guarded ⊆ r'.guarded
  aborted : ∀ x ∈ r'.store.tasks, x.state = .ABORTED → x ∈ r.store.tasks
  done : ∀ t' ∈ r'.store.tasks, t'.taskId = t.taskId → t'.state = .CONNECTING →
    ∀ o ∈ r'.store.orbits, o.kind = .merge_token → o.state = .HELD →
      t'.connectTokenId = some o.orbitId → o.orbitId ∈ r'.guarded

theorem recoverTask_spec {env : Env} {r r' : RecoverState} {t : Task} (now : c.now = env.now)
    (merge : ∀ t, MergeProven env.git t → c.may (.merge t))
    (rollback : ∀ t, RollbackVerified env.git False t → c.may (.rollback t))
    (mark : t.RecoveredMerged env.git → c.may (.mark t.taskId "merged"))
    (ok : r.store.Ok) (ht : t ∈ r.store.tasks) (connecting : t.state = .CONNECTING)
    (h : recoverTask env r t = .ok r') : Recovered c t r r' := by
  rw [recoverTask] at h
  split at h
  · cases h
    refine ⟨.refl, fun _ _ => Iff.rfl, List.subset_append_left .., fun _ hx _ => hx, ?_⟩
    intro _ _ _ _ o ho kind held _
    refine List.mem_append_right _ (List.mem_map_of_mem ?_)
    simpa [Store.heldOfKind] using ⟨ho, kind, held⟩
  rename_i b hbinding
  rw [Outcome.bind_eq_ok] at h
  obtain ⟨s₁, h₁, h⟩ := h
  obtain ⟨o, n, found, htoken⟩ := recoverBinding_spec ok ht connecting hbinding
  have took := takeover_spec (c := c) ok ht connecting found htoken h₁
  obtain ⟨t₁, ht₁, hid, connecting₁, token₁, attempt₁⟩ := took.row
  have move : Moves c r.store s₁ := .single (.takenOver t took.takenOver)
  have ok₁ := ok.moves move
  have hget : s₁.getTask t.taskId = some t₁ := ok₁.getTask.mpr ⟨ht₁, hid⟩
  have hattempt : t₁.connectAttemptId = some n := attempt₁.trans found.attempt
  simp only [hget, Option.getD_some, htoken] at h
  rw [Outcome.bind_eq_ok] at h
  obtain ⟨verdict, hverdict, h⟩ := h
  -- the row of the task in the end, for a group that ended its attempt
  have ended {s₂ : Store} {state : TaskState} (hstate : state ≠ .CONNECTING)
      (closed : Closed c t₁ s₁ s₂) (focus : Focus c t₁.taskId s₁ s₂)
      (live : state ≠ .ABORTED) (row : ∀ x ∈ s₂.tasks, x.taskId = t₁.taskId → x.state = state) :
      Recovered c t r { r with store := s₂ } := by
    have others : ∀ x, x.taskId ≠ t.taskId → (x ∈ s₂.tasks ↔ x ∈ r.store.tasks) := by
      intro x hx
      rw [(focus ok₁).2 x (hid ▸ hx), (took.focus ok).2 x hx]
    refine ⟨move.tail (.closed t₁ closed), others, List.Subset.refl _, fun x hx aborted => ?_, ?_⟩
    · by_cases hxid : x.taskId = t.taskId
      · exact absurd ((row x hx (hxid.trans hid.symm)).symm.trans aborted) live
      · exact (others x hxid).mp hx
    · intro t' ht' hid' hconnecting
      exact absurd ((row t' ht' (hid'.trans hid.symm)).symm.trans hconnecting) hstate
  cases verdict with
  | unresolved =>
      cases h
      have others := (took.focus ok).2
      refine ⟨move, others, List.subset_append_left .., fun x hx aborted => ?_, ?_⟩
      · by_cases hxid : x.taskId = t.taskId
        · rw [ok₁.task_eq hx ht₁ (hxid.trans hid.symm), connecting₁] at aborted
          cases aborted
        · exact (others x hxid).mp hx
      intro t' ht' hid' _ o' _ _ _ htoken'
      rw [ok₁.task_eq ht' ht₁ (hid'.trans hid.symm), token₁] at htoken'
      exact List.mem_append_right _ (by simp [Option.some.inj htoken'])
  | merged sha =>
      dsimp only at h
      rw [Outcome.bind_eq_ok] at h
      obtain ⟨s₂, h₂, h⟩ := h
      cases h
      rw [← now] at h₂
      have columns := (took.takenOver.bound t₁ ht₁ hid).2.2.2.2.2.1
      have marked : c.may (.mark t₁.taskId "merged") := by
        rw [recoverVerdict_congr hid attempt₁ columns] at hverdict
        exact hid ▸ mark ⟨connecting, sha, hverdict⟩
      obtain ⟨focus, merged⟩ :=
        recoverMergeGroup (c := c) marked ht₁ connecting₁ token₁ took.kind h₂ ok₁
      refine ended (show TaskState.MERGED ≠ .CONNECTING by decide)
        ⟨ht₁, connecting₁, (focus ok₁).1, ?_, fun _ => marked⟩ focus (by decide) merged
      exact Or.inl ⟨merge _ (recoverVerdict_merged hattempt hverdict), merged⟩
  | rollback =>
      dsimp only at h
      rw [Outcome.bind_eq_ok] at h
      obtain ⟨s₃, h₃, h⟩ := h
      cases h
      rw [recoverRollback] at h₃
      rw [Outcome.bind_eq_ok] at h₃
      obtain ⟨s₂, h₂, h₃⟩ := h₃
      obtain ⟨focus, done⟩ :=
        rollbackGroup (c := c) ht₁ connecting₁ token₁ took.kind h₂ h₃ ok₁
      refine ended (show TaskState.DONE ≠ .CONNECTING by decide)
        ⟨ht₁, connecting₁, (focus ok₁).1, ?_, fun merged => ?_⟩ focus (by decide) done
      rotate_left
      · obtain ⟨t', ht', same, merged⟩ := merged
        cases (done t' ht' same).symm.trans merged
      exact Or.inr ⟨rollback _ (recoverVerdict_rollback hattempt hverdict), done⟩

/-! ## The walk -/

theorem Recovered.passed {r r' : RecoverState} {t : Task} {rest : List Task} (ok : r.store.Ok)
    (round : Recovered c t r r') (h : Passed r.store r.guarded (t :: rest)) :
    Passed r'.store r'.guarded rest := by
  intro t' ht' connecting hrest o' ho' kind held htoken
  by_cases hid : t'.taskId = t.taskId
  · exact round.done t' ht' hid connecting o' ho' kind held htoken
  have hmem : t' ∈ r.store.tasks := (round.others t' hid).mp ht'
  have hne : t' ∉ t :: rest := by
    rw [List.mem_cons, not_or]
    exact ⟨fun heq => hid (congrArg Task.taskId heq), hrest⟩
  have drawn := ok.attempts.tokenDrawn t' hmem _ htoken
  obtain ⟨o, ho, hoid, hkind, hheld⟩ := (round.moves.tokensFrom ok).2 o' ho' kind held drawn
  rw [← hoid] at htoken ⊢
  exact round.guarded (h t' hmem connecting hne o ho hkind hheld htoken)

/-- What the walk leaves: every attempt is ended or guarded, and no task was aborted. -/
structure Walked (c : Scope) (r r' : RecoverState) : Prop where
  moves : Moves c r.store r'.store
  passed : Passed r'.store r'.guarded []
  aborted : ∀ x ∈ r'.store.tasks, x.state = .ABORTED → x ∈ r.store.tasks

theorem recoverTasks_spec {env : Env} {xs : List Task} {r r' : RecoverState}
    (now : c.now = env.now)
    (merge : ∀ t, MergeProven env.git t → c.may (.merge t))
    (rollback : ∀ t, RollbackVerified env.git False t → c.may (.rollback t))
    (mark : ∀ t ∈ xs, t.RecoveredMerged env.git → c.may (.mark t.taskId "merged"))
    (distinct : Table.Distinct Task.taskId xs)
    (sub : ∀ t ∈ xs, t ∈ r.store.tasks ∧ t.state = .CONNECTING) (ok : r.store.Ok)
    (passed : Passed r.store r.guarded xs) (h : xs.foldlM (recoverTask env) r = .ok r') :
    Walked c r r' := by
  induction xs generalizing r with
  | nil =>
      rw [List.foldlM_nil, Outcome.pure_eq_ok] at h
      subst h
      exact ⟨.refl, passed, fun _ hx _ => hx⟩
  | cons t xs ih =>
      rw [List.foldlM_cons, Outcome.bind_eq_ok] at h
      obtain ⟨r₁, h₁, h⟩ := h
      obtain ⟨ht, connecting⟩ := sub t (List.mem_cons_self ..)
      have round :=
        recoverTask_spec now merge rollback (mark t (List.mem_cons_self ..)) ok ht connecting h₁
      rw [Table.Distinct, List.map_cons, List.nodup_cons] at distinct
      have sub₁ : ∀ x ∈ xs, x ∈ r₁.store.tasks ∧ x.state = .CONNECTING := by
        intro x hx
        obtain ⟨hmem, hstate⟩ := sub x (List.mem_cons_of_mem _ hx)
        have hne : x.taskId ≠ t.taskId := fun hid =>
          distinct.1 (hid ▸ List.mem_map_of_mem hx)
        exact ⟨(round.others x hne).mpr hmem, hstate⟩
      have rest := ih (fun x hx => mark x (List.mem_cons_of_mem _ hx)) distinct.2 sub₁
        (ok.moves round.moves) (round.passed ok passed) h
      exact ⟨round.moves.trans rest.moves, rest.passed, fun x hx aborted =>
        round.aborted x (rest.aborted x hx aborted) aborted⟩

theorem mem_tasksByState {states : List TaskState} {t : Task} :
    t ∈ s.tasksByState states ↔ t ∈ s.tasks ∧ t.state ∈ states := by
  simp [Store.tasksByState, List.mem_insertionSort]

theorem Store.Ok.distinct_tasksByState (ok : s.Ok) (states : List TaskState) :
    Table.Distinct Task.taskId (s.tasksByState states) := by
  refine List.Nodup.perm ?_ ((List.perm_insertionSort _ _).map _).symm
  exact ok.taskIds.filter _

/-! ## The rest -/

/-- The tokens that nothing protects are nobody's. -/
theorem expireDangling_keeps {guarded : List OrbitId} (passed : Passed s guarded [])
    (h : (s.heldOfKind .merge_token).foldlM (expireDangling c.now guarded) s = .ok s') :
    Keeps c nobody s s' := by
  refine Keeps.foldlM (fun ok => ok.distinct_heldOfKind _)
    (fun o ho => (mem_heldOfKind ho).1) ?_ h
  intro o ho s₁ s₂ _ tasks _ h
  obtain ⟨hmem, kind, held⟩ := mem_heldOfKind ho
  rw [expireDangling] at h
  split at h
  · cases h
    exact .nothing (.refl _)
  rename_i hguard
  refine expireHeld_wrote (by simp [kind])
    (fun o' state => .token kind held (Or.inl ?_) (by rw [state]; rfl)) h
  intro t ht connecting _ htoken
  rw [tasks] at ht
  exact hguard (passed t ht connecting List.not_mem_nil o hmem kind held htoken)

theorem frame_recoverBarrier {git : Option GitView} {b : Barrier} (current : s.Shows b)
    (tripping : b.state = .TRIPPING) (h : recoverBarrier git s b = .ok s') : Frame s s' := by
  rw [recoverBarrier] at h
  split at h
  · rename_i all
    split at h
    · rw [Outcome.bind_eq_ok] at h
      obtain ⟨state, advance, h⟩ := h
      cases h
      rw [← tripping] at advance
      refine frame_advance current advance ?_ fun _ => Or.inr fun task party => ?_
      · exact fun _ => ⟨rfl, rfl, rfl⟩
      · obtain ⟨p, hp, rfl⟩ := partyTo_iff.mp party
        have merged := List.all_eq_true.mp all.2 _ (List.mem_map_of_mem hp)
        exact s.wasMerged_of_get (of_decide_eq_true merged)
    · cases h
      exact .refl _
  · exact frame_breakBarrier current h

/-- The recovery of one barrier leaves the others. -/
theorem recoverBarrier_shows {git : Option GitView} {b r : Barrier}
    (other : r.barrierId ≠ b.barrierId) (h : recoverBarrier git s b = .ok s')
    (shown : s.Shows r) : s'.Shows r := by
  have set (f : Barrier → Barrier) : (s.setBarrier b.barrierId f).Shows r := by
    obtain ⟨x, hx, key, state⟩ := shown
    refine ⟨x, Table.mem_modify.mpr (Or.inl ⟨hx, ?_⟩), key, state⟩
    exact fun same => other ((congrArg Prod.fst key).symm.trans same)
  rw [recoverBarrier] at h
  split at h
  · split at h
    · rw [Outcome.bind_eq_ok] at h
      obtain ⟨state, -, h⟩ := h
      cases h
      exact set _
    · cases h
      exact shown
  · rw [breakBarrier] at h
    split at h
    · cases h
      exact shown
    · rw [Outcome.bind_eq_ok] at h
      obtain ⟨state, -, h⟩ := h
      cases h
      exact set _

theorem frame_recoverBarriers {git : Option GitView} {bs : List Barrier}
    (distinct : Table.Distinct Barrier.barrierId bs)
    (current : ∀ b ∈ bs, s.Shows b ∧ b.state = .TRIPPING)
    (h : bs.foldlM (recoverBarrier git) s = .ok s') : Frame s s' := by
  induction bs generalizing s with
  | nil =>
      cases h
      exact .refl _
  | cons b bs ih =>
      rw [List.foldlM_cons, Outcome.bind_eq_ok] at h
      obtain ⟨s₁, h₁, h⟩ := h
      obtain ⟨apart, rest⟩ := List.nodup_cons.mp distinct
      obtain ⟨shown, tripping⟩ := current b List.mem_cons_self
      refine (frame_recoverBarrier shown tripping h₁).trans (ih rest (fun r hr => ?_) h)
      obtain ⟨shown, tripping⟩ := current r (List.mem_cons_of_mem _ hr)
      refine ⟨recoverBarrier_shows (fun same => apart ?_) h₁ shown, tripping⟩
      exact same ▸ List.mem_map_of_mem hr

theorem frame_barrierRecover {git : Option GitView} (ok : s.Ok)
    (h : barrierRecover git s = .ok s') : Frame s s' := by
  refine frame_recoverBarriers (ok.barrierIds.filter _) (fun b hb => ?_) h
  rw [List.mem_filter, decide_eq_true_eq] at hb
  exact ⟨s.shows_of_mem hb.1, hb.2⟩

/-- What recovery answers: the merge of a connect, or how the barrier of an arrival ended. -/
inductive RecoveredReply : IdemArgs → Reply → Prop
  | merged {task : TaskId} {agent : Option AgentId} {fence : Option ℕ} {push : Option String}
      {epoch : Option ℕ} {r : Reply} (state : r.state = some (.task .MERGED)) :
      RecoveredReply (.connect task agent fence push epoch) r
  | barrier {name : String} {task : TaskId} {fence epoch : Option ℕ} {r : Reply}
      {b : BarrierState} (state : r.state = some (.barrier b))
      (ended : b ≠ .ARMED ∧ b ≠ .TRIPPING) :
      RecoveredReply (.barrier_arrive name task fence epoch) r

theorem recoverFinish_requested {row : IdemRow} {reply : Reply}
    (answer : c.may (.answer row.requestId row.argHash reply))
    (h : recoverFinish c.now s row reply = .ok s') : Requested c s s' := by
  rw [recoverFinish] at h
  split at h
  · cases h
  · rename_i hfinish
    cases h
    exact finishIdemExact_requested answer hfinish

theorem markRetryable_requested {row : IdemRow} (retry : c.may (.retry row.requestId))
    (h : (match s.markIdemRetryableExact row.requestId row.agentId row.argHash with
      | none => .error (.runtimeError "idempotency ownership lost during retry recovery")
      | some s => .ok s : Except Fault Store) = .ok s') : Requested c s s' := by
  split at h
  · cases h
  · rename_i hmark
    cases h
    exact markIdemRetryableExact_requested retry hmark

theorem recoverConnectRow_requested {env : Env} {row : IdemRow} {task : TaskId}
    (now : c.now = env.now) (retry : c.may (.retry row.requestId))
    (answer : ∀ r : Reply, r.state = some (.task .MERGED) →
      c.may (.answer row.requestId row.argHash r))
    (h : recoverConnectRow env s row task = .ok s') : Requested c s s' := by
  rw [recoverConnectRow] at h
  split at h
  · exact markRetryable_requested retry h
  split at h
  · split at h
    · rw [← now] at h
      exact recoverFinish_requested (answer _ rfl) h
    · cases h
      exact .refl _
  split at h
  · exact markRetryable_requested retry h
  · cases h
    exact .refl _

theorem recoverArriveRow_requested {env : Env} {row : IdemRow} {name : String} {task : TaskId}
    {fence : Option ℕ} (now : c.now = env.now)
    (answer : ∀ (r : Reply) (b : BarrierState), r.state = some (.barrier b) →
      b ≠ .ARMED ∧ b ≠ .TRIPPING → c.may (.answer row.requestId row.argHash r))
    (h : recoverArriveRow env s row name task fence = .ok s') : Requested c s s' := by
  rw [recoverArriveRow] at h
  split at h
  · cases h
    exact .refl _
  rename_i b _
  rw [← now] at h
  dsimp only at h
  split at h
  · cases h
    exact .refl _
  split at h
  · rename_i state
    split at h
    · cases h
      exact .refl _
    · exact recoverFinish_requested (answer _ b.state rfl (by simp [state])) h
  · rename_i state
    split at h
    · cases h
      exact .refl _
    · exact recoverFinish_requested (answer _ b.state rfl (by simp [state])) h
  · exact recoverFinish_requested (answer _ .BROKEN rfl (by decide)) h
  · cases h
    exact .refl _
  · cases h
    exact .refl _

theorem recoverSplitIdempotency_requested {env : Env} (now : c.now = env.now)
    (retry : ∀ id, c.may (.retry id))
    (answer : ∀ id args r, RecoveredReply args r → c.may (.answer id args r))
    (h : recoverSplitIdempotency env s = .ok s') : Requested c s s' := by
  refine Outcome.foldlM_induction (P := Requested c s) (.refl s) (fun row _ s₁ s₂ before h => ?_) h
  refine before.trans ?_
  rw [recoverIdemRow] at h
  split at h
  · rename_i args
    split at h
    · refine recoverConnectRow_requested now (retry _) (fun r state => ?_) h
      rw [args]
      exact answer _ _ r (.merged state)
    · cases h
      exact .refl _
  · rename_i args
    refine recoverArriveRow_requested now (fun r b state ended => ?_) h
    rw [args]
    exact answer _ _ r (.barrier state ended)
  · cases h
    exact .refl _

/-- What the repair of the aborted tasks leaves. -/
structure Repaired (c : Scope) (E : TaskId → Prop) (s s' : Store) : Prop where
  run : Micros c E s s'
  tasks : s'.tasks = s.tasks
  agents : s'.agents = s.agents
  back : ∀ o' ∈ s'.orbits, ∃ o ∈ s.orbits, o.SameRow o'

theorem closeAborted_repaired (ok : s.Ok)
    (closes : ∀ t ∈ s.tasks, t.state = .ABORTED → c.may (.close t.taskId))
    (forget : ∀ t ∈ s.tasks, t.state = .ABORTED → ∀ o ∈ s.orbits, o.kind = .orbit →
      o.taskId = some t.taskId → ∀ id, o.requestId = some id → c.may (.forget id))
    (h : (s.tasksByState [.ABORTED]).foldlM (closeAborted c.now) s = .ok s') :
    Repaired c E s s' := by
  have start : ∀ t ∈ s.tasksByState [.ABORTED], t ∈ s.tasks ∧ t.state = .ABORTED := by
    intro t ht
    simpa using mem_tasksByState.mp ht
  refine Outcome.foldlM_induction (P := Repaired c E s)
    ⟨.refl, rfl, rfl, fun o ho => ⟨o, ho, .refl o⟩⟩ ?_ h
  intro t ht s₁ s₂ before h
  rw [closeAborted, Outcome.bind_eq_ok] at h
  obtain ⟨⟨s₃, closed⟩, h₃, h⟩ := h
  cases h
  obtain ⟨hmem, aborted⟩ := start t ht
  have ok₁ := ok.micros before.run
  have looped := terminalizeCancelled_looped (c := c) (E := E) (before.tasks.symm ▸ hmem) aborted
    (closes t hmem aborted)
    (fun o ho kind of id hid => ?_) ok₁ h₃
  · refine ⟨before.run.trans looped.run, looped.tasks.trans before.tasks,
      looped.agents.trans before.agents, fun o' ho' => ?_⟩
    obtain ⟨o₁, ho₁, row₁⟩ := looped.back o' ho'
    obtain ⟨o, ho, row⟩ := before.back o₁ ho₁
    exact ⟨o, ho, row.trans row₁⟩
  · obtain ⟨o₀, ho₀, row⟩ := before.back o ho
    exact forget t hmem aborted o₀ ho₀ (row.kind ▸ kind) (row.taskId ▸ of) id
      (row.requestId ▸ hid)

/-- Without the licence the agents stay. -/
theorem Moves.agents (h : Moves c s s') (no : ¬ c.may .agents) : s'.agents = s.agents := by
  induction h with
  | refl => rfl
  | tail _ hstep ih =>
      obtain ⟨c', E, within, run⟩ := hstep.micros
      exact (run.agents (within.forbids no (by simp))).trans ih

/-- Recovery before it repairs the aborted tasks. -/
theorem recoverWalk_spec {env : Env} {r : RecoverState} {s₂ s₃ : Store} (ok : s.Ok)
    (now : c.now = env.now) (merge : ∀ t, MergeProven env.git t → c.may (.merge t))
    (rollback : ∀ t, RollbackVerified env.git False t → c.may (.rollback t))
    (mark : ∀ t ∈ s.tasks, t.RecoveredMerged env.git → c.may (.mark t.taskId "merged"))
    (h₁ : (s.tasksByState [.CONNECTING]).foldlM (recoverTask env) { store := s } = .ok r)
    (h₂ : (r.store.heldOfKind .merge_token).foldlM (expireDangling env.now r.guarded) r.store =
      .ok s₂)
    (h₃ : Frame s₂ s₃) :
    Moves c s s₃ ∧ ∀ x ∈ s₃.tasks, x.state = .ABORTED → x ∈ s.tasks := by
  have sub : ∀ t ∈ s.tasksByState [.CONNECTING], t ∈ s.tasks ∧ t.state = .CONNECTING := by
    intro t ht
    simpa using mem_tasksByState.mp ht
  have passed : Passed s [] (s.tasksByState [.CONNECTING]) := fun t ht connecting hne =>
    absurd (mem_tasksByState.mpr ⟨ht, by simpa using connecting⟩) hne
  have walk : Walked c { store := s } r :=
    recoverTasks_spec now merge rollback (fun t ht => mark t (sub t ht).1)
      (ok.distinct_tasksByState _) sub ok passed h₁
  have ok₁ := ok.moves walk.moves
  rw [← now] at h₂
  have expire := expireDangling_keeps walk.passed h₂
  refine ⟨walk.moves.trans ((expire.takes.trans h₃.takes) ok₁), fun x hx => walk.aborted x ?_⟩
  rwa [h₃.tasks, (expire ok₁).2] at hx

/-- The licences that recovery needs before its repairs. -/
def Scope.repairs (cfg : Cfg) (now : Time) : Scope :=
  ⟨cfg, now, fun d => ∃ t, d = .merge t ∨ d = .rollback t ∨ d = .mark t.taskId "merged"⟩

/-- What the licences of its walk leave to recovery. -/
theorem recoverWalk_rows {env : Env} {r : RecoverState} {s₂ s₃ : Store} (cfg : Cfg) (ok : s.Ok)
    (h₁ : (s.tasksByState [.CONNECTING]).foldlM (recoverTask env) { store := s } = .ok r)
    (h₂ : (r.store.heldOfKind .merge_token).foldlM (expireDangling env.now r.guarded) r.store =
      .ok s₂)
    (h₃ : Frame s₂ s₃) : s₃.agents = s.agents ∧
      ∀ o' ∈ s₃.orbits, o'.kind = .orbit → ∃ o ∈ s.orbits, o.SameRow o' := by
  have walk := (recoverWalk_spec (c := .repairs cfg env.now) ok rfl (fun t _ => ⟨t, Or.inl rfl⟩)
    (fun t _ => ⟨t, Or.inr (Or.inl rfl)⟩) (fun t _ _ => ⟨t, Or.inr (Or.inr rfl)⟩) h₁ h₂ h₃).1
  refine ⟨walk.agents ?_, walk.orbitsFrom ok ?_⟩ <;> rintro ⟨t, h | h | h⟩ <;> cases h

/-- What recovery does to the barriers: nothing when a connect stayed unresolved. -/
inductive BarriersRecovered (git : Option GitView) (unresolved : Bool) (s s' : Store) : Prop
  | skipped (left : unresolved = true) (same : s' = s)
  | done (resolved : unresolved = false) (run : barrierRecover git s = .ok s')

theorem BarriersRecovered.frame {git : Option GitView} {unresolved : Bool}
    (h : BarriersRecovered git unresolved s s') (ok : s.Ok) : Frame s s' := by
  cases h with
  | skipped _ same => exact same ▸ .refl s
  | done _ run => exact frame_barrierRecover ok run

/-- Recovery comes in three parts: its walk over the attempts, the barriers, and the rest. -/
theorem recover_parts {env : Env} (agents : c.may .agents)
    (may : ∀ a, s.Stale c.cfg c.now a → c.may (.zombie a)) (now : c.now = env.now)
    (merge : ∀ t, MergeProven env.git t → c.may (.merge t))
    (rollback : ∀ t, RollbackVerified env.git False t → c.may (.rollback t))
    (mark : ∀ t ∈ s.tasks, t.RecoveredMerged env.git → c.may (.mark t.taskId "merged"))
    (closes : ∀ t ∈ s.tasks, t.state = .ABORTED → c.may (.close t.taskId))
    (forget : ∀ t ∈ s.tasks, t.state = .ABORTED → ∀ o ∈ s.orbits, o.kind = .orbit →
      o.taskId = some t.taskId → ∀ id, o.requestId = some id → c.may (.forget id))
    (retry : ∀ id, c.may (.retry id))
    (answer : ∀ id args r, RecoveredReply args r → c.may (.answer id args r)) (ok : s.Ok)
    (h : recover c.cfg env s = .ok s') : ∃ r s₂ s₃,
      (s.tasksByState [.CONNECTING]).foldlM (recoverTask env) { store := s } = .ok r ∧
        Moves c s s₂ ∧ BarriersRecovered env.git r.unresolved s₂ s₃ ∧ Moves c s₃ s' := by
  rw [recover, Outcome.bind_eq_ok] at h
  obtain ⟨r, h₁, h⟩ := h
  rw [Outcome.bind_eq_ok] at h
  obtain ⟨s₂, h₂, h⟩ := h
  obtain ⟨s₃, barriers, h⟩ : ∃ s₃, BarriersRecovered env.git r.unresolved s₂ s₃ ∧ (do
      let s ← (s₃.tasksByState [.ABORTED]).foldlM (closeAborted env.now) s₃
      let s ← reconcileAdmission c.cfg env.now s
      recoverSplitIdempotency env s) = .ok s' := by
    dsimp only at h
    split at h
    · rename_i left
      exact ⟨s₂, .skipped left rfl, h⟩
    · rename_i resolved
      rw [Outcome.bind_eq_ok] at h
      obtain ⟨s₃, h₃, h⟩ := h
      exact ⟨s₃, .done (by simpa using resolved) h₃, h⟩
  rw [Outcome.bind_eq_ok] at h
  obtain ⟨s₄, h₄, h⟩ := h
  rw [Outcome.bind_eq_ok] at h
  obtain ⟨s₅, h₅, h⟩ := h
  have before := (recoverWalk_spec ok now merge rollback mark h₁ h₂ (.refl s₂)).1
  have frame := barriers.frame (ok.moves before)
  obtain ⟨walk, aborted⟩ := recoverWalk_spec (c := c) ok now merge rollback mark h₁ h₂ frame
  obtain ⟨same, rows⟩ := recoverWalk_rows c.cfg ok h₁ h₂ frame
  rw [← now] at h₄ h₅
  have ok₃ := ok.moves walk
  have repaired : Repaired c nobody s₃ s₄ := by
    refine closeAborted_repaired ok₃ (fun t ht hstate => closes t (aborted t ht hstate) hstate)
      (fun t ht hstate o ho kind of id hid => ?_) h₄
    obtain ⟨o₀, ho₀, row⟩ := rows o ho kind
    exact forget t (aborted t ht hstate) hstate o₀ ho₀ (row.kind ▸ kind) (row.taskId ▸ of) id
      (row.requestId ▸ hid)
  have ok₄ := ok₃.micros repaired.run
  have settle : Takes c s₄ s₅ := reconcileAdmission_takes agents
    (fun a ha => may a ((ha.of_agents repaired.agents).of_agents same)) h₅
  have answers : Requested c s₅ s' := recoverSplitIdempotency_requested now retry answer h
  exact ⟨r, s₂, s₃, h₁, before, barriers,
    repaired.run.moves.trans ((settle.trans answers.takes) ok₄)⟩

theorem recover_takes {env : Env} (agents : c.may .agents)
    (may : ∀ a, s.Stale c.cfg c.now a → c.may (.zombie a)) (now : c.now = env.now)
    (merge : ∀ t, MergeProven env.git t → c.may (.merge t))
    (rollback : ∀ t, RollbackVerified env.git False t → c.may (.rollback t))
    (mark : ∀ t ∈ s.tasks, t.RecoveredMerged env.git → c.may (.mark t.taskId "merged"))
    (closes : ∀ t ∈ s.tasks, t.state = .ABORTED → c.may (.close t.taskId))
    (forget : ∀ t ∈ s.tasks, t.state = .ABORTED → ∀ o ∈ s.orbits, o.kind = .orbit →
      o.taskId = some t.taskId → ∀ id, o.requestId = some id → c.may (.forget id))
    (retry : ∀ id, c.may (.retry id))
    (answer : ∀ id args r, RecoveredReply args r → c.may (.answer id args r))
    (h : recover c.cfg env s = .ok s') : Takes c s s' := by
  intro ok
  obtain ⟨r, s₂, s₃, -, before, barriers, after⟩ :=
    recover_parts agents may now merge rollback mark closes forget retry answer ok h
  have frame := barriers.frame (ok.moves before)
  exact (before.trans (frame.takes (ok.moves before))).trans after

end Omd
