import Omd.Effects.Connect

/-!
# The life of an attempt

Phase A opens an attempt, Phase C ends it.  What ends it is evidence of the repository:
`MergeProven` when its merge is there, `RollbackVerified` when none is and the integration
worktree was put back.
-/

namespace Omd

open Lib

variable {c : Scope} {E : TaskId → Prop} {s s₁ s' : Store}

/-! ## Opening -/

/-- The new token. -/
theorem acquireMergeToken_spec {env : Env} {agent : AgentId} {operation : AttemptId}
    {generation : ℕ} {token : OrbitId}
    (h : acquireMergeToken env s agent operation generation = some (s', token)) :
    token = s.uuid ∧ s'.tasks = s.tasks ∧ s.uuid < s'.uuid ∧
      (∃ o, s'.orbits = s.orbits ++ [o] ∧ o.orbitId = token ∧ o.kind = .merge_token ∧
        o.state = .HELD ∧
          o.binding = (some operation, some env.instanceId, some generation)) ∧
        Micro c E s s' := by
  rw [acquireMergeToken] at h
  split at h
  · cases h
  · rename_i hfree
    cases h
    refine ⟨rfl, rfl, Nat.lt_succ_self _, ⟨_, rfl, rfl, rfl, rfl, rfl⟩, ?_⟩
    have frame : Frame s s.bumpFence.bumpUuid := (frame_bumpFence s).trans (frame_bumpUuid _)
    have row (o : Orbit) :
        Frame ((s.announce []).addOrbit o) (s.bumpFence.bumpUuid.addOrbit o) := by
      rw [announce_nil]
      exact frame_addOrbit frame o
    exact .ofRow (.token rfl rfl rfl rfl (Option.some_ne_none _) hfree rfl) (.silent (by simp)) rfl
      (Nat.lt_succ_self _) (by simp) (by simp) (row _)

theorem bindRequest_requested {env : Env} {request : Option BoundRequest} {attempt : AttemptId}
    {generation : ℕ} (h : bindRequest env s request attempt generation = .ok s') :
    Requested c s s' := by
  unfold bindRequest at h
  split at h
  · cases h
    exact .refl _
  · split at h
    · cases h
    · rename_i hbind
      cases h
      exact bindIdemOperationExact_requested hbind

/-- The columns of the attempt of an intent. -/
def Intent.attempt (i : Intent) : (Option AttemptId × Option String × ℕ × Option OrbitId) ×
    (Bool × Option Sha × Option Sha) :=
  ((some i.attemptId, some i.ownerInstance, i.ownerGeneration, some i.tokenId),
    (i.repoBound, i.branchTipSha, i.integrationBaseSha))

/-- An opened attempt and its intent. -/
structure OpenedBy (c : Scope) (t : Task) (i : Intent) (s s' : Store) : Prop where
  opened : Opened c t s s'
  task : i.taskId = t.taskId
  attempt : i.attemptId = s.uuid
  columns : ∀ t' ∈ s'.tasks, t'.taskId = t.taskId → t'.attempt = i.attempt

theorem distinct_writesForTask (ok : s.Ok) (task : TaskId) :
    Table.Distinct Orbit.orbitId (s.writesForTask task) :=
  (ok.orbitIds.filter _).filter _

/-- The end of Phase A opens an attempt or opens none. -/
theorem openAttempt_spec {env : Env} {t : Task} {owner : AgentId} {candidate : Candidate}
    {request : Option BoundRequest} {busy : String} {a : PhaseA} (ht : t ∈ s.tasks)
    (writes : s.writesForTask t.taskId ≠ [])
    (held : ∀ o ∈ s.writesForTask t.taskId, o.state = .HELD)
    (h : openAttempt env s t owner candidate request busy = .ok (s', a)) (ok : s.Ok) :
    a.intent = none ∧ Moves c s s' ∨ ∃ i, a.intent = some i ∧ OpenedBy c t i s s' := by
  rw [openAttempt] at h
  split at h
  · cases h
    exact Or.inl ⟨rfl, (frame_bumpUuid s).takes ok⟩
  · rename_i s₁ token hacquire
    have drawn : ∀ r ∈ s.tasks, r.connectTokenId ≠ some token := by
      intro r hr hr'
      have := ok.attempts.tokenDrawn r hr token hr'
      rw [(acquireMergeToken_spec (c := c) (E := nobody) hacquire).1] at this
      exact absurd this (not_lt.mpr (Nat.le_succ _))
    rw [connectingState_eq] at h
    by_cases hstate : t.state = .IN_ORBIT ∨ t.state = .DONE
    · right
      obtain ⟨htoken, htasks, huuid, ⟨o, horbits, hoid, hokind, hoheld, hobinding⟩, micro⟩ :=
        acquireMergeToken_spec (c := c) (E := (· = t.taskId)) hacquire
      rw [if_pos hstate, Outcome.bind_eq_ok] at h
      obtain ⟨_, hsome, h⟩ := h
      cases hsome
      dsimp only at h
      rw [Outcome.bind_eq_ok] at h
      obtain ⟨s₂, h₂, h⟩ := h
      cases h
      have ok₀ := ok.micro (c := c) (E := nobody) (.frame (frame_bumpUuid s))
      have ok₁ := ok₀.micro micro
      have hlt : token < s₁.uuid := htoken ▸ huuid
      have bind : Focus c t.taskId s₁ (bindTask env s₁ t .CONNECTING (s.writesForTask t.taskId)
          candidate s.uuid token request) := by
        refine Focus.setTask fun _ r hr hid => ?_
        cases ok.task_eq (htasks ▸ hr) ht hid
        refine ⟨rfl, .same rfl rfl, Or.inl rfl, id, .attempt rfl (Or.inl ⟨hstate, rfl⟩) rfl rfl ?_⟩
        refine ⟨Or.inr (Or.inr ?_), Or.inr (Or.inr ?_), ?_, ?_, fun _ => ⟨?_, ?_⟩⟩
        · have mem : o ∈ s₁.orbits := by simp [horbits]
          exact ⟨fun r hr => drawn r (htasks ▸ hr), o, mem, congrArg some hoid.symm, hokind⟩
        · exact fun r hr hr' => absurd (ok.attempts.attemptDrawn r (htasks ▸ hr) s.uuid hr')
            (lt_irrefl _)
        · exact fun id hid => by cases hid; exact hlt
        · exact fun n hn => by cases hn; exact (Nat.lt_succ_self _).trans huuid
        · exact Option.some_ne_none _
        · exact Option.some_ne_none _
      have bound : Requested c _ s₂ := bindRequest_requested h₂
      obtain ⟨run, others⟩ := (bind.trans (bound.keeps _).focus) ok₁
      have ok₂ := ok₁.micros run
      -- the rows of `orbits` before the pin: those before the attempt, and the token
      have horbits₂ : s₂.orbits = s.orbits ++ [o] := by
        rw [bound.apart.orbits]
        exact horbits
      have hsub : ∀ r ∈ s.writesForTask t.taskId,
          r ∈ s₂.orbits ∧ r.taskId = some t.taskId ∧ r.kind = .orbit := by
        intro r hr
        have := mem_writesForTask.mp hr
        exact ⟨horbits₂ ▸ List.mem_append_left _ this.1.1, this.1.2⟩
      obtain ⟨⟨pin, htasks₃⟩, pinned, rest⟩ := attemptRows_keeps (c := c)
        (E := (· = t.taskId)) (f := fun r => { r with merging := true }) rfl
        (distinct_writesForTask ok t.taskId) hsub (fun _ => ⟨rfl, rfl, rfl, rfl, rfl, rfl⟩) ok₂
      have row : ∀ t' ∈ (pinOrbits s₂ (s.writesForTask t.taskId)).tasks,
          t'.taskId = t.taskId → t'.state = .CONNECTING ∧ t'.attempt =
            (intentOf env t (s.writesForTask t.taskId) candidate s.uuid token owner
              request).attempt := by
        intro t' ht' hid
        have hmem : t' ∈ s₂.tasks := htasks₃ ▸ ht'
        rw [bound.apart.tasks] at hmem
        refine row_setTask (P := fun r => r.state = .CONNECTING ∧ r.attempt =
          (intentOf env t (s.writesForTask t.taskId) candidate s.uuid token owner
            request).attempt) (fun r hr hrid => ?_) t' hmem hid
        exact ⟨rfl, rfl⟩
      have htokenRow : o ∈ (pinOrbits s₂ (s.writesForTask t.taskId)).orbits := by
        refine rest o (horbits₂ ▸ List.mem_append_right _ (List.mem_singleton.mpr rfl)) ?_
        intro r hr hid
        have := ok.fresh r (mem_writesForTask.mp hr).1.1
        rw [← hid, hoid, htoken] at this
        exact absurd this (not_lt.mpr (Nat.le_succ _))
      refine ⟨_, rfl, ⟨ht, hstate, ?_, ?_, ?_, ?_⟩, rfl, rfl, fun t' ht' hid =>
        (row t' ht' hid).2⟩
      · exact ((Relation.ReflTransGen.single (.frame (frame_bumpUuid s))).tail micro).trans
          (run.trans pin)
      · intro t' ht' hid
        obtain ⟨hs, hattempt⟩ := row t' ht' hid
        have hattemptId : t'.connectAttemptId = some s.uuid := congrArg (·.1.1) hattempt
        have howner : t'.connectOwnerInstance = some env.instanceId :=
          congrArg (·.1.2.1) hattempt
        have hgen : t'.connectOwnerGeneration = t.connectOwnerGeneration + 1 :=
          congrArg (·.1.2.2.1) hattempt
        have htok : t'.connectTokenId = some token := congrArg (·.1.2.2.2) hattempt
        refine ⟨hs, ⟨o, htokenRow, htok.trans (congrArg some hoid.symm), hokind, hoheld, ?_, ?_,
          ?_⟩, hattemptId⟩
        · exact hattemptId ▸ Option.some_ne_none _
        · exact howner ▸ Option.some_ne_none _
        · rw [hobinding, hattemptId, howner, hgen]
      · exact (Nat.lt_succ_self _).trans_le
          (((Micros.uuid (.single micro)).trans run.uuid).trans pin.uuid)
      · obtain ⟨r, hr⟩ := List.exists_mem_of_ne_nil _ writes
        exact ⟨_, pinned r hr, (hsub r hr).2.2, (hsub r hr).2.1, held r hr, rfl⟩
    · left
      obtain ⟨htoken, htasks, huuid, ⟨o, horbits, hoid, hokind, -⟩, micro⟩ :=
        acquireMergeToken_spec (c := c) (E := nobody) hacquire
      rw [if_neg hstate, Outcome.bind_eq_ok] at h
      obtain ⟨_, hnone, h⟩ := h
      cases hnone
      dsimp only at h
      rw [Outcome.bind_eq_ok] at h
      obtain ⟨s₂, h₂, h⟩ := h
      cases h
      have before : Keeps c nobody s s₁ :=
        (frame_bumpUuid s).keeps.trans (.of_micro micro htasks)
      have release : Keeps c nobody s₁ s' := by
        refine releaseMergeToken_keeps (fun r hr hid => ?_) (fun r hr _ _ => ?_) h₂
        · rw [horbits, List.mem_append, List.mem_singleton] at hr
          rcases hr with hr | rfl
          · have := ok.fresh r hr
            rw [hid, htoken] at this
            exact absurd this (not_lt.mpr (Nat.le_succ _))
          · exact hokind
        · exact drawn r (htasks ▸ hr)
      exact ⟨rfl, (before.trans release).takes ok⟩

/-! ## Phase A -/

/-- Writes that pass the fence gate are all held. -/
theorem held_of_staleWrites {writes : List Orbit} {agent : Option AgentId} {fence : Option ℕ}
    (h : staleWrites writes agent fence = []) : ∀ o ∈ writes, o.state = .HELD := by
  have lapsed : (writes.filter fun o => o.state ≠ .HELD).map Orbit.orbitId = [] := by
    rw [staleWrites] at h
    by_contra hne
    rw [if_pos hne] at h
    exact hne h
  rw [List.map_eq_nil_iff, List.filter_eq_nil_iff] at lapsed
  intro o ho
  simpa using lapsed o ho

theorem connectGates_right {git : Option GitView} {t : Task} {agent : Option AgentId}
    {fence : Option ℕ} {candidate : Candidate}
    (h : connectGates git s t agent fence = .inr candidate) :
    s.writesForTask t.taskId ≠ [] ∧ (∀ o ∈ s.writesForTask t.taskId, o.state = .HELD) ∧
      ghostReads s t = [] ∧ s.staleReadOrbitsForTask t.taskId = [] := by
  rw [connectGates] at h
  split at h
  · cases h
  rename_i hwrites
  split at h
  · cases h
  rename_i hstale
  dsimp only at h
  split at h
  · cases h
  split at h
  · cases h
  rename_i hreads
  rw [not_or, not_not, not_not] at hreads
  exact ⟨hwrites, held_of_staleWrites (not_not.mp hstale), hreads⟩

theorem barrierGates_right {git : Option GitView} {t : Task} {fence : Option ℕ}
    {candidate : Candidate} (h : barrierGates git s t fence = .inr candidate) :
    s.writesForTask t.taskId ≠ [] ∧ ∀ o ∈ s.writesForTask t.taskId, o.state = .HELD := by
  rw [barrierGates] at h
  split at h
  · cases h
  rename_i hwrites
  split at h
  · cases h
  rename_i hstale
  exact ⟨hwrites, held_of_staleWrites (not_not.mp hstale)⟩

/-- Phase A after its sweep opens an attempt or opens none. -/
theorem connectSwept_spec {env : Env} {task : TaskId} {agent : Option AgentId}
    {fence epoch : Option ℕ} {request : Option BoundRequest} {a : PhaseA}
    (h : connectSwept env s task agent fence epoch request = .ok (s', a)) (ok : s.Ok) :
    a.intent = none ∧ Moves c s s' ∨
      ∃ t i, t.taskId = task ∧ ghostReads s t = [] ∧ a.intent = some i ∧
        OpenedBy c t i s s' := by
  rw [connectSwept] at h
  split at h
  · cases h
    exact Or.inl ⟨rfl, .refl⟩
  split at h
  · cases h
    exact Or.inl ⟨rfl, .refl⟩
  rename_i t hget
  split at h
  · cases h
    exact Or.inl ⟨rfl, .refl⟩
  split at h
  · cases h
    exact Or.inl ⟨rfl, .refl⟩
  rename_i candidate hgates
  obtain ⟨writes, held, ghost, -⟩ := connectGates_right hgates
  rcases openAttempt_spec (Table.mem_of_get hget) writes held h ok with h | ⟨i, hi, h⟩
  · exact Or.inl h
  · exact Or.inr ⟨t, i, Table.key_of_get hget, ghost, hi, h⟩

/-- Phase A of a barrier opens an attempt or opens none. -/
theorem barrierConnectPhaseA_spec {env : Env} {task : TaskId} {fence : Option ℕ}
    {id : BarrierId} {generation : ℕ} {a : TripA}
    (h : barrierConnectPhaseA env s task fence id generation = .ok (s', a)) (ok : s.Ok) :
    a.phase.intent = none ∧ Moves c s s' ∨
      ∃ t i, t.taskId = task ∧ a.phase.intent = some i ∧ OpenedBy c t i s s' := by
  rw [barrierConnectPhaseA] at h
  split at h
  · cases h
    exact Or.inl ⟨rfl, .refl⟩
  split at h
  · cases h
    exact Or.inl ⟨rfl, .refl⟩
  rename_i t hget
  split at h
  · cases h
    exact Or.inl ⟨rfl, .refl⟩
  split at h
  · cases h
    exact Or.inl ⟨rfl, .refl⟩
  rename_i candidate hgates
  obtain ⟨writes, held⟩ := barrierGates_right hgates
  dsimp only at h
  rw [Outcome.bind_eq_ok] at h
  obtain ⟨⟨s₁, p⟩, h₁, h⟩ := h
  cases h
  rcases openAttempt_spec (Table.mem_of_get hget) writes held h₁ ok with h | ⟨i, hi, h⟩
  · exact Or.inl h
  · exact Or.inr ⟨t, i, Table.key_of_get hget, hi, h⟩

/-! ## Evidence -/

/-- The merge of the attempt of a task is in the integration branch. -/
def MergeProven (git : Option GitView) (t : Task) : Prop :=
  t.connectRepoBound = true → ∃ view n sha tip, git = some view ∧ view.worktreeReady = true ∧
    t.connectAttemptId = some n ∧ view.branchInIntegration (.attempt n) = some (some sha) ∧
      t.branchTipSha = some tip ∧ view.isAncestor tip sha = true

/-- The attempt of a task left no merge: the integration branch has none, and the merge was
taken back or was `stopped` before it began. -/
def RollbackVerified (git : Option GitView) (stopped : Prop) (t : Task) : Prop :=
  t.connectRepoBound = true → ∃ view n, git = some view ∧ view.worktreeReady = true ∧
    t.connectAttemptId = some n ∧ view.branchInIntegration (.attempt n) = some none ∧
      (stopped ∨ ∃ base, t.integrationBaseSha = some base ∧
        view.abortMergeVerified base = .verified)

/-- Phase C publishes the merge of an attempt that it owns. -/
def GitProof.publishes (p : GitProof) (repoBound : Bool) : Bool :=
  decide (p.proofError = false ∧ p.err = none ∧
    ¬(repoBound = true ∧ (p.mergeSha = none ∨ p.provenSha ≠ p.mergeSha)))

theorem publishes_iff {p : GitProof} {repoBound : Bool} : p.publishes repoBound = true ↔
    p.proofError = false ∧ p.err = none ∧
      ¬(repoBound = true ∧ (p.mergeSha = none ∨ p.provenSha ≠ p.mergeSha)) := by
  rw [GitProof.publishes, decide_eq_true_eq]

/-- What lets Phase C publish a merge. -/
theorem reconcileGit_merge {git : Option GitView} {i : Intent} {o : MergeOutcome} {t : Task}
    (attempt : t.connectAttemptId = some i.attemptId) (columns : t.attempt.2 = i.attempt.2)
    (sound : (reconcileGit git i o).proofError = false)
    (exact_ : i.repoBound = true → (reconcileGit git i o).mergeSha ≠ none ∧
      (reconcileGit git i o).provenSha = (reconcileGit git i o).mergeSha) :
    MergeProven git t := by
  intro hbound
  have hrepo : i.repoBound = true := (congrArg (·.1) columns).symm.trans hbound
  have htip : t.branchTipSha = i.branchTipSha := congrArg (·.2.1) columns
  obtain ⟨hsha, hproven⟩ := exact_ hrepo
  rw [← hproven] at hsha
  clear hproven exact_
  simp only [reconcileGit, hrepo, Bool.not_true, Bool.false_eq_true, if_false] at sound hsha
  cases git with
  | none => simp at hsha
  | some view =>
      cases hready : view.worktreeReady with
      | false => simp [hready] at hsha
      | true =>
          simp only [hready, Bool.not_true, Bool.false_eq_true, if_false] at sound hsha
          split at hsha
          · simp at hsha
          · rename_i sha hsome
            simp only [hsome] at sound hsha
            split at hsha
            · rename_i hnone
              simp [hnone] at sound
            · rename_i tip htip'
              simp only [htip'] at sound
              split at sound
              · rename_i hancestor
                exact ⟨view, i.attemptId, sha, tip, rfl, hready, attempt, hsome,
                  htip.trans htip', hancestor⟩
              · simp at sound
          · exfalso
            split at hsha
            · exact hsha rfl
            · exact hsha rfl
            · exact hsha rfl
            · split at hsha
              · exact hsha rfl
              · split at hsha <;> exact hsha rfl

/-- What lets Phase C roll an attempt back. -/
theorem reconcileGit_rollback {git : Option GitView} {i : Intent} {o : MergeOutcome} {t : Task}
    (attempt : t.connectAttemptId = some i.attemptId) (columns : t.attempt.2 = i.attempt.2)
    (failed : (reconcileGit git i o).err ≠ none)
    (verified : i.repoBound = true → (reconcileGit git i o).rollbackVerified = true) :
    RollbackVerified git (o.err = some .precondition) t := by
  intro hbound
  have hrepo : i.repoBound = true := (congrArg (·.1) columns).symm.trans hbound
  have hbase : t.integrationBaseSha = i.integrationBaseSha := congrArg (·.2.2) columns
  have verified := verified hrepo
  simp only [reconcileGit, hrepo, Bool.not_true, Bool.false_eq_true, if_false] at failed verified
  cases git with
  | none => simp at verified
  | some view =>
      cases hready : view.worktreeReady with
      | false => simp [hready] at verified
      | true =>
          simp only [hready, Bool.not_true, Bool.false_eq_true, if_false] at failed verified
          split at verified
          · simp at verified
          · split at verified
            · simp at verified
            · split at verified <;> simp at verified
          · rename_i hnone
            refine ⟨view, i.attemptId, rfl, hready, attempt, hnone, ?_⟩
            split at verified
            · simp at verified
            · exact Or.inl ‹_›
            · simp at verified
            · split at verified
              · simp at verified
              · rename_i sha hsha
                split at verified
                · rename_i habort
                  exact Or.inr ⟨sha, hbase.trans hsha, habort⟩
                · simp at verified

/-! ## Phase C -/

theorem releaseMergeToken_tasks {now : Time} {token : OrbitId}
    (h : releaseMergeToken now s token = .ok s') : s'.tasks = s.tasks := by
  rw [releaseMergeToken] at h
  split at h
  · cases h
    rfl
  · split at h
    · cases h
      rfl
    · cases h
      rfl

/-- The licence to mark that a task merged, and no other. -/
def Scope.marking (now : Time) (task : TaskId) : Scope := ⟨{}, now, (· = .mark task "merged")⟩

/-- The group that publishes the merge of Phase C. -/
theorem mergeGroup {t : Task} {token : OrbitId} {sha : Option Sha} {s₂ s₃ : Store}
    (mark : c.may (.mark t.taskId "merged")) (ht : t ∈ s.tasks) (connecting : t.state = .CONNECTING)
    (htoken : t.connectTokenId = some token)
    (kind : ∀ o ∈ s.orbits, o.orbitId = token → o.kind = .merge_token)
    (h₁ : mergeTask (s.setTask t.taskId fun r => { r with mergeSha := sha, mergedAt := some c.now })
      t.taskId = .ok s₁) (h₂ : publishMerge c.now s₁ t.taskId = .ok s₂)
    (h₃ : releaseMergeToken c.now s₂ token = .ok s₃) (ok : s.Ok) :
    Focus c t.taskId s (s₃.setFlag t.taskId "merged" none) ∧
      ∀ r ∈ (s₃.setFlag t.taskId "merged" none).tasks, r.taskId = t.taskId → r.state = .MERGED := by
  have columns := mergeColumns_focus (c := c) (s := s) t.taskId sha c.now
  have hconnecting : (s.setTask t.taskId fun r =>
      { r with mergeSha := sha, mergedAt := some c.now }).Connecting t.taskId :=
    row_setTask fun r hr hid => (ok.task_eq hr ht hid) ▸ connecting
  obtain ⟨merge, merged⟩ := mergeTask_focus (c := c) hconnecting h₁
  have publish := publishMerge_keeps (c := c) (E := (· = t.taskId)) rfl mark h₂
  have all := releaseToken_focus ht htoken kind
    ((columns.trans merge).trans publish.focus) h₃
  have flag : Keeps c (· = t.taskId) s₃ (s₃.setFlag t.taskId "merged" none) :=
    setFlag_keeps mark fun _ => rfl
  refine ⟨all.trans flag.focus, fun r hr hid => merged r ?_ hid⟩
  have ok₁ := ok.micros ((columns.trans merge) ok).1
  have ok₃ := ok.micros (all ok).1
  rwa [(flag ok₃).2, releaseMergeToken_tasks h₃, (publish ok₁).2] at hr

/-- The group that rolls an attempt back. -/
theorem rollbackGroup {t : Task} {token : OrbitId} {now : Time} {s₂ : Store} (ht : t ∈ s.tasks)
    (connecting : t.state = .CONNECTING) (htoken : t.connectTokenId = some token)
    (kind : ∀ o ∈ s.orbits, o.orbitId = token → o.kind = .merge_token)
    (h₁ : rollbackTask (unpinOrbits s t.taskId) t.taskId = .ok s₁)
    (h₂ : releaseMergeToken now s₁ token = .ok s₂) (ok : s.Ok) :
    Focus c t.taskId s s₂ ∧ ∀ r ∈ s₂.tasks, r.taskId = t.taskId → r.state = .DONE := by
  have unpin : Keeps c (· = t.taskId) s (unpinOrbits s t.taskId) := unpinOrbits_keeps rfl
  have hconnecting : (unpinOrbits s t.taskId).Connecting t.taskId := by
    intro r hr hid
    rw [(unpin ok).2] at hr
    exact (ok.task_eq hr ht hid) ▸ connecting
  obtain ⟨rollback, done⟩ := rollbackTask_focus (c := c) hconnecting h₁
  have all := releaseToken_focus ht htoken kind (unpin.focus.trans rollback) h₂
  refine ⟨all, fun r hr hid => done r ?_ hid⟩
  rwa [releaseMergeToken_tasks h₂] at hr

theorem ownsAttempt_task {i : Intent} (h : ownsAttempt s i = true) :
    ∃ t, s.getTask i.taskId = some t ∧ t.state = .CONNECTING ∧
      t.attempt.1 = i.attempt.1 := by
  simp only [ownsAttempt, ownsTask, Bool.and_eq_true, Option.any_eq_true, decide_eq_true_eq] at h
  obtain ⟨⟨⟨⟨t, ht, ⟨⟨⟨hstate, hattempt⟩, howner⟩, hgen⟩, htoken⟩, -⟩, -⟩, -⟩ := h
  exact ⟨t, ht, hstate, by simp [Task.attempt, Intent.attempt, hattempt, howner, hgen, htoken]⟩

theorem ownsAttempt_token {i : Intent} (h : ownsAttempt s i = true) (ok : s.Ok) :
    ∀ o ∈ s.orbits, o.orbitId = i.tokenId → o.kind = .merge_token := by
  simp only [ownsAttempt, ownsToken, Bool.and_eq_true, Option.any_eq_true,
    decide_eq_true_eq] at h
  obtain ⟨⟨⟨-, o, ho, ⟨⟨⟨⟨⟨-, hkind⟩, -⟩, -⟩, -⟩, -⟩, -⟩, -⟩, -⟩ := h
  intro o' ho' hid
  obtain ⟨hmem, hid'⟩ := ok.getOrbit.mp ho
  rw [ok.orbit_eq ho' hmem (hid.trans hid'.symm)]
  exact hkind

theorem connectMerge_takes {t : Task} {token : OrbitId} {sha : Option Sha} {r : Reply}
    (agents : c.may .agents) (may : ∀ a, s.Stale c.cfg c.now a → c.may (.zombie a))
    (merge : c.may (.merge t)) (mark : c.may (.mark t.taskId "merged")) (ht : t ∈ s.tasks)
    (connecting : t.state = .CONNECTING) (htoken : t.connectTokenId = some token)
    (kind : s.Ok → ∀ o ∈ s.orbits, o.orbitId = token → o.kind = .merge_token)
    (h : connectMerge c.cfg c.now s t.taskId token sha = .ok (s', r)) : Takes c s s' := by
  rw [connectMerge] at h
  dsimp only at h
  rw [Outcome.bind_eq_ok] at h
  obtain ⟨s₁, h₁, h⟩ := h
  rw [Outcome.bind_eq_ok] at h
  obtain ⟨s₂, h₂, h⟩ := h
  rw [Outcome.bind_eq_ok] at h
  obtain ⟨s₃, h₃, h⟩ := h
  rw [Outcome.bind_eq_ok] at h
  obtain ⟨s₄, h₄, h⟩ := h
  cases h
  intro ok
  obtain ⟨group, merged⟩ := mergeGroup (c := c) mark ht connecting htoken (kind ok) h₁ h₂ h₃ ok
  have run := (group ok).1
  have same := Micros.agents ((mergeGroup (c := .marking c.now t.taskId) rfl ht connecting htoken
    (kind ok) h₁ h₂ h₃ ok).1 ok).1 (by simp [Scope.marking])
  have closed : Move c s _ := .closed t ⟨ht, connecting, run, Or.inl ⟨merge, merged⟩, fun _ => mark⟩
  exact (Relation.ReflTransGen.single closed).trans
    (reconcileAdmission_takes agents (fun a ha => may a (ha.of_agents same)) h₄ (ok.micros run))

theorem promoteResolveTask_does {now : Time} {task : TaskId} {files : List String}
    (may : c.may (.reopen (resolveTaskId task))) :
    Does c E s (promoteResolveTask now s task files) := by
  rw [promoteResolveTask]
  split
  · rename_i t hget
    split
    · rename_i ended
      rw [promoteResolveTask.reopen, Store.addTask, hget]
      have hid : t.taskId = resolveTaskId task := Table.key_of_get hget
      refine Does.setTask_of_get hget ⟨rfl, .reopen (hid ▸ may) ended rfl, Or.inl rfl, ?_,
        .keep rfl rfl rfl rfl⟩
      rintro - _ ⟨⟩
      exact hid
    · exact .refl s
  · rename_i hnone
    rw [promoteResolveTask.reopen, Store.addTask, hnone]
    refine .micro fun _ => .declare _ ⟨Or.inr ⟨may, rfl⟩, hnone, rfl, rfl, rfl, rfl, ?_⟩ (.refl _)
    rintro _ ⟨⟩
    rfl

/-- The rollback of an attempt, up to the promotion of a resolve task. -/
def rolledBack (cfg : Cfg) (now : Time) (s : Store) (task : TaskId) (token : OrbitId) :
    Except Fault Store := do
  let s := unpinOrbits s task
  let s ← rollbackTask s task
  let s ← releaseMergeToken now s token
  reconcileAdmission cfg now s

/-- The rollback of an attempt that conflicted promotes in the store it has rolled back. -/
theorem connectRollback_cases {cfg : Cfg} {now : Time} {task : TaskId} {token : OrbitId}
    {err : ConnectError} {r : Reply}
    (h : connectRollback cfg now s task token err = .ok (s', r)) :
    ∃ s₁, rolledBack cfg now s task token = .ok s₁ ∧
      ((∃ files, err = .conflict files ∧ s' = promoteResolveTask now s₁ task files ∧
          r.resolveTaskId = some (resolveTaskId task)) ∨
        (∀ files, err ≠ .conflict files) ∧ s' = s₁) := by
  rw [connectRollback] at h
  dsimp only at h
  rw [Outcome.bind_eq_ok] at h
  obtain ⟨s₁, h₁, h⟩ := h
  rw [Outcome.bind_eq_ok] at h
  obtain ⟨s₂, h₂, h⟩ := h
  rw [Outcome.bind_eq_ok] at h
  obtain ⟨s₃, h₃, h⟩ := h
  have back : rolledBack cfg now s task token = .ok s₃ := by
    rw [rolledBack]
    exact Outcome.bind_eq_ok.mpr ⟨s₁, h₁, Outcome.bind_eq_ok.mpr ⟨s₂, h₂, h₃⟩⟩
  refine ⟨s₃, back, ?_⟩
  split at h
  · rename_i files
    cases h
    exact Or.inl ⟨files, rfl, rfl, rfl⟩
  · rename_i other
    cases h
    exact Or.inr ⟨fun files conflict => other files conflict, rfl⟩

/-- The group that rolls an attempt back, and the reconciliation after it. -/
theorem rolledBack_takes {t : Task} {token : OrbitId} (agents : c.may .agents)
    (may : ∀ a, s.Stale c.cfg c.now a → c.may (.zombie a)) (rollback : c.may (.rollback t))
    (ht : t ∈ s.tasks) (connecting : t.state = .CONNECTING)
    (htoken : t.connectTokenId = some token)
    (kind : s.Ok → ∀ o ∈ s.orbits, o.orbitId = token → o.kind = .merge_token)
    (h : rolledBack c.cfg c.now s t.taskId token = .ok s') : Takes c s s' := by
  rw [rolledBack, Outcome.bind_eq_ok] at h
  obtain ⟨s₁, h₁, h⟩ := h
  rw [Outcome.bind_eq_ok] at h
  obtain ⟨s₂, h₂, h⟩ := h
  intro ok
  obtain ⟨group, done⟩ := rollbackGroup (c := c) ht connecting htoken (kind ok) h₁ h₂ ok
  have run := (group ok).1
  have same := Micros.agents ((rollbackGroup (c := .plain {} 0) ht connecting htoken (kind ok)
    h₁ h₂ ok).1 ok).1 id
  have closed : Move c s s₂ := .closed t ⟨ht, connecting, run, Or.inr ⟨rollback, done⟩,
    fun ⟨t', ht', hid, merged⟩ => by cases (done t' ht' hid).symm.trans merged⟩
  exact (Relation.ReflTransGen.single closed).trans
    (reconcileAdmission_takes agents (fun a ha => may a (ha.of_agents same)) h (ok.micros run))

theorem connectRollback_takes {t : Task} {token : OrbitId} {err : ConnectError} {r : Reply}
    (agents : c.may .agents) (may : ∀ a, s.Stale c.cfg c.now a → c.may (.zombie a))
    (rollback : c.may (.rollback t)) (reopen : c.may (.reopen (resolveTaskId t.taskId)))
    (ht : t ∈ s.tasks) (connecting : t.state = .CONNECTING)
    (htoken : t.connectTokenId = some token)
    (kind : s.Ok → ∀ o ∈ s.orbits, o.orbitId = token → o.kind = .merge_token)
    (h : connectRollback c.cfg c.now s t.taskId token err = .ok (s', r)) : Takes c s s' := by
  obtain ⟨s₁, back, ⟨files, -, rfl, -⟩ | ⟨-, rfl⟩⟩ := connectRollback_cases h
  · exact (rolledBack_takes agents may rollback ht connecting htoken kind back).trans
      (promoteResolveTask_does reopen).takes
  · exact rolledBack_takes agents may rollback ht connecting htoken kind back

/-- Phase C ends the attempt that is bound, by evidence, or ends none. -/
theorem connectPhaseC_takes {git : Option GitView} {i : Intent} {o : MergeOutcome} {r : Reply}
    (agents : c.may .agents) (may : ∀ a, s.Stale c.cfg c.now a → c.may (.zombie a))
    (merge : ∀ t, MergeProven git t → c.may (.merge t))
    (mark : ownsAttempt s i = true → (reconcileGit git i o).publishes i.repoBound = true →
      c.may (.mark i.taskId "merged"))
    (rollback : ∀ t, RollbackVerified git (o.err = some .precondition) t → c.may (.rollback t))
    (reopen : c.may (.reopen (resolveTaskId i.taskId)))
    (agree : ∀ t ∈ s.tasks, t.taskId = i.taskId → t.state = .CONNECTING →
      t.attempt.1 = i.attempt.1 → t.attempt.2 = i.attempt.2)
    (h : connectPhaseC c.cfg c.now s i (reconcileGit git i o) = .ok (s', r)) :
    Takes c s s' := by
  rw [connectPhaseC] at h
  split at h
  · cases h
    exact .refl s
  rename_i howns
  have howns : ownsAttempt s i = true := by simpa using howns
  obtain ⟨t, hget, connecting, columns⟩ := ownsAttempt_task howns
  have ht : t ∈ s.tasks := Table.mem_of_get hget
  have hid : t.taskId = i.taskId := Table.key_of_get hget
  have hattempt : t.connectAttemptId = some i.attemptId := congrArg (·.1) columns
  have htoken : t.connectTokenId = some i.tokenId := congrArg (·.2.2.2) columns
  have evidence := agree t ht hid connecting columns
  split at h
  · cases h
    exact .refl s
  rename_i hsound
  rw [Bool.not_eq_true] at hsound
  rw [← hid] at h
  split at h
  · split at h
    · cases h
      exact .refl s
    · rename_i herr hproven
      have marked := mark howns (publishes_iff.mpr ⟨hsound, herr, hproven⟩)
      refine connectMerge_takes agents may (merge t ?_) (hid ▸ marked) ht connecting htoken
        (ownsAttempt_token howns) h
      refine reconcileGit_merge hattempt evidence hsound fun hbound => ?_
      rw [not_and, not_or, not_not] at hproven
      exact hproven hbound
  · cases h
    exact .refl s
  · rename_i err _ herr
    split at h
    · cases h
      exact .refl s
    · rename_i hverified
      refine connectRollback_takes agents may (rollback t ?_) (hid ▸ reopen) ht connecting htoken
        (ownsAttempt_token howns) h
      refine reconcileGit_rollback hattempt evidence (by simp [herr]) fun hbound => ?_
      rw [not_and] at hverified
      simpa using hverified hbound

end Omd
