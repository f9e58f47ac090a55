import Omd.Effects.Tasks

/-!
# The effect of connect

Phase A opens an attempt and Phase C ends it.  Each is a group of changes about one task:
the other tasks stay as they are, and in between the task is exempt.
-/

namespace Omd

open Lib

variable {c : Scope} {E : TaskId → Prop} {s s₁ s' : Store}

/-! ## Groups about one task -/

/-- A run of changes about one task; the other rows of `tasks` stay. -/
def Focus (c : Scope) (task : TaskId) (s s' : Store) : Prop :=
  s.Ok → Micros c (· = task) s s' ∧ ∀ r, r.taskId ≠ task → (r ∈ s'.tasks ↔ r ∈ s.tasks)

theorem Keeps.focus {task : TaskId} (h : Keeps c (· = task) s s') : Focus c task s s' :=
  fun ok => ⟨(h ok).1, fun _ _ => by rw [(h ok).2]⟩

theorem Focus.trans {task : TaskId} (h : Focus c task s s₁) (h' : Focus c task s₁ s') :
    Focus c task s s' := fun ok =>
  have h' := h' (ok.micros (h ok).1)
  ⟨(h ok).1.trans h'.1, fun r hr => (h'.2 r hr).trans ((h ok).2 r hr)⟩

theorem Focus.setTask {task : TaskId} {f : Task → Task}
    (step : s.Ok → ∀ t ∈ s.tasks, t.taskId = task → TaskStep c (· = task) s t (f t)) :
    Focus c task s (s.setTask task f) := by
  refine fun ok => ⟨Does.setTask (step ok) ok, fun r hr => ?_⟩
  rw [Store.setTask, Table.mem_modify]
  refine ⟨?_, fun h => Or.inl ⟨h, hr⟩⟩
  rintro (⟨h, -⟩ | ⟨r₀, hr₀, hid, rfl⟩)
  · exact h
  · exact absurd ((step ok r₀ hr₀ hid).id.trans hid) hr

/-- What holds of the written row. -/
theorem row_setTask {task : TaskId} {f : Task → Task} {P : Task → Prop}
    (h : ∀ t ∈ s.tasks, t.taskId = task → P (f t)) :
    ∀ r ∈ (s.setTask task f).tasks, r.taskId = task → P r := by
  intro r hr hid
  rcases Table.mem_modify.mp hr with ⟨-, hne⟩ | ⟨t, ht, htid, rfl⟩
  · exact absurd hid hne
  · exact h t ht htid

/-- An old row of `orbits` keeps the columns it keeps for life. -/
theorem Micros.back (h : Micros c E s s') (ok : s.Ok) {o' : Orbit} (ho' : o' ∈ s'.orbits)
    (old : o'.orbitId < s.uuid) : ∃ o ∈ s.orbits, o.SameRow o' :=
  (h.rowsFrom ok o' ho').resolve_right old.not_ge

/-- A token stays a token. -/
theorem Micros.kind (h : Micros c E s s') (ok : s.Ok) {token : OrbitId} {kind : OrbitKind}
    (old : token < s.uuid) (hkind : ∀ o ∈ s.orbits, o.orbitId = token → o.kind = kind) :
    ∀ o ∈ s'.orbits, o.orbitId = token → o.kind = kind := by
  rintro o' ho' rfl
  obtain ⟨o, ho, row⟩ := h.back ok ho' old
  rw [row.kind]
  exact hkind o ho row.orbitId.symm

/-- The token of a task is nobody else's. -/
theorem unbound_of_others {t : Task} {token : OrbitId} (ok : s.Ok) (ht : t ∈ s.tasks)
    (htoken : t.connectTokenId = some token)
    (others : ∀ r, r.taskId ≠ t.taskId → (r ∈ s'.tasks ↔ r ∈ s.tasks)) :
    s'.Unbound (· = t.taskId) token := by
  intro r hr _ hne hr'
  exact hne (ok.attempts.token r ((others r hne).mp hr) t ht token hr' htoken ▸ rfl)

/-! ## The token -/

theorem releaseMergeToken_keeps {now : Time} {token : OrbitId}
    (kind : ∀ o ∈ s.orbits, o.orbitId = token → o.kind = .merge_token)
    (free : s.Unbound E token) (h : releaseMergeToken now s token = .ok s') :
    Keeps c E s s' := by
  rw [releaseMergeToken] at h
  split at h
  · cases h
    exact .refl _
  · rename_i o hget
    split at h
    · rename_i held
      cases h
      have hmem := Table.mem_of_get hget
      have hid : o.orbitId = token := Table.key_of_get hget
      subst hid
      have token : o.kind = .merge_token := kind o hmem rfl
      have other : o.kind ≠ .orbit := by simp [token]
      exact Wrote.keeps (.silent (.refl s) (.silent fun h => absurd h other)
        ⟨rfl, .token token held (Or.inl free) rfl, fun h => absurd h other⟩) hmem
    · cases h
      exact .refl _

/-! ## Publication -/

theorem markStaleReads_keeps (merged : TaskId) (gen : ℕ) (globs : List String) :
    Keeps c E s (markStaleReads s merged gen globs) := by
  rw [markStaleReads]
  split
  · exact .refl s
  refine Keeps.foldl fun r _ s₁ => ?_
  rw [markStaleRead]
  split
  · exact .refl s₁
  split
  · refine Keeps.trans (Keeps.setOrbit (fun o _ _ => ?_) fun o _ _ => ?_)
      (frame_announceRead _ r.orbitId rfl rfl).keeps
    · exact ⟨rfl, .keep rfl rfl rfl (fun _ => Or.inl rfl) fun _ => rfl, fun _ => .same rfl rfl⟩
    · exact .silent fun _ => ⟨rfl, Or.inl rfl⟩
  · exact .refl s₁

theorem mem_writesForTask {task : TaskId} {o : Orbit} : o ∈ s.writesForTask task ↔
    (o ∈ s.orbits ∧ o.taskId = some task ∧ o.kind = .orbit) ∧ o.mode.writes = true := by
  rw [Store.writesForTask, List.mem_filter, mem_orbitsForTask]

theorem releaseTaskWriteOrbits_keeps {task : TaskId} (exempt : E task)
    (mark : c.may (.mark task "merged")) (h : releaseTaskWriteOrbits c.now s task = .ok s') :
    Keeps c E s s' := by
  have hmem : ∀ o ∈ (s.writesForTask task).filter fun o => o.state = .HELD,
      o ∈ s.orbits ∧ o.taskId = some task ∧ o.kind = .orbit ∧ o.state = .HELD := by
    intro o ho
    rw [List.mem_filter, mem_writesForTask] at ho
    exact ⟨ho.1.1.1, ho.1.1.2.1, ho.1.1.2.2, by simpa using ho.2⟩
  refine Keeps.foldlM (fun ok => ((ok.orbitIds.filter _).filter _).filter _)
    (fun o ho => (hmem o ho).1) ?_ h
  intro o ho s₁ s₂ _ _ _ h
  obtain ⟨-, of, kind, held⟩ := hmem o ho
  rw [releaseWriteOrbit, Outcome.bind_eq_ok] at h
  obtain ⟨s₃, h₃, h⟩ := h
  obtain ⟨id, target, hid, htarget, reduced⟩ := reduceOrbitLifecycle_spec h₃
  cases htarget
  cases h
  exact .reduced (.refl s₁) reduced hid rfl kind rfl rfl rfl
    ⟨rfl, .attempt of exempt kind (Or.inr ⟨held, rfl, mark⟩) rfl (fun ended => by
      rw [Orbit.live, held] at ended
      cases ended), fun _ => .released (by simp [Orbit.live, held]) rfl rfl rfl⟩

theorem publish_keeps {task : TaskId} (exempt : E task) (globs : List String) :
    Keeps c E s ({ s with integrationGen := s.integrationGen + 1 }.appendMergeLog
      ⟨s.integrationGen + 1, task, globs⟩) := by
  intro ok
  have fresh : ¬ (s.mergeLog.any fun m => m.gen = s.integrationGen + 1) = true := by
    simp only [List.any_eq_true, decide_eq_true_eq, not_exists, not_and]
    intro m hm hgen
    have := ok.gens m hm
    omega
  have heq : { s with integrationGen := s.integrationGen + 1 }.appendMergeLog
      ⟨s.integrationGen + 1, task, globs⟩ =
        { s with
          integrationGen := s.integrationGen + 1
          mergeLog := s.mergeLog ++ [⟨s.integrationGen + 1, task, globs⟩] } := by
    rw [Store.appendMergeLog, if_neg fresh]
  rw [heq]
  exact ⟨.single (.publish ⟨s.integrationGen + 1, task, globs⟩ rfl exempt (.refl _)), rfl⟩

theorem publishMerge_keeps {task : TaskId} (exempt : E task)
    (mark : c.may (.mark task "merged")) (h : publishMerge c.now s task = .ok s') :
    Keeps c E s s' :=
  ((publish_keeps exempt _).trans (markStaleReads_keeps _ _ _)).trans
    (releaseTaskWriteOrbits_keeps exempt mark h)

/-! ## The end of an attempt -/

/-- The row of a task is the connecting one with this token. -/
def Store.Connecting (s : Store) (task : TaskId) : Prop :=
  ∀ r ∈ s.tasks, r.taskId = task → r.state = .CONNECTING

theorem mergeColumns_focus (task : TaskId) (sha : Option Sha) (now : Time) :
    Focus c task s (s.setTask task fun r => { r with mergeSha := sha, mergedAt := some now }) := by
  refine Focus.setTask fun _ t _ _ => ?_
  exact ⟨rfl, .same rfl rfl, Or.inl rfl, id, .keep rfl rfl rfl rfl⟩

theorem mergeTask_focus {task : TaskId} (connecting : s.Connecting task)
    (h : mergeTask s task = .ok s') :
    Focus c task s s' ∧ ∀ r ∈ s'.tasks, r.taskId = task → r.state = .MERGED := by
  cases h
  refine ⟨Focus.setTask fun ok t ht hid => ?_, row_setTask fun t _ _ => rfl⟩
  refine ⟨rfl, .same rfl rfl, Or.inl rfl, id,
    .attempt hid (Or.inr ⟨connecting t ht hid, Or.inr (Or.inl rfl)⟩) rfl rfl ?_⟩
  exact ⟨Or.inl rfl, Or.inl rfl, ok.attempts.tokenDrawn t ht, ok.attempts.attemptDrawn t ht,
    fun h => by cases h⟩

theorem rollbackTask_focus {task : TaskId} (connecting : s.Connecting task)
    (h : rollbackTask s task = .ok s') :
    Focus c task s s' ∧ ∀ r ∈ s'.tasks, r.taskId = task → r.state = .DONE := by
  cases h
  refine ⟨Focus.setTask fun ok t ht hid => ?_, row_setTask fun t _ _ => rfl⟩
  refine ⟨rfl, .same rfl rfl, Or.inl rfl, id,
    .attempt hid (Or.inr ⟨connecting t ht hid, Or.inr (Or.inr rfl)⟩) rfl rfl ?_⟩
  exact ⟨Or.inr (Or.inl rfl), Or.inr (Or.inl rfl), fun _ h => (by cases h),
    fun _ h => (by cases h), fun h => (by cases h)⟩

/-- A loop over rows of a task, none of whose rounds fails. -/
theorem attemptRows_keeps {xs : List Orbit} {f : Orbit → Orbit} {task : TaskId}
    (exempt : E task) (distinct : Table.Distinct Orbit.orbitId xs)
    (sub : ∀ o ∈ xs, o ∈ s.orbits ∧ o.taskId = some task ∧ o.kind = .orbit)
    (hf : ∀ o, o.SameRow (f o) ∧ (f o).state = o.state ∧ (f o).expiresAt = o.expiresAt ∧
      (f o).record = o.record ∧ (f o).terminalAt = o.terminalAt ∧ (f o).releasedAt = o.releasedAt)
    (ok : s.Ok) :
    (Micros c E s (xs.foldl (fun s o => s.setOrbit o.orbitId f) s) ∧
      (xs.foldl (fun s o => s.setOrbit o.orbitId f) s).tasks = s.tasks) ∧
      (∀ o ∈ xs, f o ∈ (xs.foldl (fun s o => s.setOrbit o.orbitId f) s).orbits) ∧
      ∀ o ∈ s.orbits, (∀ x ∈ xs, o.orbitId ≠ x.orbitId) →
        o ∈ (xs.foldl (fun s o => s.setOrbit o.orbitId f) s).orbits := by
  have body : ∀ o ∈ xs, ∀ s₁ s₂, s₁.Ok → s₁.tasks = s.tasks → o ∈ s₁.orbits →
      (.ok (s₁.setOrbit o.orbitId f) : Except Fault Store) = .ok s₂ → Wrote c E s₁ o s₂ ∧
        ∃ o' ∈ s₂.orbits, o'.orbitId = o.orbitId ∧ o' = f o := by
    intro o ho s₁ s₂ ok₁ _ ho₁ h
    cases h
    obtain ⟨row, state, deadline, record, stamp, release⟩ := hf o
    have decision : (f o).decisionType = o.decisionType := congrArg Prod.snd record
    refine ⟨.silent (.refl s₁) (.silent fun _ => ⟨state, Or.inl decision⟩) 
      ⟨row, ?_, fun _ => .same stamp release⟩, f o, ?_, row.orbitId, rfl⟩
    · exact .attempt (sub o ho).2.1 exempt (sub o ho).2.2 (Or.inl state) deadline fun _ => record
    · exact (ok₁.mem_setOrbit ho₁ f _).mpr (Or.inr rfl)
  have looped := foldlM_orbits (Q := fun o o' => o' = f o) distinct (fun o ho => (sub o ho).1)
    body (Outcome.foldlM_ok_eq (fun s o => s.setOrbit o.orbitId f) xs s) ok
  refine ⟨⟨looped.run, looped.tasks⟩, fun o ho => ?_, looped.others⟩
  obtain ⟨o', ho', -, rfl⟩ := looped.done o ho
  exact ho'

theorem mem_pinnedOrbitsForTask {task : TaskId} {o : Orbit}
    (h : o ∈ s.pinnedOrbitsForTask task) :
    o ∈ s.orbits ∧ o.taskId = some task ∧ o.kind = .orbit := by
  simp only [Store.pinnedOrbitsForTask, List.mem_filter, Bool.and_eq_true,
    decide_eq_true_eq] at h
  exact ⟨h.1, h.2.1.1, h.2.1.2⟩

theorem unpinOrbits_keeps {task : TaskId} (exempt : E task) :
    Keeps c E s (unpinOrbits s task) := fun ok =>
  (attemptRows_keeps (f := fun r => { r with merging := false }) exempt (ok.orbitIds.filter _)
    (fun _ ho => mem_pinnedOrbitsForTask ho) (fun _ => ⟨rfl, rfl, rfl, rfl, rfl, rfl⟩) ok).1

/-- The release of the token of the task a group is about. -/
theorem releaseToken_focus {t : Task} {token : OrbitId} {now : Time} (ht : t ∈ s.tasks)
    (htoken : t.connectTokenId = some token)
    (kind : ∀ o ∈ s.orbits, o.orbitId = token → o.kind = .merge_token)
    (before : Focus c t.taskId s s₁) (h : releaseMergeToken now s₁ token = .ok s') :
    Focus c t.taskId s s' := by
  intro ok
  obtain ⟨run, others⟩ := before ok
  have keeps := releaseMergeToken_keeps (c := c) (E := (· = t.taskId))
    (run.kind ok (ok.attempts.tokenDrawn t ht token htoken) kind)
    (unbound_of_others ok ht htoken others) h
  exact (before.trans keeps.focus) ok

end Omd
