import Omd.Generations
import Omd.News

/-!
# What is kept for good

Rows of `orbits` and of `tasks` move to the archive and are never lost, made up or counted
twice, and the tables that only grow (the archives, the merge log, the outbox) grow at their
end.  The state that a row of any kind has ended in is final, and of a path orbit also the fence
and the decision that ended it.
-/

namespace Omd

open Lib

variable {cfg : Cfg} {env : Env} {σ σ' : Sys} {c : Scope} {E : TaskId → Prop}
  {s s₁ s' : Store} {o o' o'' : Orbit} {t : Task}

/-! ## One row -/

/-- A row that goes on: it stays the row it was, of whatever kind it is it keeps the state it has
ended in, and as a path orbit also its verdict. -/
structure Orbit.Lasts (o o' : Orbit) : Prop where
  row : o.SameRow o'
  final : o.live = false → o'.state = o.state
  verdict : o.kind = .orbit → o.live = false → o'.record = o.record

namespace Orbit.Lasts

@[refl] theorem refl (o : Orbit) : o.Lasts o := ⟨.refl o, fun _ => rfl, fun _ _ => rfl⟩

theorem ended (h : o.Lasts o') (ended : o.live = false) : o'.live = false := by
  rw [Orbit.live, h.final ended]
  exact ended

theorem trans (h : o.Lasts o') (h' : o'.Lasts o'') : o.Lasts o'' where
  row := h.row.trans h'.row
  final := fun ended => (h'.final (h.ended ended)).trans (h.final ended)
  verdict := by
    intro kind ended
    have later := h'.verdict (h.row.kind.trans kind) (h.ended ended)
    exact later.trans (h.verdict kind ended)

end Orbit.Lasts

/-- No change reopens a row that has ended, or rewrites the verdict of a path orbit. -/
theorem OrbitStep.lasts (h : OrbitStep c E s o o') : o.Lasts o' where
  row := h.row
  final := fun ended => h.change.final ended
  verdict := fun kind ended => h.change.recorded kind ended

/-! ## The ledger -/

/-- The rows of `orbits`, live and archived. -/
def Store.ledger (s : Store) : List Orbit := s.orbits ++ s.orbitsArchive

theorem Store.mem_ledger : o ∈ s.ledger ↔ o ∈ s.orbits ∨ o ∈ s.orbitsArchive := List.mem_append

/-- What one store keeps of another. -/
structure Store.Conserves (s s' : Store) : Prop where
  forth : ∀ o ∈ s.ledger, ∃ o' ∈ s'.ledger, o.Lasts o'
  back : ∀ o' ∈ s'.ledger, o'.orbitId < s.uuid → ∃ o ∈ s.ledger, o.Lasts o'
  tasks : ∀ t ∈ s.tasks ++ s.tasksArchive, ∃ t' ∈ s'.tasks ++ s'.tasksArchive,
    t'.taskId = t.taskId
  orbitsArchive : s.orbitsArchive <+: s'.orbitsArchive
  tasksArchive : s.tasksArchive <+: s'.tasksArchive
  mergeLog : s.mergeLog <+: s'.mergeLog
  outbox : s.outbox <+: s'.outbox
  uuid : s.uuid ≤ s'.uuid

theorem Store.Conserves.refl (s : Store) : s.Conserves s where
  forth := fun o ho => ⟨o, ho, .refl o⟩
  back := fun o ho _ => ⟨o, ho, .refl o⟩
  tasks := fun t ht => ⟨t, ht, rfl⟩
  orbitsArchive := List.prefix_rfl
  tasksArchive := List.prefix_rfl
  mergeLog := List.prefix_rfl
  outbox := List.prefix_rfl
  uuid := le_rfl

theorem Store.Conserves.trans (h : s.Conserves s₁) (h' : s₁.Conserves s') : s.Conserves s' where
  forth := by
    intro o ho
    obtain ⟨o₁, ho₁, lasts⟩ := h.forth o ho
    obtain ⟨o', ho', lasts'⟩ := h'.forth o₁ ho₁
    exact ⟨o', ho', lasts.trans lasts'⟩
  back := by
    intro o' ho' old
    obtain ⟨o₁, ho₁, lasts'⟩ := h'.back o' ho' (old.trans_le h.uuid)
    obtain ⟨o, ho, lasts⟩ := h.back o₁ ho₁ (lasts'.row.orbitId ▸ old)
    exact ⟨o, ho, lasts.trans lasts'⟩
  tasks := by
    intro t ht
    obtain ⟨t₁, ht₁, same⟩ := h.tasks t ht
    obtain ⟨t', ht', same'⟩ := h'.tasks t₁ ht₁
    exact ⟨t', ht', same'.trans same⟩
  orbitsArchive := h.orbitsArchive.trans h'.orbitsArchive
  tasksArchive := h.tasksArchive.trans h'.tasksArchive
  mergeLog := h.mergeLog.trans h'.mergeLog
  outbox := h.outbox.trans h'.outbox
  uuid := h.uuid.trans h'.uuid

/-! ## One change -/

/-- The tables that only grow. -/
theorem Micro.appends (h : Micro c E s s') : s.orbitsArchive <+: s'.orbitsArchive ∧
    s.tasksArchive <+: s'.tasksArchive ∧ s.mergeLog <+: s'.mergeLog ∧ s.outbox <+: s'.outbox := by
  cases h with
  | archiveOrbits _ _ _ frame =>
      rw [frame.orbitsArchive, frame.tasksArchive, frame.mergeLog, frame.outbox]
      exact ⟨List.prefix_append .., List.prefix_rfl, List.prefix_rfl, List.prefix_rfl⟩
  | archiveTasks _ _ _ _ frame =>
      rw [frame.orbitsArchive, frame.tasksArchive, frame.mergeLog, frame.outbox]
      exact ⟨List.prefix_rfl, List.prefix_append .., List.prefix_rfl, List.prefix_rfl⟩
  | publish _ _ _ frame =>
      rw [frame.orbitsArchive, frame.tasksArchive, frame.mergeLog, frame.outbox]
      exact ⟨List.prefix_rfl, List.prefix_rfl, List.prefix_append .., List.prefix_rfl⟩
  | orbit _ _ _ _ _ _ frame | insert _ _ _ _ _ _ _ _ frame | reject _ _ _ _ frame
  | summary _ _ _ frame =>
      rw [frame.orbitsArchive, frame.tasksArchive, frame.mergeLog, frame.outbox]
      exact ⟨List.prefix_rfl, List.prefix_rfl, List.prefix_rfl, List.prefix_append ..⟩
  | frame frame | enroll _ _ _ _ frame | agent _ _ _ _ frame | task _ _ _ frame
  | declare _ _ frame | request _ frame | waiters _ frame | slots _ _ _ _ frame | flags _ frame
  | arm _ _ _ _ _ _ _ _ frame | trip _ _ _ frame | stamp _ frame =>
      rw [frame.orbitsArchive, frame.tasksArchive, frame.mergeLog, frame.outbox]
      exact ⟨List.prefix_rfl, List.prefix_rfl, List.prefix_rfl, List.prefix_rfl⟩

/-- A row of `tasks` stays or is archived. -/
theorem Micro.task_kept (h : Micro c E s s') (ok : s.Ok) (ht : t ∈ s.tasks) :
    (∃ t' ∈ s'.tasks, t'.taskId = t.taskId) ∨ t ∈ s'.tasksArchive := by
  cases h with
  | archiveTasks p _ _ _ frame =>
      rw [frame.tasks, frame.tasksArchive]
      by_cases hp : p t = true
      · exact Or.inr (by simp [ht, hp])
      · exact Or.inl ⟨t, by simp [ht, hp], rfl⟩
  | declare _ _ frame =>
      rw [frame.tasks]
      exact Or.inl ⟨t, by simp [ht], rfl⟩
  | task id f step frame =>
      rw [frame.tasks]
      by_cases same : t.taskId = id
      · have step := step t (ok.getTask.mpr ⟨ht, same⟩)
        exact Or.inl ⟨f t, Table.mem_modify.mpr (Or.inr ⟨t, ht, same, rfl⟩), step.id⟩
      · exact Or.inl ⟨t, Table.mem_modify.mpr (Or.inl ⟨ht, same⟩), rfl⟩
  | stamp now frame =>
      obtain ⟨t', ht', stamped⟩ := (stampTerminal_tasks s now).2 t ht
      exact Or.inl ⟨t', frame.tasks ▸ ht', stamped.taskId⟩
  | frame frame | enroll _ _ _ _ frame | agent _ _ _ _ frame | orbit _ _ _ _ _ _ frame
  | insert _ _ _ _ _ _ _ _ frame | reject _ _ _ _ frame | summary _ _ _ frame
  | publish _ _ _ frame | request _ frame | waiters _ frame | slots _ _ _ _ frame | flags _ frame
  | arm _ _ _ _ _ _ _ _ frame | trip _ _ _ frame | archiveOrbits _ _ _ frame =>
      exact Or.inl ⟨t, frame.tasks ▸ ht, rfl⟩

theorem Micro.conserves (h : Micro c E s s') (ok : s.Ok) : s.Conserves s' where
  forth := by
    intro o ho
    rcases Store.mem_ledger.mp ho with ho | ho
    · rcases (h.orbits ok).forth ho ok with ⟨o', ho', step⟩ | ⟨archived, -⟩
      · exact ⟨o', Store.mem_ledger.mpr (Or.inl ho'), step.lasts⟩
      · exact ⟨o, Store.mem_ledger.mpr (Or.inr archived), .refl o⟩
    · exact ⟨o, Store.mem_ledger.mpr (Or.inr (h.archive.1 o ho)), .refl o⟩
  back := by
    intro o' ho' old
    rcases Store.mem_ledger.mp ho' with ho' | ho'
    · rcases (h.orbits ok).back ho' with ⟨o, ho, step⟩ | ⟨-, new⟩
      · exact ⟨o, Store.mem_ledger.mpr (Or.inl ho), step.lasts⟩
      · exact absurd new old.ne
    · exact ⟨o', Store.mem_ledger.mpr (h.archive.2 o' ho'), .refl o'⟩
  tasks := by
    intro t ht
    rcases List.mem_append.mp ht with ht | ht
    · rcases h.task_kept ok ht with ⟨t', ht', same⟩ | archived
      · exact ⟨t', List.mem_append_left _ ht', same⟩
      · exact ⟨t, List.mem_append_right _ archived, rfl⟩
    · exact ⟨t, List.mem_append_right _ (h.appends.2.1.subset ht), rfl⟩
  orbitsArchive := h.appends.1
  tasksArchive := h.appends.2.1
  mergeLog := h.appends.2.2.1
  outbox := h.appends.2.2.2
  uuid := h.uuid

/-! ## Runs -/

theorem Step.conserves {l : Env × Action} (next : Step cfg σ l σ') (ok : σ.Ok) :
    σ.store.Conserves σ'.store := by
  refine (step_spec ok next).1.invariant (I := σ.store.Conserves) ?_ ok.store (.refl _)
  intro may E s s' _ ok ih change
  exact ih.trans (change.conserves ok)

/-- The identifiers of the ledger are distinct and drawn. -/
structure Store.Ledgered (s : Store) : Prop where
  archived : Table.Distinct Orbit.orbitId s.orbitsArchive
  terminal : ∀ o ∈ s.orbitsArchive, o.state.terminal = true
  posted : s.Posted

theorem Store.Ledgered.distinct (h : s.Ledgered) (ok : s.Ok) :
    Table.Distinct Orbit.orbitId s.ledger := by
  rw [Table.Distinct, Store.ledger, List.map_append]
  refine List.Nodup.append ok.orbitIds h.archived ?_
  intro id live archived
  obtain ⟨o, ho, rfl⟩ := List.mem_map.mp live
  obtain ⟨p, hp, same⟩ := List.mem_map.mp archived
  exact h.posted.apart o ho p hp same.symm

theorem Store.Ledgered.fresh (h : s.Ledgered) (ok : s.Ok) (ho : o ∈ s.ledger) :
    o.orbitId < s.uuid := by
  rcases Store.mem_ledger.mp ho with ho | ho
  · exact ok.fresh o ho
  · exact h.posted.archived o ho

/-- What a change adds to the archive are rows that ended. -/
theorem Micro.archives (h : Micro c E s s') : s'.orbitsArchive = s.orbitsArchive ∨
    ∃ p : Orbit → Bool, (∀ o ∈ s.orbits, p o = true → o.state.terminal = true) ∧
      s'.orbitsArchive = s.orbitsArchive ++ s.orbits.filter p := by
  cases h with
  | archiveOrbits p terminal _ frame => exact Or.inr ⟨p, terminal, frame.orbitsArchive⟩
  | frame frame | enroll _ _ _ _ frame | agent _ _ _ _ frame | orbit _ _ _ _ _ _ frame
  | insert _ _ _ _ _ _ _ _ frame | reject _ _ _ _ frame | summary _ _ _ frame
  | task _ _ _ frame | declare _ _ frame | publish _ _ _ frame | request _ frame
  | waiters _ frame | slots _ _ _ _ frame | flags _ frame | arm _ _ _ _ _ _ _ _ frame
  | trip _ _ _ frame | stamp _ frame | archiveTasks _ _ _ _ frame =>
      exact Or.inl frame.orbitsArchive

theorem Store.Ledgered.micro (h : s.Ledgered) (ok : s.Ok) (step : Micro c E s s') :
    s'.Ledgered := by
  have posted := h.posted.micro ok step
  rcases step.archives with same | ⟨p, terminal, moved⟩
  · exact ⟨same ▸ h.archived, same ▸ h.terminal, posted⟩
  refine ⟨?_, fun o ho => ?_, posted⟩
  · rw [moved, Table.Distinct, List.map_append]
    refine List.Nodup.append h.archived (ok.orbitIds.filter p) ?_
    intro id archived live
    obtain ⟨o, ho, rfl⟩ := List.mem_map.mp live
    obtain ⟨r, hr, same⟩ := List.mem_map.mp archived
    exact h.posted.apart o (List.mem_of_mem_filter ho) r hr same.symm
  · rw [moved] at ho
    rcases List.mem_append.mp ho with ho | ho
    · exact h.terminal o ho
    · obtain ⟨ho, hp⟩ := List.mem_filter.mp ho
      exact terminal o ho hp

theorem ReachableBy.ledgered {P : Sys → Env × Action → Prop} (h : ReachableBy cfg P σ) :
    σ.store.Ledgered :=
  Sys.Ok.empty.run_invariant (I := Store.Ledgered) (fun _ _ _ _ ok ih step => ih.micro ok step) h
    ⟨List.nodup_nil, by simp, .empty⟩

/-- Nothing is lost.  Whatever happens after a state, the rows of `orbits` that it had, live or
archived, are those with the identifiers drawn until then, each once; none is reopened, none
of the verdicts changes, no task is lost, and the archives, the merge log and the outbox only
grow. -/
theorem nothing_lost (reach : Reachable cfg σ)
    (run : Transition.Run (Step cfg) (fun _ _ => True) σ σ') :
    σ.store.Conserves σ'.store ∧
      ((σ'.store.ledger.map Orbit.orbitId).filter (· < σ.store.uuid)).Perm
        (σ.store.ledger.map Orbit.orbitId) ∧
      ∀ o ∈ σ'.store.orbitsArchive, o.state.terminal = true := by
  have reach' : Reachable cfg σ' := Transition.Run.trans reach run
  have ledgered := ReachableBy.ledgered reach
  have ledgered' := ReachableBy.ledgered reach'
  have conserves : σ.store.Conserves σ'.store := by
    refine (run.invariant (I := fun τ => τ.Ok ∧ σ.store.Conserves τ.store) ?_
      ⟨reach.ok, .refl _⟩).2
    intro τ l τ' ih _ next
    exact ⟨(step_spec ih.1 next).2, ih.2.trans (next.conserves ih.1)⟩
  refine ⟨conserves, ?_, ledgered'.terminal⟩
  rw [List.perm_ext_iff_of_nodup (List.Nodup.filter _ (ledgered'.distinct reach'.ok.store))
    (ledgered.distinct reach.ok.store)]
  intro id
  simp only [List.mem_filter, List.mem_map, decide_eq_true_eq]
  constructor
  · rintro ⟨⟨o', ho', rfl⟩, old⟩
    obtain ⟨o, ho, lasts⟩ := conserves.back o' ho' old
    exact ⟨o, ho, lasts.row.orbitId.symm⟩
  · rintro ⟨o, ho, rfl⟩
    obtain ⟨o', ho', lasts⟩ := conserves.forth o ho
    exact ⟨⟨o', ho', lasts.row.orbitId⟩, ledgered.fresh reach.ok.store ho⟩

/-- A claim and its release. -/
def releasedClaim : List (Env × Action) :=
  [ (Action.call (.claim { agentId := "A", pathspec := ["a"] })).at 1,
    (Action.call (.release 0 "A" (some 1) none none)).at 2 ]

/-- A coordinator that keeps what ended for a while. -/
def shortMemory : Cfg := { agentTtl := none, terminalRetention := some 100 }

/-- The row that ended is archived by a late sweep, and is still the one row there is. -/
theorem nothing_lost_released : ∃ σ σ' : Sys, Reachable shortMemory σ ∧
    σ.store.orbitsArchive = [] ∧ σ'.store.orbits = [] ∧
      ((σ'.store.ledger.map Orbit.orbitId).filter (· < σ.store.uuid)).Perm [0] := by
  have run : ∃ σ, Reachable shortMemory σ ∧ σ.store.ledger.map Orbit.orbitId = [0] ∧
      σ.store.orbitsArchive = [] ∧
        (step shortMemory ((Action.call .sweep).at 200).1 σ (.call .sweep)).toOption.any
          fun σ' => σ'.store.orbits = [] :=
    exists_reachable releasedClaim (by decide +kernel)
  obtain ⟨σ, reach, rows, archived, swept⟩ := run
  obtain ⟨σ', next, gone⟩ := exists_step (l := (Action.call .sweep).at 200) swept
  have later : Transition.Run (Step shortMemory) (fun _ _ => True) σ σ' :=
    .tail (.refl σ) trivial next
  obtain ⟨-, same, -⟩ := nothing_lost reach later
  exact ⟨σ, σ', reach, archived, gone, rows ▸ same⟩

end Omd
