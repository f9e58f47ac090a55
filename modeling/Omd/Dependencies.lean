import Omd.Steps

/-!
# Dependencies at the start of a task

What a task depends on is on record beside the run: the dependencies its last declaration
named, and those that `depend` added since.  `start` does not look at them; it goes by the
state `READY`.  In a run that keeps what is on record in the row and gives a `READY` task
only dependencies that are merged, a task that enters `IN_ORBIT` has them all merged.
-/

namespace Omd

open Lib

variable {cfg : Cfg} {env : Env} {σ σ' : Sys} {a : Action} {s s' : Store}

/-! ## The record -/

/-- The declaration an action makes. -/
def Sys.declaration (σ : Sys) : Action → Option DeclareArgs
  | .call (.declare d) => some d
  | .resume i _ =>
      match σ.procs[i]? with
      | some (.begin b (.declare _)) => some b.declareArgs
      | _ => none
  | _ => none

/-- The dependencies on record after a step.  A declaration that is accepted and names its
dependencies sets them, and a task that is new has none. -/
def Sys.record (σ : Sys) (l : Env × Action) (deps : TaskId → List TaskId) (task : TaskId) :
    List TaskId :=
  let known := if (σ.store.getTask task).isSome then deps task else []
  match σ.declaration l.2 with
  | some d =>
      if d.taskId = task ∧ (declare l.1.now σ.store d).2.ok = some true then d.deps.getD known
      else known
  | none =>
      match l.2 with
      | .call (.depend t after) =>
          if t = task ∧ (depend σ.store t after).2.ok = some true ∧ after ∉ known then
            known ++ [after]
          else known
      | _ => known

/-- A system with what is on record. -/
structure Ledger where
  sys : Sys := {}
  deps : TaskId → List TaskId := fun _ => []

/-- A step that keeps the record. -/
def Recorded (cfg : Cfg) (L : Ledger) (l : Env × Action) (L' : Ledger) : Prop :=
  step cfg l.1 L.sys l.2 = .ok L'.sys ∧ L'.deps = L.sys.record l L.deps

theorem Recorded.of_step {L : Ledger} {l : Env × Action} (h : step cfg l.1 L.sys l.2 = .ok σ') :
    Recorded cfg L l ⟨σ', L.sys.record l L.deps⟩ := ⟨h, rfl⟩

/-- In a step the task enters `IN_ORBIT`. -/
def Enters (s s' : Store) (task : TaskId) : Prop :=
  (s'.getTask task).map Task.state = some .IN_ORBIT ∧
    (s.getTask task).map Task.state ≠ some .IN_ORBIT

/-! ## What the runs keep to -/

/-- A task that `start` accepts. -/
def TaskState.startable : TaskState → Bool
  | .READY | .CLAIMED => true
  | _ => false

/-- The action drops no dependency and gives a task that may start none that is not merged:
a declaration without dependencies is of a task that has none, and a begin that writes
`READY` writes it on a task whose dependencies are merged. -/
structure KeepsDeps (σ : Sys) (l : Env × Action) : Prop where
  declare : ∀ d, σ.declaration l.2 = some d → ∀ t, σ.store.getTask d.taskId = some t →
    (d.deps = none → t.deps = []) ∧
      (t.state.startable = true → depsMerged σ.store (d.deps.getD []) = true)
  depend : ∀ task after, l.2 = .call (.depend task after) → ∀ t, σ.store.getTask task = some t →
    t.state.startable = true → depsMerged σ.store [after] = true
  ready : ∀ b claims state input, σ.Cut l.2 (.begin b (.ready claims state)) input →
    ∀ t, σ.store.getTask b.taskId = some t → depsMerged σ.store t.deps = true ∧
      (t.state = .MERGED → ∀ r ∈ σ.store.tasks, r.state.startable = true ∨ r = t →
        t.taskId ∉ r.deps) ∧
        (t.state.terminal = true → ∀ task, t.taskId ≠ resolveTaskId task)

/-! ## Merged tasks -/

/-- The task is merged. -/
def Store.Merged (s : Store) (task : TaskId) : Prop :=
  ∃ t ∈ s.tasks, t.taskId = task ∧ t.state = .MERGED

theorem Store.Ok.merged (ok : s.Ok) {task : TaskId} :
    (s.getTask task).map Task.state = some .MERGED ↔ s.Merged task := by
  rw [Option.map_eq_some_iff]
  constructor
  · rintro ⟨t, ht, state⟩
    exact ⟨t, (ok.getTask.mp ht).1, (ok.getTask.mp ht).2, state⟩
  · rintro ⟨t, ht, hid, state⟩
    exact ⟨t, ok.getTask.mpr ⟨ht, hid⟩, state⟩

theorem Store.Ok.depsMerged (ok : s.Ok) {deps : List TaskId} :
    depsMerged s deps = true ↔ ∀ d ∈ deps, s.Merged d := by
  rw [Omd.depsMerged, List.all_eq_true]
  refine forall₂_congr fun d _ => ?_
  rw [decide_eq_true_eq, ok.merged]

/-- A merged task stays merged, unless a begin writes over it. -/
theorem TaskChange.merged {c : Scope} {E : TaskId → Prop} {t t' : Task}
    (h : TaskChange c E s t t') (no : ¬ c.may (.overwrite t.taskId)) (merged : t.state = .MERGED) :
    t'.state = .MERGED := by
  cases h with
  | keep state | sync state | refresh _ state => exact state.trans merged
  | ready waiting => simp [merged, no] at waiting
  | start _ admitted => simp [merged] at admitted
  | finish started => simp [merged] at started
  | abort _ waiting => simp [merged, TaskState.admission] at waiting
  | reclaim _ _ _ requeued => simpa [merged, TaskState.inProgress] using requeued.busy
  | attempt _ state => simp [merged] at state

/-- A task that ended stays so, unless a begin writes over it. -/
theorem TaskChange.ended {c : Scope} {E : TaskId → Prop} {t t' : Task}
    (h : TaskChange c E s t t') (no : ¬ c.may (.overwrite t.taskId))
    (ended : t.state.terminal = true) : t'.state.terminal = true := by
  cases h with
  | keep state | sync state | refresh _ state => exact state ▸ ended
  | ready waiting =>
      rcases waiting with state | state | overwrite
      · simp [state, TaskState.terminal] at ended
      · simp [state, TaskState.terminal] at ended
      · exact absurd overwrite no
  | start _ admitted =>
      rcases admitted with state | state <;> simp [state, TaskState.terminal] at ended
  | finish started => simp [started, TaskState.terminal] at ended
  | abort _ _ state => rw [state]; rfl
  | reclaim _ _ _ requeued =>
      have busy := requeued.busy
      cases hs : t.state <;> simp [hs, TaskState.terminal, TaskState.inProgress] at ended busy
  | attempt _ state =>
      rcases state with ⟨state | state, -⟩ | ⟨state, -⟩ <;>
        simp [state, TaskState.terminal] at ended

/-- A dependency of a live task that is merged stays so. -/
theorem Micro.merged {c : Scope} {E : TaskId → Prop} (ok : s.Ok) (h : Micro c E s s')
    (no : ∀ id, ¬ c.may (.overwrite id)) {t : Task} (ht : t ∈ s.tasks)
    (live : t.state.terminal = false) {d : TaskId} (hd : d ∈ t.deps) (merged : s.Merged d) :
    s'.Merged d := by
  obtain ⟨r, hr, rfl, state⟩ := merged
  rcases (h.tasks ok).forth hr ok with ⟨r', hr', step⟩ | ⟨-, -, unused⟩
  · exact ⟨r', hr', step.id, step.change.merged (no _) state⟩
  · exact absurd hd (unused t ht live)

/-! ## The row and the record -/

/-- The row says what is on record.  That of a resolve task that ended may say less. -/
def Task.OnRecord (deps : TaskId → List TaskId) (t : Task) : Prop :=
  t.deps = deps t.taskId ∨ t.state.terminal = true ∧ ∃ task, t.taskId = resolveTaskId task

theorem Task.OnRecord.live {deps : TaskId → List TaskId} {t : Task} (h : t.OnRecord deps)
    (live : t.state.terminal = false) : t.deps = deps t.taskId := by
  rcases h with h | ⟨ended, -⟩
  · exact h
  · rw [ended] at live
    cases live

theorem TaskState.live_of_startable {st : TaskState} (h : st.startable = true) :
    st.terminal = false := by
  cases st <;> first | rfl | cases h

/-- What holds before every step: the rows are on record, and what may start depends on
merged tasks. -/
structure Store.Honours (deps : TaskId → List TaskId) (s : Store) : Prop where
  recorded : ∀ t ∈ s.tasks, t.OnRecord deps
  merged : ∀ t ∈ s.tasks, t.state.startable = true → ∀ d ∈ t.deps, s.Merged d

/-- What holds during a step that began in `s₀`. -/
structure Honouring (cfg : Cfg) (env : Env) (σ : Sys) (a : Action) (deps : TaskId → List TaskId)
    (s : Store) : Prop where
  honours : s.Honours deps
  entered : ∀ t ∈ s.tasks, t.state = .IN_ORBIT →
    (σ.store.getTask t.taskId).map Task.state ≠ some .IN_ORBIT → ∀ d ∈ t.deps, s.Merged d
  kept : (∀ t, ¬ Licence cfg env σ a (.archive t)) → ∀ t₀ ∈ σ.store.tasks,
    ∃ t ∈ s.tasks, t.taskId = t₀.taskId

/-- An action that neither declares, nor adds a dependency, nor writes `READY` for a begin. -/
structure Sys.Quiet (σ : Sys) (a : Action) : Prop where
  declare : σ.declaration a = none
  depend : ∀ task after, a ≠ .call (.depend task after)
  ready : ∀ b claims state input, ¬ σ.Cut a (.begin b (.ready claims state)) input

namespace Sys.Quiet

variable (h : σ.Quiet a)

include h

theorem no_declare {task : TaskId} {deps : List TaskId} {reads : List String} :
    ¬ Licence cfg env σ a (.declare task deps reads) := by
  intro may
  cases may with
  | declare ha =>
      have := h.declare
      rw [ha] at this
      cases this
  | depend ha => exact h.depend _ _ ha
  | begin cut =>
      obtain ⟨i, rfl, hi⟩ := cut
      have := h.declare
      simp [Sys.declaration, hi] at this

theorem no_ready {task : TaskId} : ¬ Licence cfg env σ a (.ready task) := by
  intro may
  cases may with
  | ready cut => exact h.ready _ _ _ _ cut

theorem no_overwrite {task : TaskId} : ¬ Licence cfg env σ a (.overwrite task) := by
  intro may
  cases may with
  | overwrite cut => exact h.ready _ _ _ _ cut

end Sys.Quiet

/-- Phase C collects nothing. -/
theorem Completes.not_collects {task : TaskId} {input : Input} (h : Completes σ a task input) :
    ¬ Collects σ a := by
  intro collects
  rcases h with @⟨args, i, cut, -⟩ | @⟨args, trip, t, i, cut, -⟩
  all_goals
    rcases collects with @⟨v, rfl, -⟩ | cut' | cut' | cut'
    · obtain ⟨i, hi, -⟩ := cut
      cases hi
    all_goals cases (cut.unique cut').1

/-- A resolve task is opened again by Phase C, which collects nothing. -/
theorem Licence.reopened {task : TaskId} (h : Licence cfg env σ a (.reopen task)) :
    (∃ of, task = resolveTaskId of) ∧ ∀ t, ¬ Licence cfg env σ a (.archive t) := by
  cases h with
  | reopen completes =>
      refine ⟨⟨_, rfl⟩, fun t may => ?_⟩
      cases may with
      | archive collects => exact completes.not_collects collects

/-! ## One change -/

/-- What a task that may start, or was started, was before a change under the licences of a
quiet action. -/
theorem TaskChange.started {may : Deed → Prop} {now : Time} {E : TaskId → Prop} {t t' : Task}
    (h : TaskChange ⟨cfg, now, may⟩ E s t t') (no : ¬ may (.ready t.taskId))
    (started : t'.state.startable = true ∨ t'.state = .IN_ORBIT) :
    t.state.startable = true ∨ t.state = .IN_ORBIT ∧ t'.state = .IN_ORBIT ∨
      t.state.terminal = false ∧ depsMerged s t.deps = true ∨
      t.state.terminal = true ∧ may (.overwrite t.taskId) := by
  cases h with
  | keep state | sync state | refresh _ state =>
      rw [state] at started ⊢
      rcases started with started | started
      · exact Or.inl started
      · exact Or.inr (Or.inl ⟨started, started⟩)
  | ready waiting deps =>
      have merged := deps.resolve_right no
      by_cases ended : t.state.terminal = true
      · refine Or.inr (Or.inr (Or.inr ⟨ended, ?_⟩))
        rcases waiting with state | state | overwrite
        · simp [state, TaskState.terminal] at ended
        · simp [state, TaskState.terminal] at ended
        · exact overwrite
      · exact Or.inr (Or.inr (Or.inl ⟨by simpa using ended, merged⟩))
  | start _ admitted =>
      rcases admitted with state | state <;> exact Or.inl (by rw [state]; rfl)
  | finish _ state | abort _ _ state => simp [state, TaskState.startable] at started
  | reclaim _ _ _ requeued =>
      rcases requeued.state with ⟨state, -⟩ | ⟨state, -⟩ <;>
        simp [state, TaskState.startable] at started
  | attempt _ state =>
      rcases state with ⟨-, state⟩ | ⟨-, state | state | state⟩ <;>
        simp [state, TaskState.startable] at started

/-- A change under the licences of a quiet action. -/
theorem Honouring.micro {deps : TaskId → List TaskId} {may : Deed → Prop} {E : TaskId → Prop}
    (quiet : σ.Quiet a) (new : ∀ task, σ.store.getTask task = none → deps task = [])
    (licensed : ∀ d, may d → Licence cfg env σ a d) (ok₀ : σ.store.Ok) (ok : s.Ok)
    (h : Honouring cfg env σ a deps s) (step : Micro ⟨cfg, env.now, may⟩ E s s') :
    Honouring cfg env σ a deps s' := by
  have noReady (task : TaskId) : ¬ may (.ready task) := fun m => quiet.no_ready (licensed _ m)
  have noOverwrite (task : TaskId) : ¬ may (.overwrite task) :=
    fun m => quiet.no_overwrite (licensed _ m)
  have stays {t : Task} (ht : t ∈ s.tasks) (live : t.state.terminal = false) {d : TaskId}
      (hd : d ∈ t.deps) (merged : s.Merged d) : s'.Merged d :=
    step.merged ok noOverwrite ht live hd merged
  -- the dependencies of a live task are those it had
  have same {t t' : Task} (h₁ : TaskStep ⟨cfg, env.now, may⟩ E s t t')
      (live : t.state.terminal = false) : t'.deps = t.deps := by
    cases h₁.declared with
    | same deps => exact deps
    | declare m => exact absurd (licensed _ m) quiet.no_declare
    | reopen _ ended => simp [live] at ended
  have ready {t t' : Task} (ht : t ∈ s.tasks) (h₁ : TaskStep ⟨cfg, env.now, may⟩ E s t t')
      (started : t'.state.startable = true ∨ t'.state = .IN_ORBIT)
      (entered : t.state = .IN_ORBIT → t'.state = .IN_ORBIT → ∀ d ∈ t.deps, s.Merged d) :
      ∀ d ∈ t'.deps, s'.Merged d := by
    have all (live : t.state.terminal = false) (merged : ∀ d ∈ t.deps, s.Merged d) :
        ∀ d ∈ t'.deps, s'.Merged d := by
      rw [same h₁ live]
      exact fun d hd => stays ht live hd (merged d hd)
    rcases h₁.change.started (noReady _) started with
      before | ⟨orbit, orbit'⟩ | ⟨live, merged⟩ | ⟨-, m⟩
    · exact all (TaskState.live_of_startable before) (h.honours.merged t ht before)
    · exact all (by rw [orbit]; rfl) (entered orbit orbit')
    · exact all live (ok.depsMerged.mp merged)
    · exact absurd m (noOverwrite _)
  refine ⟨⟨fun t' ht' => ?_, fun t' ht' started => ?_⟩, fun t' ht' orbit fresh => ?_,
    fun none t₀ ht₀ => ?_⟩
  · rcases (step.tasks ok).back ht' with ⟨t, ht, h₁⟩ | row
    · by_cases live : t.state.terminal = false
      · exact Or.inl ((same h₁ live).trans (h₁.id ▸ (h.honours.recorded t ht).live live))
      · have ended : t.state.terminal = true := by simpa using live
        have ended' : t'.state.terminal = true := h₁.change.ended (noOverwrite _) ended
        rcases h.honours.recorded t ht with eq | ⟨-, resolve⟩
        · cases h₁.declared with
          | same same => exact Or.inl (same.trans (h₁.id ▸ eq))
          | declare m => exact absurd (licensed _ m) quiet.no_declare
          | reopen m => exact Or.inr ⟨ended', h₁.id ▸ (licensed _ m).reopened.1⟩
        · exact Or.inr ⟨ended', h₁.id ▸ resolve⟩
    · rcases row.may with m | ⟨m, empty⟩
      · exact absurd (licensed _ m) quiet.no_declare
      · refine Or.inl (empty.trans (new _ ?_).symm)
        obtain ⟨-, none⟩ := (licensed _ m).reopened
        cases hget : σ.store.getTask t'.taskId with
        | none => rfl
        | some t₀ =>
            obtain ⟨ht₀, hid⟩ := ok₀.getTask.mp hget
            obtain ⟨t, ht, hid'⟩ := h.kept none t₀ ht₀
            exact absurd (hid'.trans hid) (Table.get_eq_none.mp row.id t ht)
  · rcases (step.tasks ok).back ht' with ⟨t, ht, h₁⟩ | row
    · refine ready ht h₁ (Or.inl started) fun _ orbit => ?_
      rw [orbit] at started
      cases started
    · simp [row.state, TaskState.startable] at started
  · rcases (step.tasks ok).back ht' with ⟨t, ht, h₁⟩ | row
    · exact ready ht h₁ (Or.inr orbit) fun before _ => h.entered t ht before (h₁.id ▸ fresh)
    · simp [row.state] at orbit
  · obtain ⟨t, ht, hid⟩ := h.kept none t₀ ht₀
    rcases (step.tasks ok).forth ht ok with ⟨t', ht', h₁⟩ | ⟨m, -⟩
    · exact ⟨t', ht', h₁.id.trans hid⟩
    · exact absurd (licensed _ m) (none t)

/-! ## One step -/

/-- What is on record before a step: a task without a row has nothing. -/
def Sys.known (σ : Sys) (deps : TaskId → List TaskId) (task : TaskId) : List TaskId :=
  if (σ.store.getTask task).isSome then deps task else []

theorem Store.Honours.known {deps : TaskId → List TaskId} (h : σ.store.Honours deps)
    (ok : σ.store.Ok) : σ.store.Honours (σ.known deps) := by
  refine ⟨fun t ht => ?_, h.merged⟩
  have row : σ.known deps t.taskId = deps t.taskId := by
    rw [Sys.known, ok.getTask.mpr ⟨ht, rfl⟩]
    rfl
  rw [Task.OnRecord, row]
  exact h.recorded t ht

/-- A quiet step. -/
theorem Stepped.honours {deps : TaskId → List TaskId} (h : Stepped cfg env σ a s')
    (quiet : σ.Quiet a) (ok : σ.store.Ok) (honours : σ.store.Honours deps) :
    Honouring cfg env σ a (σ.known deps) s' := by
  have new (task : TaskId) (none : σ.store.getTask task = none) : σ.known deps task = [] := by
    rw [Sys.known, none]
    rfl
  refine h.invariant (I := Honouring cfg env σ a (σ.known deps))
    (fun may E s₁ s₂ licensed ok₁ ih step => ih.micro quiet new licensed ok ok₁ step) ok ?_
  refine ⟨honours.known ok, fun t ht orbit fresh => ?_, fun _ t ht => ⟨t, ht, rfl⟩⟩
  rw [ok.getTask.mpr ⟨ht, rfl⟩] at fresh
  exact absurd (congrArg some orbit) fresh

/-- The table of tasks after one row was rewritten. -/
theorem Store.Honours.rewrite {deps deps' : TaskId → List TaskId} (h : s.Honours deps)
    (ok : s.Ok) {t t' : Task} (id : t'.taskId = t.taskId) (ht : t ∈ s.tasks)
    (rows : ∀ r, r ∈ s'.tasks ↔ r ∈ s.tasks ∧ r.taskId ≠ t.taskId ∨ r = t')
    (others : ∀ r ∈ s.tasks, r.taskId ≠ t.taskId → deps' r.taskId = deps r.taskId)
    (recorded : t'.OnRecord deps')
    (stays : t.state = .MERGED → t'.state = .MERGED ∨
      (∀ r ∈ s.tasks, r.state.startable = true → t.taskId ∉ r.deps) ∧ t.taskId ∉ t'.deps)
    (merged : t'.state.startable = true → ∀ d ∈ t'.deps, s.Merged d) : s'.Honours deps' := by
  have moves {d : TaskId} (merged : s.Merged d) : s'.Merged d ∨
      (∀ r ∈ s.tasks, r.state.startable = true → d ∉ r.deps) ∧ d ∉ t'.deps := by
    obtain ⟨r, hr, rfl, state⟩ := merged
    by_cases hid : r.taskId = t.taskId
    · cases ok.task_eq hr ht hid
      exact (stays state).imp_left fun state' => ⟨t', (rows t').mpr (Or.inr rfl), id, state'⟩
    · exact Or.inl ⟨r, (rows r).mpr (Or.inl ⟨hr, hid⟩), rfl, state⟩
  constructor
  · intro r hr
    rcases (rows r).mp hr with ⟨hr, hid⟩ | rfl
    · rw [Task.OnRecord, others r hr hid]
      exact h.recorded r hr
    · exact recorded
  · intro r hr startable d hd
    rcases (rows r).mp hr with ⟨hr, hid⟩ | rfl
    · exact (moves (h.merged r hr startable d hd)).resolve_right
        fun none => none.1 r hr startable hd
    · exact (moves (merged startable d hd)).resolve_right fun none => none.2 hd

/-- An accepted declaration. -/
theorem addTask_honours {deps deps' : TaskId → List TaskId} {new : Task}
    (h : s.Honours deps) (ok : s.Ok) (state : new.state = .PENDING)
    (others : ∀ r ∈ s.tasks, r.taskId ≠ new.taskId → deps' r.taskId = deps r.taskId)
    (recorded : s.getTask new.taskId = none → new.deps = deps' new.taskId)
    (rewritten : ∀ t, s.getTask new.taskId = some t →
      Task.OnRecord deps' { t with deps := new.deps } ∧
        (t.state.startable = true → ∀ d ∈ new.deps, s.Merged d)) :
    (s.addTask new).Honours deps' := by
  rw [Store.addTask]
  split
  · rename_i hnone
    have fresh (r : Task) (hr : r ∈ s.tasks) : r.taskId ≠ new.taskId :=
      Table.get_eq_none.mp hnone r hr
    constructor
    · intro r hr
      rcases List.mem_append.mp hr with hr | hr
      · rw [Task.OnRecord, others r hr (fresh r hr)]
        exact h.recorded r hr
      · rw [List.mem_singleton.mp hr]
        exact Or.inl (recorded hnone)
    · intro r hr startable d hd
      rcases List.mem_append.mp hr with hr | hr
      · obtain ⟨m, hm, key⟩ := h.merged r hr startable d hd
        exact ⟨m, List.mem_append_left _ hm, key⟩
      · rw [List.mem_singleton.mp hr, state] at startable
        cases startable
  · rename_i t hget
    obtain ⟨ht, hid⟩ := ok.getTask.mp hget
    obtain ⟨record, merged⟩ := rewritten t hget
    rw [← hid]
    refine h.rewrite ok ?_ ht (fun r => ok.mem_setTask ht _ r)
      (fun r hr hne => others r hr (hid ▸ hne)) ?_ ?_ ?_
    · rfl
    · exact record
    · exact fun state => Or.inl state
    · exact merged

/-- The rows keep their states, and a row that is new waits. -/
def SameStates (s s' : Store) : Prop :=
  ∀ t' ∈ s'.tasks, (∃ t ∈ s.tasks, t.taskId = t'.taskId ∧ t.state = t'.state) ∨ t'.state ≠ .IN_ORBIT

theorem SameStates.not_enters (h : SameStates s s') (ok : s.Ok) (ok' : s'.Ok) {task : TaskId} :
    ¬ Enters s s' task := by
  rintro ⟨after, before⟩
  obtain ⟨t', ht', state⟩ := Option.map_eq_some_iff.mp after
  obtain ⟨hmem, rfl⟩ := ok'.getTask.mp ht'
  rcases h t' hmem with ⟨t, ht, hid, same⟩ | other
  · rw [ok.getTask.mpr ⟨ht, hid⟩, Option.map_some, same, state] at before
    exact before rfl
  · exact other state

theorem sameStates_setTask {id : TaskId} {f : Task → Task}
    (hf : ∀ t, (f t).taskId = t.taskId ∧ ((f t).state = t.state ∨ (f t).state ≠ .IN_ORBIT)) :
    SameStates s (s.setTask id f) := by
  intro t' ht'
  rcases Table.mem_modify.mp ht' with ⟨ht, -⟩ | ⟨t, ht, -, rfl⟩
  · exact Or.inl ⟨t', ht, rfl, rfl⟩
  · exact (hf t).2.imp_left fun state => ⟨t, ht, (hf t).1.symm, state.symm⟩

theorem sameStates_addTask {new : Task} (state : new.state = .PENDING) :
    SameStates s (s.addTask new) := by
  rw [Store.addTask]
  split
  · intro t' ht'
    rcases List.mem_append.mp ht' with ht | ht
    · exact Or.inl ⟨t', ht, rfl, rfl⟩
    · rw [List.mem_singleton.mp ht, state]
      exact Or.inr (by simp)
  · exact sameStates_setTask fun t => ⟨rfl, Or.inl rfl⟩

theorem declare_sameStates {now : Time} (d : DeclareArgs) :
    SameStates s (declare now s d).1 := by
  rw [declare]
  split
  · exact fun t ht => Or.inl ⟨t, ht, rfl, rfl⟩
  · split
    · exact fun t ht => Or.inl ⟨t, ht, rfl, rfl⟩
    · exact sameStates_addTask rfl

theorem depend_sameStates (task after : TaskId) : SameStates s (depend s task after).1 := by
  rw [depend]
  split
  · exact fun t ht => Or.inl ⟨t, ht, rfl, rfl⟩
  split
  · exact fun t ht => Or.inl ⟨t, ht, rfl, rfl⟩
  split
  · exact fun t ht => Or.inl ⟨t, ht, rfl, rfl⟩
  · exact sameStates_setTask fun t => ⟨rfl, Or.inl rfl⟩

/-- The record after a declaration. -/
theorem Sys.record_declaration {deps : TaskId → List TaskId} {d : DeclareArgs}
    (h : σ.declaration a = some d) (task : TaskId) :
    σ.record (env, a) deps task =
      if d.taskId = task ∧ (declare env.now σ.store d).2.ok = some true then
        d.deps.getD (σ.known deps task)
      else σ.known deps task := by
  rw [Sys.record]
  dsimp only
  rw [h]
  rfl

theorem declare_honours {deps : TaskId → List TaskId} {d : DeclareArgs}
    (h : σ.store.Honours deps) (ok : σ.store.Ok) (decl : σ.declaration a = some d)
    (keeps : KeepsDeps σ (env, a)) :
    (declare env.now σ.store d).1.Honours (σ.record (env, a) deps) := by
  have known := h.known ok
  have record (task : TaskId) : σ.record (env, a) deps task =
      if d.taskId = task ∧ (declare env.now σ.store d).2.ok = some true then
        d.deps.getD (σ.known deps task)
      else σ.known deps task := Sys.record_declaration decl task
  by_cases accepted : (declare env.now σ.store d).2.ok = some true
  · have added : (declare env.now σ.store d).1 = σ.store.addTask
        { taskId := d.taskId, writes := d.writes, reads := d.reads, deps := d.deps.getD []
          shared := d.shared, state := .PENDING, priority := d.priority,
          createdAt := env.now } := by
      rw [declare] at accepted ⊢
      split at accepted
      · simp [Reply.refuse] at accepted
      · rename_i hover
        rw [if_neg hover]
        split at accepted
        · simp [Reply.refuse] at accepted
        · rename_i hcycle
          rw [if_neg hcycle]
    rw [added]
    refine addTask_honours known ok rfl (fun r _ hne => ?_) (fun hnone => ?_) (fun t hget => ?_)
    · rw [record, if_neg fun hand => hne hand.1.symm]
    · rw [record, if_pos ⟨rfl, accepted⟩, Sys.known, hnone]
      rfl
    · obtain ⟨unnamed, startable⟩ := keeps.declare d decl t hget
      obtain ⟨ht, hid⟩ := ok.getTask.mp hget
      refine ⟨?_, fun ready => ok.depsMerged.mp (startable ready)⟩
      rw [Task.OnRecord, hid, record, if_pos ⟨rfl, accepted⟩]
      cases hdeps : d.deps with
      | some deps => exact Or.inl rfl
      | none =>
          have recorded := known.recorded t ht
          rw [Task.OnRecord, unnamed hdeps, hid] at recorded
          exact recorded
  · have same : (declare env.now σ.store d).1 = σ.store := by
      rw [declare] at accepted ⊢
      split
      · rfl
      · rename_i hover
        rw [if_neg hover] at accepted
        split
        · rfl
        · rename_i hcycle
          rw [if_neg hcycle] at accepted
          exact absurd rfl accepted
    have record : σ.record (env, a) deps = σ.known deps :=
      funext fun task => by rw [record, if_neg fun hand => accepted hand.2]
    rw [same, record]
    exact known

theorem depend_honours {deps : TaskId → List TaskId} {task after : TaskId}
    (h : σ.store.Honours deps) (ok : σ.store.Ok)
    (keeps : KeepsDeps σ (env, .call (.depend task after))) :
    (depend σ.store task after).1.Honours (σ.record (env, .call (.depend task after)) deps) := by
  have known := h.known ok
  have record (t : TaskId) : σ.record (env, .call (.depend task after)) deps t =
      if task = t ∧ (depend σ.store task after).2.ok = some true ∧ after ∉ σ.known deps t then
        σ.known deps t ++ [after]
      else σ.known deps t := rfl
  have unchanged (refused : ∀ t, ¬ (task = t ∧ (depend σ.store task after).2.ok = some true ∧
      after ∉ σ.known deps t)) : σ.record (env, .call (.depend task after)) deps = σ.known deps :=
    funext fun t => (record t).trans (if_neg (refused t))
  have others (r : Task) (hne : r.taskId ≠ task) :
      σ.record (env, .call (.depend task after)) deps r.taskId = σ.known deps r.taskId :=
    (record _).trans (if_neg fun hand => hne hand.1.symm)
  cases hget : σ.store.getTask task with
  | none =>
      have refused : depend σ.store task after = (σ.store, .refuse "no such task") := by
        rw [Omd.depend, hget]
      rw [refused] at unchanged ⊢
      rw [unchanged fun t hand => by simp [Reply.refuse] at hand]
      exact known
  | some t =>
      obtain ⟨ht, hid⟩ := ok.getTask.mp hget
      have recorded := known.recorded t ht
      by_cases mem : after ∈ t.deps
      · have noop : depend σ.store task after = (σ.store, { ok := some true, noop := true }) := by
          rw [Omd.depend, hget]
          exact if_pos mem
        rw [noop]
        refine ⟨fun r hr => ?_, known.merged⟩
        by_cases hne : r.taskId = task
        · cases ok.task_eq hr ht (hne.trans hid.symm)
          refine recorded.imp_left fun eq => ?_
          rw [record, if_neg fun hand => hand.2.2 (eq ▸ mem)]
          exact eq
        · rw [Task.OnRecord, others r hne]
          exact known.recorded r hr
      · by_cases cycle : (wouldCycle σ.store task (t.deps ++ [after])).isSome = true
        · have refused : depend σ.store task after = (σ.store, .refuse "dep_cycle") := by
            rw [Omd.depend, hget]
            simp only [if_neg mem, if_pos cycle]
          rw [refused] at unchanged ⊢
          rw [unchanged fun t hand => by simp [Reply.refuse] at hand]
          exact known
        · have added : depend σ.store task after =
              (σ.store.setTask task fun r => { r with deps := t.deps ++ [after] },
                { ok := some true }) := by
            rw [Omd.depend, hget]
            simp only [if_neg mem, if_neg cycle]
          rw [added]
          subst hid
          refine known.rewrite ok ?_ ht (fun r => ok.mem_setTask ht _ r)
            (fun r _ hne => others r hne) ?_ ?_ ?_
          · rfl
          · rcases recorded with eq | ended
            · refine Or.inl ((record _).trans ?_).symm
              rw [if_pos ⟨rfl, by rw [added], eq ▸ mem⟩, ← eq]
            · exact Or.inr ended
          · exact fun state => Or.inl state
          · intro startable d hd
            rcases List.mem_append.mp hd with hd | hd
            · exact known.merged t ht startable d hd
            · exact ok.depsMerged.mp (keeps.depend _ _ rfl t hget startable) d hd

theorem beginReady_honours {deps : TaskId → List TaskId} {b : BeginArgs} {claims : List Acquired}
    {state : TaskState} {input : Input} (h : σ.store.Honours deps) (ok : σ.store.Ok)
    (keeps : KeepsDeps σ (env, a)) (cut : σ.Cut a (.begin b (.ready claims state)) input)
    (ready : beginReady σ.store b.taskId state = .ok s') :
    s'.Honours (σ.known deps) ∧ SameStates σ.store s' := by
  have known := h.known ok
  rw [beginReady, Outcome.bind_eq_ok] at ready
  obtain ⟨next, hnext, ready⟩ := ready
  obtain ⟨-, rfl⟩ := ready_cases hnext
  cases ready
  refine ⟨?_, sameStates_setTask fun t => ⟨rfl, Or.inr (by simp)⟩⟩
  cases hget : σ.store.getTask b.taskId with
  | none =>
      have same := setTask_of_none hget fun r => { r with state := .READY }
      refine ⟨fun t ht => known.recorded t (same ▸ ht), fun t ht startable d hd => ?_⟩
      obtain ⟨m, hm, key⟩ := known.merged t (same ▸ ht) startable d hd
      exact ⟨m, same ▸ hm, key⟩
  | some t =>
      obtain ⟨ht, hid⟩ := ok.getTask.mp hget
      obtain ⟨merged, unused, fresh⟩ := keeps.ready b claims state input cut t hget
      rw [← hid]
      refine known.rewrite ok ?_ ht (fun r => ok.mem_setTask ht _ r) (fun _ _ _ => rfl) ?_ ?_ ?_
      · rfl
      · rcases known.recorded t ht with eq | ⟨ended, of, resolve⟩
        · exact Or.inl eq
        · exact absurd resolve (fresh ended of)
      · exact fun state => Or.inr ⟨fun r hr startable => unused state r hr (Or.inl startable),
          unused state t ht (Or.inr rfl)⟩
      · exact fun _ => ok.depsMerged.mp merged

/-- A step that resumes a begin is its cut. -/
theorem step_begin {i : ℕ} {input : Input} {b : BeginArgs} {pc : BeginPc}
    (h : step cfg env σ (.resume i input) = .ok σ') (hp : σ.procs[i]? = some (.begin b pc)) :
    ∃ s₁ pc', beginStep cfg env σ.store b pc = .ok (s₁, pc') ∧
      σ' = σ.after i s₁ (.begin b pc') := by
  rw [step, hp] at h
  dsimp only at h
  rw [Outcome.bind_eq_ok] at h
  obtain ⟨⟨s₁, p⟩, h₁, h⟩ := h
  rw [procStep, Outcome.bind_eq_ok] at h₁
  obtain ⟨⟨s₂, pc'⟩, h₂, h₁⟩ := h₁
  cases h₁
  cases h
  exact ⟨_, _, h₂, rfl⟩

/-- What a step does that declares. -/
theorem step_declaration {d : DeclareArgs} (h : step cfg env σ a = .ok σ')
    (decl : σ.declaration a = some d) : σ'.store = (declare env.now σ.store d).1 := by
  unfold Sys.declaration at decl
  split at decl
  · cases decl
    rw [step, Outcome.bind_eq_ok] at h
    obtain ⟨r, hr, h⟩ := h
    cases hr
    cases h
    rfl
  · rename_i i input
    split at decl
    · rename_i b legacy hp
      cases decl
      obtain ⟨s₁, pc, hcut, rfl⟩ := step_begin h hp
      rw [beginStep] at hcut
      split at hcut <;> (cases hcut; rfl)
    · cases decl
  · cases decl

/-- A step keeps the record in the rows, and starts only what depends on merged tasks. -/
theorem step_honours {deps : TaskId → List TaskId} (ok : σ.Ok) (h : σ.store.Honours deps)
    (keeps : KeepsDeps σ (env, a)) (hstep : step cfg env σ a = .ok σ') :
    σ'.store.Honours (σ.record (env, a) deps) ∧ ∀ task, Enters σ.store σ'.store task →
      depsMerged σ'.store (σ.record (env, a) deps task) = true := by
  obtain ⟨stepped, ok'⟩ := step_spec ok hstep
  have quietly {deps' : TaskId → List TaskId} (honours : σ'.store.Honours deps')
      (same : SameStates σ.store σ'.store) : σ'.store.Honours deps' ∧
        ∀ task, Enters σ.store σ'.store task → depsMerged σ'.store (deps' task) = true :=
    ⟨honours, fun task enters => absurd enters (same.not_enters ok.store ok'.store)⟩
  cases decl : σ.declaration a with
  | some d =>
      have eq := step_declaration hstep decl
      rw [eq] at quietly ⊢
      exact quietly (declare_honours h ok.store decl keeps) (declare_sameStates d)
  | none =>
      by_cases depends : ∃ task after, a = .call (.depend task after)
      · obtain ⟨task, after, rfl⟩ := depends
        cases hstep
        exact quietly (depend_honours h ok.store keeps) (depend_sameStates task after)
      have record : σ.record (env, a) deps = σ.known deps := by
        funext task
        rw [Sys.record]
        dsimp only
        rw [decl]
        dsimp only
        split
        · exact absurd ⟨_, _, rfl⟩ depends
        · rfl
      rw [record]
      by_cases ready : ∃ b claims state input, σ.Cut a (.begin b (.ready claims state)) input
      · obtain ⟨b, claims, state, input, cut⟩ := ready
        obtain ⟨i, rfl, hp⟩ := id cut
        obtain ⟨s₁, pc, hcut, rfl⟩ := step_begin hstep hp
        rw [beginStep, Outcome.bind_eq_ok] at hcut
        obtain ⟨s₂, hready, hcut⟩ := hcut
        cases hcut
        obtain ⟨honours, same⟩ := beginReady_honours h ok.store keeps cut hready
        exact quietly honours same
      · have quiet : σ.Quiet a := ⟨decl, fun task after eq => depends ⟨task, after, eq⟩,
          fun b claims state input cut => ready ⟨b, claims, state, input, cut⟩⟩
        have left := stepped.honours quiet ok.store h
        refine ⟨left.honours, fun task enters => ?_⟩
        obtain ⟨after, before⟩ := enters
        obtain ⟨t, hget, orbit⟩ := Option.map_eq_some_iff.mp after
        obtain ⟨ht, rfl⟩ := ok'.store.getTask.mp hget
        rw [← (left.honours.recorded t ht).live (by rw [orbit]; rfl)]
        exact ok'.store.depsMerged.mpr (left.entered t ht orbit before)

/-! ## Runs -/

/-- In a run that keeps dependencies, every task that enters `IN_ORBIT` has all that is on
record for it merged. -/
theorem started_after_deps {L L' : Ledger} {l : Env × Action}
    (run : Transition.Run (Recorded cfg) (fun L l => KeepsDeps L.sys l) {} L)
    (keeps : KeepsDeps L.sys l) (recorded : Recorded cfg L l L') {task : TaskId}
    (enters : Enters L.sys.store L'.sys.store task) :
    depsMerged L'.sys.store (L'.deps task) = true := by
  have init : Sys.Ok {} ∧ ({} : Store).Honours fun _ => [] :=
    ⟨.empty, fun t ht => (by cases ht), fun t ht => (by cases ht)⟩
  have honours : L.sys.Ok ∧ L.sys.store.Honours L.deps := by
    refine run.invariant (I := fun L => L.sys.Ok ∧ L.sys.store.Honours L.deps)
      (fun L l L' ih keeps recorded => ?_) init
    obtain ⟨hstep, record⟩ := recorded
    exact ⟨(step_spec ih.1 hstep).2, record ▸ (step_honours ih.1 ih.2 keeps hstep).1⟩
  obtain ⟨hstep, record⟩ := recorded
  rw [record]
  exact (step_honours honours.1 honours.2 keeps hstep).2 task enters

/-- A check that a step keeps dependencies: it is of no begin, and what it declares or adds for a
task that may start is merged. -/
def keepsDeps (L : Ledger) (l : Env × Action) : Bool :=
  match l.2 with
  | .call (.declare d) => (L.sys.store.getTask d.taskId).all fun t =>
      d.deps ≠ none && (!t.state.startable || depsMerged L.sys.store (d.deps.getD []))
  | .call (.depend task after) => (L.sys.store.getTask task).all fun t =>
      !t.state.startable || depsMerged L.sys.store [after]
  | .resume i _ =>
      match L.sys.procs[i]? with
      | some (.begin ..) => false
      | _ => true
  | _ => true

theorem keepsDeps_sound {L : Ledger} {l : Env × Action} (h : keepsDeps L l = true) :
    KeepsDeps L.sys l := by
  obtain ⟨env, a⟩ := l
  refine ⟨fun d decl t found => ?_, fun task after call t found startable => ?_,
    fun b claims state input cut => ?_⟩
  · dsimp only at decl
    unfold Sys.declaration at decl
    split at decl
    · cases decl
      simp only [keepsDeps, found, Option.all_some, Bool.and_eq_true, decide_eq_true_eq,
        Bool.or_eq_true, Bool.not_eq_true'] at h
      refine ⟨fun none => absurd none h.1, fun startable => h.2.resolve_left ?_⟩
      rw [startable]
      exact Bool.noConfusion
    · split at decl
      · rename_i found
        simp [keepsDeps, found] at h
      · cases decl
    · cases decl
  · cases call
    simpa [keepsDeps, found, startable] using h
  · obtain ⟨i, rfl, found⟩ := cut
    simp [keepsDeps, found] at h

/-- The ledger after a list of actions that each pass a check before it. -/
def Ledger.execWhen (cfg : Cfg) (check : Ledger → Env × Action → Bool) :
    List (Env × Action) → Ledger → Except Fault Ledger
  | [], L => .ok L
  | l :: ls, L =>
      if check L l then do
        let σ ← step cfg l.1 L.sys l.2
        Ledger.execWhen cfg check ls ⟨σ, L.sys.record l L.deps⟩
      else .error .diverged

theorem Ledger.run_of_execWhen {P : Ledger → Env × Action → Prop}
    {check : Ledger → Env × Action → Bool} (sound : ∀ L l, check L l = true → P L l)
    {ls : List (Env × Action)} {L L' : Ledger} (h : L.execWhen cfg check ls = .ok L') :
    Transition.Run (Recorded cfg) P L L' := by
  induction ls generalizing L with
  | nil =>
      cases h
      exact .refl _
  | cons l ls ih =>
      rw [Ledger.execWhen] at h
      split at h
      · rename_i checked
        rw [Outcome.bind_eq_ok] at h
        obtain ⟨σ₁, hstep, h⟩ := h
        exact (Transition.Run.tail (.refl _) (sound L l checked) (.of_step hstep)).trans (ih h)
      · cases h

/-- A test that a list of actions, each of which meets the condition where it is taken, and one
more end in ledgers with a property. -/
theorem exists_recorded {P : Ledger → Env × Action → Prop} (ls : List (Env × Action))
    (l : Env × Action) (check : Ledger → Env × Action → Bool)
    (sound : ∀ L l, check L l = true → P L l)
    {p : Ledger → Ledger → Prop} [∀ L L', Decidable (p L L')]
    (h : (Ledger.execWhen cfg check ls {}).toOption.any fun L =>
      (step cfg l.1 L.sys l.2).toOption.any fun σ => p L ⟨σ, L.sys.record l L.deps⟩) :
    ∃ L L', Transition.Run (Recorded cfg) P {} L ∧ Recorded cfg L l L' ∧ p L L' := by
  cases hx : Ledger.execWhen cfg check ls {} with
  | error e => simp [hx, Except.toOption] at h
  | ok L =>
      simp only [hx, Except.toOption, Option.any_some] at h
      cases hl : step cfg l.1 L.sys l.2 with
      | error e => simp [hl] at h
      | ok σ =>
          simp only [hl, Option.any_some, decide_eq_true_eq] at h
          exact ⟨L, _, Ledger.run_of_execWhen sound hx, .of_step hl, h⟩

instance {task : TaskId} : Decidable (Enters s s' task) :=
  inferInstanceAs (Decidable (_ ∧ _))

/-- A task is merged, and one that depends on it is declared, made ready, and declared again. -/
def mergedDependency : List (Env × Action) :=
  [ (Action.call (.declare { taskId := "D", writes := ["d"], deps := some [] })).at 1,
    (Action.call .nextTask).at 1,
    (Action.call (.claim { agentId := "A", pathspec := ["d"], taskId := some "D" })).at 2,
    (Action.call (.start "D" "A" none none)).at 3,
    (Action.call (.finish "D" (some "A") (some 1) none none)).at 3,
    (Action.connect { taskId := "D", agentId := some "A", fence := some 1 }).at 4,
    (Action.resume 0 {}).at 4, (Action.resume 0 {}).at 4, (Action.resume 0 {}).at 4,
    (Action.resume 0 {}).at 4, (Action.resume 0 {}).at 4,
    (Action.call (.declare { taskId := "T", writes := ["a"], deps := some ["D"] })).at 5,
    (Action.call .nextTask).at 6,
    (Action.call (.declare { taskId := "T", writes := ["a"], deps := some ["D"] })).at 7 ]

/-- The task is started once its dependency is merged. -/
theorem mergedDependency_started : ∃ L L' : Ledger,
    Transition.Run (Recorded {}) (fun L l => KeepsDeps L.sys l) {} L ∧
    Enters L.sys.store L'.sys.store "T" ∧ L'.deps "T" = ["D"] ∧
      depsMerged L'.sys.store (L'.deps "T") = true := by
  have started : ∃ L L' : Ledger,
      Transition.Run (Recorded {}) (fun L l => KeepsDeps L.sys l) {} L ∧
        Recorded {} L ((Action.call (.start "T" "A" none none)).at 8) L' ∧
          Enters L.sys.store L'.sys.store "T" ∧ L'.deps "T" = ["D"] :=
    exists_recorded mergedDependency _ keepsDeps (fun _ _ => keepsDeps_sound) (by decide +kernel)
  obtain ⟨L, L', run, recorded, enters, known⟩ := started
  have last : KeepsDeps L.sys ((Action.call (.start "T" "A" none none)).at 8) :=
    keepsDeps_sound (L := L) rfl
  exact ⟨L, L', run, enters, known, started_after_deps run last recorded enters⟩

/-! ## A dependency that is not honoured -/

/-- A dependency that is added to a task that is `READY`. -/
def lateDependency : List (Env × Action) :=
  [ (Action.call (.declare { taskId := "T", writes := ["a"] })).at 1,
    (Action.call .nextTask).at 2,
    (Action.call (.declare { taskId := "U", writes := ["b"] })).at 3,
    (Action.call (.depend "T" "U")).at 4 ]

/-- A reachable `start` starts a task whose dependency is not merged. -/
theorem start_ignores_deps : ∃ L L' : Ledger,
    Transition.Run (Recorded {}) (fun _ _ => True) {} L ∧
      Recorded {} L ((Action.call (.start "T" "A" none none)).at 5) L' ∧
      Enters L.sys.store L'.sys.store "T" ∧ depsMerged L'.sys.store (L'.deps "T") = false :=
  exists_recorded lateDependency _ (fun _ _ => true) (fun _ _ _ => trivial) (by decide +kernel)

end Omd
