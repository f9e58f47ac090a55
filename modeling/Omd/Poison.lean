import Omd.DeadTasks
import Omd.Batches
import Omd.Retirement
import Mathlib.Order.Interval.Finset.Nat

/-!
# The poison bound

A task in progress whose agent dies is counted and handed out again, until it was lost once too
often; then it is poisoned for good.  A change counts only in the reclaim of its agent, who is
retired by it, and an action that reclaims starts nothing, so that one death counts once.  Nothing
but the write of `READY` of a begin could bring a poisoned task back, and a begin that is not
interrupted between its read and that write finds the task as it read it.
-/

namespace Omd

open Lib

variable {cfg : Cfg} {env : Env} {σ σ' : Sys} {a : Action} {c : Scope} {E : TaskId → Prop}
  {s s' : Store} {t t' : Task} {agent : AgentId}

/-! ## Rows that stay -/

/-- How many rows of the task were archived. -/
def Store.departures (s : Store) (id : TaskId) : ℕ :=
  s.tasksArchive.countP fun t => t.taskId = id

theorem Micro.departures (h : Micro c E s s') (id : TaskId) :
    s.departures id ≤ s'.departures id := by
  cases h with
  | archiveTasks p _ _ _ frame =>
      rw [Store.departures, Store.departures, frame.tasksArchive, List.countP_append]
      exact Nat.le_add_right _ _
  | frame frame | enroll _ _ _ _ frame | agent _ _ _ _ frame | orbit _ _ _ _ _ _ frame
  | insert _ _ _ _ _ _ _ _ frame | reject _ _ _ _ frame | summary _ _ _ frame | task _ _ _ frame
  | declare _ _ frame | publish _ _ _ frame | request _ frame | waiters _ frame
  | slots _ _ _ _ frame | flags _ frame | arm _ _ _ _ _ _ _ _ frame | trip _ _ _ frame
  | stamp _ frame | archiveOrbits _ _ _ frame =>
      exact Eq.ge (congrArg (List.countP _) frame.tasksArchive)

/-- A row that is not archived changes as rows change. -/
theorem Micro.stays (h : Micro c E s s') (ok : s.Ok) (ht : t ∈ s.tasks)
    (stays : s'.departures t.taskId = s.departures t.taskId) :
    ∃ t' ∈ s'.tasks, TaskStep c E s t t' := by
  have same (eq : s'.tasks = s.tasks) : ∃ t' ∈ s'.tasks, TaskStep c E s t t' :=
    ⟨t, eq ▸ ht, .refl t⟩
  cases h with
  | task id f step frame =>
      rw [frame.tasks]
      by_cases hid : t.taskId = id
      · exact ⟨f t, Table.mem_modify.mpr (Or.inr ⟨t, ht, hid, rfl⟩),
          step t (ok.getTask.mpr ⟨ht, hid⟩)⟩
      · exact ⟨t, Table.mem_modify.mpr (Or.inl ⟨ht, hid⟩), .refl t⟩
  | declare _ _ frame => exact ⟨t, frame.tasks ▸ List.mem_append_left _ ht, .refl t⟩
  | stamp now frame =>
      obtain ⟨t', ht', h⟩ := (stampTerminal_tasks s now).2 t ht
      exact ⟨t', frame.tasks ▸ ht', h.change c E s⟩
  | archiveTasks p _ _ _ frame =>
      rw [Store.departures, Store.departures, frame.tasksArchive, List.countP_append] at stays
      refine ⟨t, ?_, .refl t⟩
      rw [frame.tasks, List.mem_filter, Bool.not_eq_true']
      refine ⟨ht, ?_⟩
      by_contra moved
      have counted : 0 < (s.tasks.filter p).countP fun r => r.taskId = t.taskId :=
        List.countP_pos_iff.mpr ⟨t, List.mem_filter.mpr ⟨ht, by simpa using moved⟩, by simp⟩
      omega
  | frame frame | enroll _ _ _ _ frame | agent _ _ _ _ frame | orbit _ _ _ _ _ _ frame
  | insert _ _ _ _ _ _ _ _ frame | reject _ _ _ _ frame | summary _ _ _ frame
  | publish _ _ _ frame | request _ frame | waiters _ frame | slots _ _ _ _ frame | flags _ frame
  | arm _ _ _ _ _ _ _ _ frame | trip _ _ _ frame | archiveOrbits _ _ _ frame =>
      exact same frame.tasks

/-! ## The count of one row -/

/-- The states of a task that waits, or has ended without its merge. -/
def TaskState.aside : TaskState → Bool
  | .PENDING | .BLOCKED | .READY | .ABORTED | .POISONED => true
  | _ => false

/-- A row before and after changes that do not count. -/
structure Uncounted (c : Scope) (t t' : Task) : Prop where
  id : t'.taskId = t.taskId
  count : t'.reclaims = t.reclaims
  poisoned : t'.state = .POISONED ↔ t.state = .POISONED
  owner : t'.agentId = t.agentId ∨ c.may (.start t.taskId)
  aside : ¬ c.may (.start t.taskId) → t.state.aside = true → t'.state.aside = true

theorem Uncounted.refl (c : Scope) (t : Task) : Uncounted c t t :=
  ⟨rfl, rfl, Iff.rfl, Or.inl rfl, fun _ aside => aside⟩

theorem Uncounted.trans {t₁ : Task} (h : Uncounted c t t₁) (h' : Uncounted c t₁ t') :
    Uncounted c t t' where
  id := h'.id.trans h.id
  count := h'.count.trans h.count
  poisoned := h'.poisoned.trans h.poisoned
  owner := by
    rcases h.owner with owner | may
    · rw [← owner, ← h.id]
      exact h'.owner
    · exact Or.inr may
  aside := fun no aside => h'.aside (h.id ▸ no) (h.aside no aside)

/-- One change of a row counts in a reclaim only. -/
theorem TaskStep.uncounted (h : TaskStep c E s t t') (no : ¬ c.may (.overwrite t.taskId)) :
    Uncounted c t t' ∨ Requeued c t t' ∧ E t.taskId ∧
      ∃ agent, t.agentId = some agent ∧ c.reclaims agent := by
  have count (other : ¬ Requeued c t t') : t'.reclaims = t.reclaims :=
    h.count.resolve_right fun h => other h.1
  cases h.change with
  | keep state agent | sync state agent | refresh _ state agent =>
      refine Or.inl ⟨h.id, count fun requeued => ?_, by rw [state], Or.inl agent, fun _ => ?_⟩
      · have busy := requeued.busy
        rcases requeued.state with ⟨ended, -⟩ | ⟨ended, -⟩ <;>
          simp [← state, ended, TaskState.inProgress] at busy
      · rw [state]
        exact fun aside => aside
  | ready waiting _ state agent =>
      have waits : t.state = .PENDING ∨ t.state = .BLOCKED := by
        rcases waiting with pending | blocked | overwrite
        · exact Or.inl pending
        · exact Or.inr blocked
        · exact absurd overwrite no
      refine Or.inl ⟨h.id, count fun requeued => ?_, ?_, Or.inl agent, fun _ _ => ?_⟩
      · have busy := requeued.busy
        rcases waits with waits | waits <;> simp [waits, TaskState.inProgress] at busy
      · rcases waits with waits | waits <;> simp [waits, state]
      · rw [state]
        rfl
  | start may admitted state owner =>
      refine Or.inl ⟨h.id, count fun requeued => ?_, ?_, Or.inr may, fun no => absurd may no⟩
      · rcases requeued.state with ⟨ended, -⟩ | ⟨ended, -⟩ <;> cases ended.symm.trans state
      · rcases admitted with admitted | admitted <;> simp [admitted, state]
  | finish started state agent =>
      refine Or.inl ⟨h.id, count fun requeued => ?_, by simp [started, state], Or.inl agent,
        fun _ aside => ?_⟩
      · rcases requeued.state with ⟨ended, -⟩ | ⟨ended, -⟩ <;> cases ended.symm.trans state
      · rw [started] at aside
        cases aside
  | abort _ waiting state agent =>
      refine Or.inl ⟨h.id, count fun requeued => ?_, ?_, Or.inl agent, fun _ _ => ?_⟩
      · rcases requeued.state with ⟨ended, -⟩ | ⟨ended, -⟩ <;> cases ended.symm.trans state
      · cases hs : t.state <;> simp [hs, state, TaskState.admission] at waiting ⊢
      · rw [state]
        rfl
  | reclaim owner may exempt requeued => exact Or.inr ⟨requeued, exempt, _, owner, may⟩
  | attempt _ state agent =>
      refine Or.inl ⟨h.id, count fun requeued => ?_, ?_, Or.inl agent, fun _ aside => ?_⟩
      · rcases requeued.state with ⟨ended, -⟩ | ⟨ended, -⟩ <;> rw [ended] at state <;> simp at state
      · rcases state with ⟨before | before, after⟩ | ⟨before, after | after | after⟩ <;>
          simp [before, after]
      · rcases state with ⟨before | before, -⟩ | ⟨before, -⟩ <;>
          simp [before, TaskState.aside] at aside

/-! ## Runs of changes -/

theorem Micros.departures (h : Micros c E s s') (id : TaskId) :
    s.departures id ≤ s'.departures id := by
  induction h with
  | refl => exact le_rfl
  | tail _ step ih => exact ih.trans (step.departures id)

/-- A row before and after a run of changes. -/
def Store.RowTo (s s' : Store) (t : Task) (P : Task → Prop) : Prop :=
  s'.departures t.taskId = s.departures t.taskId → ∃ t' ∈ s'.tasks, P t'

/-- What every change of a row preserves, a run preserves, as long as the row is not archived. -/
theorem Micros.rowTo {P : Store → Task → Prop} (h : Micros c E s s') (ok : s.Ok) (ht : t ∈ s.tasks)
    (id : ∀ s t', P s t' → t'.taskId = t.taskId) (init : P s t)
    (step : ∀ s₁ s₂ t₁ t₂, s₁.Ok → t₁ ∈ s₁.tasks → P s₁ t₁ → Micro c E s₁ s₂ →
      TaskStep c E s₁ t₁ t₂ → P s₂ t₂) : s.RowTo s' t (P s') := by
  suffices s'.Ok ∧ s.RowTo s' t (P s') from this.2
  induction h with
  | refl => exact ⟨ok, fun _ => ⟨t, ht, init⟩⟩
  | @tail s₁ s₂ run change ih =>
      obtain ⟨ok₁, row⟩ := ih
      refine ⟨ok₁.micro change, fun same => ?_⟩
      have le₁ := Micros.departures run t.taskId
      have le₂ := change.departures t.taskId
      obtain ⟨t₁, ht₁, h₁⟩ := row (by omega)
      have key := id s₁ t₁ h₁
      obtain ⟨t₂, ht₂, h₂⟩ := change.stays ok₁ ht₁ (by rw [key]; omega)
      exact ⟨t₂, ht₂, step s₁ s₂ t₁ t₂ ok₁ ht₁ h₁ change h₂⟩

/-- A run that is not about the row, or reclaims nobody, does not count it. -/
theorem Micros.uncounted (h : Micros c E s s') (ok : s.Ok) (ht : t ∈ s.tasks)
    (no : ¬ c.may (.overwrite t.taskId)) (idle : ∀ agent, E t.taskId → ¬ c.reclaims agent) :
    s.RowTo s' t (Uncounted c t) := by
  refine h.rowTo (P := fun _ => Uncounted c t) ok ht (fun _ _ h => h.id) (.refl c t) ?_
  intro s₁ s₂ t₁ t₂ _ _ h₁ _ h₂
  rcases h₂.uncounted (h₁.id ▸ no) with h₂ | ⟨-, exempt, agent, -, reclaims⟩
  · exact h₁.trans h₂
  · exact absurd reclaims (idle agent (h₁.id ▸ exempt))

/-- A run that starts nothing sets aside what it counts. -/
theorem Micros.sets (h : Micros c E s s') (ok : s.Ok) (ht : t ∈ s.tasks)
    (no : ¬ c.may (.overwrite t.taskId)) (start : ¬ c.may (.start t.taskId)) :
    s.RowTo s' t fun t' => Uncounted c t t' ∨
      t'.taskId = t.taskId ∧ t.state.aside = false ∧ t'.state.aside = true := by
  refine h.rowTo (P := fun _ t' => Uncounted c t t' ∨
    t'.taskId = t.taskId ∧ t.state.aside = false ∧ t'.state.aside = true) ok ht
    (fun _ _ h => h.elim Uncounted.id And.left) (Or.inl (.refl c t)) ?_
  intro s₁ s₂ t₁ t₂ _ _ h₁ _ h₂
  have key : t₁.taskId = t.taskId := h₁.elim Uncounted.id And.left
  rcases h₂.uncounted (key ▸ no) with same | ⟨requeued, -⟩
  · rcases h₁ with h₁ | ⟨-, busy, aside⟩
    · exact Or.inl (h₁.trans same)
    · exact Or.inr ⟨same.id.trans key, busy, same.aside (key ▸ start) aside⟩
  · have out : t₁.state.aside = false := by
      have busy := requeued.busy
      cases hs : t₁.state <;> simp [hs, TaskState.inProgress, TaskState.aside] at busy ⊢
    have aside : t₂.state.aside = true := by
      rcases requeued.state with ⟨state, -⟩ | ⟨state, -⟩ <;> rw [state] <;> rfl
    rcases h₁ with h₁ | ⟨-, busy, aside₁⟩
    · refine Or.inr ⟨h₂.id.trans key, ?_, aside⟩
      by_contra before
      rw [h₁.aside start (by simpa using before)] at out
      cases out
    · rw [aside₁] at out
      cases out

/-! ## One move -/

/-- A row before and after a move that counts: its agent dies. -/
structure Lost (c : Scope) (s s' : Store) (t t' : Task) : Prop where
  id : t'.taskId = t.taskId
  requeued : Requeued c t t'
  death : ∃ agent, t.agentId = some agent ∧ c.reclaims agent ∧ s.Alive agent ∧ s'.Retired agent

theorem Uncounted.serving {sems : List String} (h : Uncounted (c.serving sems) t t') :
    Uncounted c t t' := ⟨h.id, h.count, h.poisoned, h.owner, h.aside⟩

/-- The group of a task that ends, out of those that are set aside. -/
theorem Micros.uncounted_of_ended (h : Micros c E s s') (ok : s.Ok) (ht : t ∈ s.tasks)
    (no : ¬ c.may (.overwrite t.taskId))
    (apart : ∀ agent, c.reclaims agent → ¬ c.may (.start t.taskId))
    (ended : ∀ t' ∈ s'.tasks, t'.taskId = t.taskId → t'.state.aside = false) :
    s.RowTo s' t (Uncounted c t) := by
  by_cases reclaims : ∃ agent, c.reclaims agent
  · obtain ⟨agent, reclaims⟩ := reclaims
    intro same
    obtain ⟨t', ht', h'⟩ := h.sets ok ht no (apart agent reclaims) same
    refine ⟨t', ht', h'.resolve_right ?_⟩
    rintro ⟨id, -, aside⟩
    rw [ended t' ht' id] at aside
    cases aside
  · exact h.uncounted ok ht no fun agent _ may => reclaims ⟨agent, may⟩

/-- What a move makes of a row that is not archived. -/
theorem Move.counts (h : Move c s s') (ok : s.Ok) (ht : t ∈ s.tasks)
    (no : ¬ c.may (.overwrite t.taskId))
    (apart : ∀ agent, c.reclaims agent → ¬ c.may (.start t.taskId)) :
    s.RowTo s' t fun t' => Uncounted c t t' ∨ Lost c s s' t t' := by
  -- a group that is about another task does not count this one
  have other {E : TaskId → Prop} (run : Micros c E s s') (free : ¬ E t.taskId) :
      s.RowTo s' t fun t' => Uncounted c t t' ∨ Lost c s s' t t' := by
    intro same
    obtain ⟨t', ht', h'⟩ := run.uncounted ok ht no (fun _ exempt => absurd exempt free) same
    exact ⟨t', ht', Or.inl h'⟩
  cases h with
  | micro h => exact other (.single h) id
  | takenOver r h =>
      by_cases hid : t.taskId = r.taskId
      · intro same
        obtain ⟨t', ht', h'⟩ := h.run.uncounted_of_ended ok ht no apart (fun r' hr' id => by
          rw [(h.bound r' hr' (id.trans hid)).1]
          rfl) same
        exact ⟨t', ht', Or.inl h'⟩
      · exact other h.run hid
  | closed r h =>
      by_cases hid : t.taskId = r.taskId
      · intro same
        obtain ⟨t', ht', h'⟩ := h.run.uncounted_of_ended ok ht no apart (fun r' hr' id => by
          rcases h.ended with ⟨-, ended⟩ | ⟨-, ended⟩ <;>
            rw [ended r' hr' (id.trans hid)] <;> rfl) same
        exact ⟨t', ht', Or.inl h'⟩
      · exact other h.run hid
  | handed sems h =>
      intro same
      obtain ⟨t', ht', h'⟩ := h.run.uncounted ok ht (by exact no) (fun _ exempt => exempt.elim) same
      exact ⟨t', ht', Or.inl h'.serving⟩
  | cancelled task h =>
      by_cases hid : t.taskId = task
      · have idle : t.state.aside = true := by
          rcases h.idle t ht hid with waiting | aborted
          · cases hs : t.state <;> simp [hs, TaskState.admission, TaskState.aside] at waiting ⊢
          · rw [aborted]
            rfl
        by_cases reclaims : ∃ agent, c.reclaims agent
        · obtain ⟨agent, reclaims⟩ := reclaims
          intro same
          obtain ⟨t', ht', h'⟩ := h.run.sets ok ht no (apart agent reclaims) same
          refine ⟨t', ht', Or.inl (h'.resolve_right ?_)⟩
          rintro ⟨-, out, -⟩
          rw [idle] at out
          cases out
        · intro same
          obtain ⟨t', ht', h'⟩ := h.run.uncounted ok ht no
            (fun agent _ may => reclaims ⟨agent, may⟩) same
          exact ⟨t', ht', Or.inl h'⟩
      · exact other h.run hid
  | reclaimed agent h =>
      obtain ⟨sems, run, -⟩ := h.run
      by_cases owned : s.ownedBy agent t.taskId
      · have owner : t.agentId = some agent := by
          obtain ⟨r, hr, id, owner⟩ := owned
          rw [ok.task_eq ht hr id.symm, owner]
        intro same
        obtain ⟨t', ht', id⟩ := run.rowTo (P := fun _ t' => t'.taskId = t.taskId) ok ht
          (fun _ _ h => h) rfl (fun _ _ _ _ _ _ h₁ _ h₂ => h₂.id.trans h₁) same
        refine ⟨t', ht', ?_⟩
        rcases h.tasks t' ht' with ⟨kept, -⟩ | ⟨r, hr, id', -, requeued⟩
        · rw [ok.task_eq kept ht id]
          exact Or.inl (.refl c t)
        · rw [ok.task_eq hr ht (id'.symm.trans id)] at requeued
          exact Or.inr ⟨id, requeued, agent, owner, h.may.elim Or.inr fun h => Or.inl h.1,
            h.alive, h.retired⟩
      · intro same
        obtain ⟨t', ht', h'⟩ := run.uncounted ok ht (by exact no)
          (fun _ exempt => absurd exempt owned) same
        exact ⟨t', ht', Or.inl h'.serving⟩

/-! ## One step -/

/-- The scope of all that an action may do. -/
def Scope.whole (cfg : Cfg) (env : Env) (σ : Sys) (a : Action) : Scope :=
  ⟨cfg, env.now, Licence cfg env σ a⟩

/-- The licences of one scope are licences of the other. -/
structure Scope.Under (c c' : Scope) : Prop where
  cfg : c'.cfg = c.cfg
  may : ∀ d, c.may d → c'.may d

theorem Uncounted.under {c' : Scope} (h : Uncounted c t t') (under : c.Under c') :
    Uncounted c' t t' where
  id := h.id
  count := h.count
  poisoned := h.poisoned
  owner := h.owner.imp_right (under.may _)
  aside := fun no => h.aside fun may => no (under.may _ may)

theorem Lost.under {c' : Scope} (h : Lost c s s' t t') (under : c.Under c') :
    Lost c' s s' t t' where
  id := h.id
  requeued := by
    obtain ⟨busy, state, count, freed⟩ := h.requeued
    exact ⟨busy, under.cfg ▸ state, count, freed⟩
  death := by
    obtain ⟨agent, owner, reclaims, alive, retired⟩ := h.death
    exact ⟨agent, owner, reclaims.imp (under.may _) (under.may _), alive, retired⟩

/-- A row after changes one of which counted: its agent died, and it was handed out again or
poisoned. -/
structure Killed (cfg : Cfg) (s s' : Store) (t t' : Task) : Prop where
  id : t'.taskId = t.taskId
  before : t.state ≠ .POISONED
  count : t'.reclaims = t.reclaims + 1
  freed : t'.agentId = none
  poisoned : t'.state = .POISONED ↔ cfg.maxReclaims < t'.reclaims
  death : ∃ agent, t.agentId = some agent ∧ ¬ s.Retired agent ∧ s'.Retired agent

/-- What holds of a row amid a step. -/
structure Spent (cfg : Cfg) (env : Env) (σ : Sys) (a : Action) (t : Task) (s : Store) : Prop where
  ok : s.Ok
  retired : ∀ agent, σ.store.Retired agent → s.Retired agent
  departures : σ.store.departures t.taskId ≤ s.departures t.taskId
  row : σ.store.RowTo s t fun t' => Uncounted (.whole cfg env σ a) t t' ∨
    Killed cfg σ.store s t t' ∧ ∃ agent, (Scope.whole cfg env σ a).reclaims agent

/-- An action that may reclaim starts nothing. -/
theorem Scope.whole_apart (cfg : Cfg) (env : Env) (σ : Sys) (a : Action) (agent : AgentId)
    (h : (Scope.whole cfg env σ a).reclaims agent) (task : TaskId) :
    ¬ (Scope.whole cfg env σ a).may (.start task) := (Licence.reclaims h).no_start

theorem Spent.next (h : Spent cfg env σ a t s) (ok : s'.Ok)
    (retired : ∀ agent, s.Retired agent → s'.Retired agent)
    (departures : s.departures t.taskId ≤ s'.departures t.taskId)
    (row : ∀ t₁ ∈ s.tasks, t₁.taskId = t.taskId → s.RowTo s' t₁ fun t₂ =>
      Uncounted (.whole cfg env σ a) t₁ t₂ ∨ Lost (.whole cfg env σ a) s s' t₁ t₂) :
    Spent cfg env σ a t s' where
  ok := ok
  retired := fun agent dead => retired agent (h.retired agent dead)
  departures := h.departures.trans departures
  row := by
    intro same
    have le := h.departures
    obtain ⟨t₁, ht₁, h₁⟩ := h.row (by omega)
    have key : t₁.taskId = t.taskId := h₁.elim Uncounted.id fun h => h.1.id
    obtain ⟨t₂, ht₂, h₂⟩ := row t₁ ht₁ key (by rw [key]; omega)
    refine ⟨t₂, ht₂, ?_⟩
    rcases h₁ with h₁ | ⟨killed, agent, reclaims⟩
    · rcases h₂ with h₂ | lost
      · exact Or.inl (h₁.trans h₂)
      · obtain ⟨agent, owner, reclaims, alive, dead⟩ := lost.death
        have started := Scope.whole_apart cfg env σ a agent reclaims t.taskId
        have owner₁ := h₁.owner.resolve_right started
        obtain ⟨busy, state, count, freed⟩ := lost.requeued
        change _ ∧ _ ≤ cfg.maxReclaims ∨ _ ∧ cfg.maxReclaims < _ at state
        refine Or.inr ⟨⟨lost.id.trans key, ?_, ?_, freed, ?_, agent, owner₁ ▸ owner, ?_, dead⟩,
          agent, reclaims⟩
        · intro poisoned
          rw [h₁.poisoned.mpr poisoned] at busy
          cases busy
        · rw [count, h₁.count]
        · rw [count]
          rcases state with ⟨state, le⟩ | ⟨state, lt⟩
          · rw [state]
            exact iff_of_false (by decide) (by omega)
          · exact iff_of_true state lt
        · exact fun before => (h.retired agent before).not_alive alive
    · have started := Scope.whole_apart cfg env σ a agent reclaims t.taskId
      rcases h₂ with h₂ | lost
      · obtain ⟨id, before, count, freed, poisoned, dying, owner, alive, dead⟩ := killed
        refine Or.inr ⟨⟨h₂.id.trans id, before, h₂.count.trans count, ?_, ?_, dying, owner, alive,
          retired dying dead⟩, agent, reclaims⟩
        · rw [h₂.owner.resolve_right (id ▸ started), freed]
        · rw [h₂.poisoned, h₂.count, poisoned]
      · obtain ⟨_, owner, -⟩ := lost.death
        rw [killed.freed] at owner
        cases owner

theorem Store.Retired.move (retired : s.Retired agent) (ok : s.Ok) (h : Move c s s') :
    s'.Retired agent := by
  obtain ⟨_, _, -, run⟩ := h.micros
  exact retired.micros ok run

theorem Move.departures (h : Move c s s') (id : TaskId) : s.departures id ≤ s'.departures id := by
  obtain ⟨_, _, -, run⟩ := h.micros
  exact Micros.departures run id

/-- A run of moves spends nothing but the deaths of agents. -/
theorem Spent.moves {may : Deed → Prop} (h : Spent cfg env σ a t s)
    (licensed : ∀ d, may d → Licence cfg env σ a d)
    (no : ¬ Licence cfg env σ a (.overwrite t.taskId)) (run : Moves ⟨cfg, env.now, may⟩ s s') :
    Spent cfg env σ a t s' := by
  have under : Scope.Under ⟨cfg, env.now, may⟩ (.whole cfg env σ a) := ⟨rfl, licensed⟩
  refine (Moves.invariant (I := Spent cfg env σ a t) (fun s₁ s₂ ok₁ ih move => ?_) run h.ok h).2
  refine ih.next (ok₁.move move) (fun agent dead => dead.move ok₁ move)
    (move.departures t.taskId) fun t₁ ht₁ key same => ?_
  obtain ⟨t₂, ht₂, h₂⟩ := move.counts ok₁ ht₁ (fun may => no (key ▸ licensed _ may))
    (fun agent reclaims may => Scope.whole_apart cfg env σ a agent
      (reclaims.imp (licensed _) (licensed _)) _ (licensed _ may)) same
  exact ⟨t₂, ht₂, h₂.imp (Uncounted.under · under) (Lost.under · under)⟩

/-- What a step makes of a row that it does not archive. -/
theorem Stepped.spent (h : Stepped cfg env σ a s') (ok : σ.store.Ok) (ht : t ∈ σ.store.tasks)
    (no : ¬ Licence cfg env σ a (.overwrite t.taskId)) : Spent cfg env σ a t s' := by
  have init : Spent cfg env σ a t σ.store :=
    ⟨ok, fun _ dead => dead, le_rfl, fun _ => ⟨t, ht, Or.inl (.refl _ t)⟩⟩
  cases h with
  | phases h =>
      obtain ⟨s₁, first, second⟩ := h
      exact (init.moves (fun _ => And.left) no first).moves (fun _ => And.left) no second
  | @opens r i s₁ h =>
      have mid := init.moves (fun _ => And.left) no h.before
      have run := h.opened.opened.run
      refine mid.next (mid.ok.micros run) (fun agent dead => dead.micros mid.ok run)
        (Micros.departures run _) fun t₁ ht₁ key same => ?_
      have under : Scope.Under (σ.scope cfg env a) (.whole cfg env σ a) := ⟨rfl, fun _ => And.left⟩
      have no₁ : ¬ (σ.scope cfg env a).may (.overwrite t₁.taskId) := fun may => no (key ▸ may.1)
      have row : s₁.RowTo s' t₁ (Uncounted (σ.scope cfg env a) t₁) := by
        by_cases hid : t₁.taskId = r.taskId
        · refine run.uncounted_of_ended mid.ok ht₁ no₁ (fun agent reclaims may => ?_)
            fun r' hr' id =>
            ?_
          · exact Scope.whole_apart cfg env σ a agent (reclaims.imp (under.may _) (under.may _)) _
              (under.may _ may)
          · rw [(h.opened.opened.bound r' hr' (id.trans hid)).1]
            rfl
        · exact run.uncounted mid.ok ht₁ no₁ fun _ exempt => absurd exempt hid
      obtain ⟨t₂, ht₂, h₂⟩ := row same
      exact ⟨t₂, ht₂, Or.inl (h₂.under under)⟩

/-! ## Refusals -/

/-- What the verbs answer about a task that is poisoned. -/
structure Store.Refuses (cfg : Cfg) (env : Env) (s : Store) (id : TaskId) : Prop where
  nextTask : ∀ s' r, nextTask cfg env.now s = .ok (s', r) → id ∉ r.tasks
  claim : ∀ (c : ClaimArgs) observed s' r, c.taskId = some id →
    claim cfg env.now s c observed = .ok (s', r) → s' = s ∧ r.state = some .REJECTED
  begin : ∀ (b : BeginArgs) pc s' r, b.taskId = id → (∀ reply, pc ≠ .ended reply) →
    beginStep cfg env s b pc = .ok (s', .ended r) → r.ok = some false
  start : ∀ agent request epoch s' r, start env s id agent request epoch = .ok (s', r) →
    r.ok = some false ∨ r.replayed = true
  reserve : ∀ (c : ConnectArgs) s' r, c.taskId = id → connectReserve env.now s c = .ok (s', r) →
    r.deferred = true ∨ r.reply.ok = some false ∨ r.reply.replayed = true
  connect : ∀ (c : ConnectArgs) s' p, c.taskId = id →
    connectPhaseA cfg env s c.taskId c.agentId c.fence c.bailEpoch c.bound = .ok (s', p) →
      p.intent = none ∧ p.reply.ok = some false

/-- Every row of the task is poisoned. -/
def Store.Poisons (s : Store) (id : TaskId) : Prop :=
  ∀ t ∈ s.tasks, t.taskId = id → t.state = .POISONED

theorem Micro.poisons {id : TaskId} (h : Micro c E s s') (ok : s.Ok) (poisons : s.Poisons id)
    (no : ¬ c.may (.overwrite id)) (declare : ∀ deps reads, ¬ c.may (.declare id deps reads))
    (reopen : ¬ c.may (.reopen id)) : s'.Poisons id := by
  intro t' ht' key
  rcases (h.tasks ok).back ht' with ⟨t, ht, h₁⟩ | row
  · have key₀ : t.taskId = id := h₁.id.symm.trans key
    have state := poisons t ht key₀
    rcases h₁.uncounted (key₀ ▸ no) with same | ⟨requeued, -⟩
    · exact same.poisoned.mpr state
    · have busy := requeued.busy
      rw [state] at busy
      cases busy
  · rcases row.may with may | ⟨may, -⟩
    · exact absurd (key ▸ may) (declare _ _)
    · exact absurd (key ▸ may) reopen

/-- A sweep brings no task back. -/
theorem sweepInline_poisons {now : Time} {id : TaskId} (ok : s.Ok) (poisons : s.Poisons id)
    (h : sweepInline cfg now s = .ok s') : s'.Poisons id := by
  have run : Takes ⟨cfg, now, fun d => d = .agents ∨ d = .lapse ∨ (∃ t, d = .archive t) ∨
      ∃ a, d = .zombie a⟩ s s' :=
    sweepInline_takes (Or.inl rfl) ⟨Or.inr (Or.inl rfl), fun t => Or.inr (Or.inr (Or.inl ⟨t, rfl⟩))⟩
      (fun a _ => Or.inr (Or.inr (Or.inr ⟨a, rfl⟩))) h
  refine (Moves.invariant (I := fun s => s.Poisons id) (fun s₁ s₂ ok₁ ih move => ?_) (run ok) ok
    poisons).2
  refine move.invariant (I := fun s => s.Poisons id) (fun c' E s₃ s₄ within ok₃ ih change => ?_) ok₁
    ih
  refine change.poisons ok₃ ih (within.forbids ?_ (by simp))
    (fun deps reads => within.forbids ?_ (by simp)) (within.forbids ?_ (by simp)) <;> simp

/-- A hit is refused, or replayed. -/
theorem enterIdem_hits {id : RequestId} {agent : Option AgentId} {args : IdemArgs} {r : Reply}
    (h : enterIdem s id agent args = .ok (.inl r)) : r.ok = some false ∨ r.replayed = true := by
  rw [enterIdem] at h
  split at h
  · cases h
    exact Or.inl rfl
  split at h
  · cases h
  split at h
  · cases h
    exact Or.inl rfl
  split at h
  · cases h
    exact Or.inr rfl
  · split at h <;> cases h
  · cases h
    exact Or.inl rfl

section Refusals

variable {id : TaskId}

theorem start_poisoned {request : Option RequestId} {epoch : Option ℕ} {r : Reply} (ok : s.Ok)
    (row : s.getTask id = some t) (poisoned : t.state = .POISONED)
    (h : start env s id agent request epoch = .ok (s', r)) :
    r.ok = some false ∨ r.replayed = true := by
  rw [start, Outcome.bind_eq_ok] at h
  obtain ⟨⟨s₁, result⟩, h₁, h⟩ := h
  cases h
  rcases withIdem_cases ok h₁ with ⟨_, -, hit, -⟩ | ⟨s₂, s₃, apart, -, body, -⟩
  · exact enterIdem_hits hit
  · rw [startBody] at body
    split at body
    · rename_i dead hdead
      cases body
      exact Or.inl (ok_of_dead hdead)
    · have row₂ : s₂.getTask id = some t := by
        rw [Store.getTask, apart.tasks]
        exact row
      rw [row₂] at body
      dsimp only at body
      rw [if_neg (by rw [poisoned]; simp [TaskState.started]), poisoned] at body
      cases body

theorem claim_poisoned {now : Time} {a : ClaimArgs} {observed : Option Time} {r : Reply}
    (row : s.getTask id = some t) (poisoned : t.state = .POISONED) (task : a.taskId = some id)
    (h : claim cfg now s a observed = .ok (s', r)) : s' = s ∧ r.state = some .REJECTED :=
  claim_ineligible row (by rw [poisoned]; rfl) task h

theorem nextTask_poisoned {now : Time} {r : Reply} (ok : s.Ok) (poisons : s.Poisons id)
    (h : nextTask cfg now s = .ok (s', r)) : id ∉ r.tasks := by
  rw [nextTask, Outcome.bind_eq_ok] at h
  obtain ⟨s₁, swept, h⟩ := h
  have poisons₁ := sweepInline_poisons ok poisons swept
  have picked {t : Task} (pick : nextTaskPick s₁ = some t) : t.taskId ≠ id := by
    intro key
    have mem := List.mem_of_find?_eq_some pick
    rw [Store.tasksByState, List.mem_insertionSort, List.mem_filter] at mem
    rw [poisons₁ t mem.1 key] at mem
    simp at mem
  split at h
  · cases h
    simp
  rename_i t pick
  split at h
  · cases h
    simpa using (picked pick).symm
  · rw [Outcome.bind_eq_ok] at h
    obtain ⟨state, -, h⟩ := h
    cases h
    simpa using (picked pick).symm

theorem openAttempt_poisoned {owner : AgentId} {candidate : Candidate}
    {request : Option BoundRequest} {busy : String} {p : PhaseA} (poisoned : t.state = .POISONED)
    (h : openAttempt env s t owner candidate request busy = .ok (s', p)) :
    p.intent = none ∧ p.reply.ok = some false := by
  rw [openAttempt] at h
  dsimp only at h
  split at h
  · cases h
    exact ⟨rfl, rfl⟩
  · rw [poisoned, Outcome.bind_eq_ok] at h
    obtain ⟨state, hstate, h⟩ := h
    cases hstate
    dsimp only at h
    rw [Outcome.bind_eq_ok] at h
    obtain ⟨s₁, -, h⟩ := h
    cases h
    exact ⟨rfl, rfl⟩

theorem connectGates_refuses {git : Option GitView} {agent : Option AgentId} {fence : Option ℕ}
    {r : Reply} (h : connectGates git s t agent fence = .inl r) : r.ok = some false := by
  rw [connectGates] at h
  dsimp only at h
  split at h
  · cases h
    rfl
  split at h
  · cases h
    rfl
  split at h
  · cases h
    rfl
  split at h
  · cases h
    rfl
  · cases h

theorem connectPhaseA_poisoned {agent : Option AgentId} {fence epoch : Option ℕ}
    {request : Option BoundRequest} {p : PhaseA} (ok : s.Ok) (poisons : s.Poisons id)
    (h : connectPhaseA cfg env s id agent fence epoch request = .ok (s', p)) :
    p.intent = none ∧ p.reply.ok = some false := by
  rw [connectPhaseA, Outcome.bind_eq_ok] at h
  obtain ⟨s₁, swept, h⟩ := h
  have poisons₁ := sweepInline_poisons ok poisons swept
  rw [connectSwept] at h
  split at h
  · rename_i dead hdead
    cases h
    exact ⟨rfl, ok_of_dead hdead⟩
  split at h
  · cases h
    exact ⟨rfl, rfl⟩
  rename_i t row
  have poisoned := poisons₁ t (Table.mem_of_get row) (Table.key_of_get row)
  split at h
  · rename_i reply gate
    rw [connectTaskGate, poisoned] at gate
    cases gate
  split at h
  · rename_i reply gates
    cases h
    exact ⟨rfl, connectGates_refuses gates⟩
  · exact openAttempt_poisoned poisoned h

theorem beginStep_poisoned {b : BeginArgs} {pc : BeginPc} {r : Reply}
    (row : s.getTask b.taskId = some t) (poisoned : t.state = .POISONED)
    (running : ∀ reply, pc ≠ .ended reply) (h : beginStep cfg env s b pc = .ok (s', .ended r)) :
    r.ok = some false := by
  unfold beginStep at h
  split at h
  · dsimp only at h
    split at h
    · rename_i refused
      cases h
      exact refused
    · cases h
  · split at h
    · cases h
      rfl
    · rw [BeginArgs.afterDeps] at h
      split at h <;> cases h
  · cases h
  · dsimp only at h
    split at h
    · rename_i refused
      cases h
      exact refused
    · cases h
  · rw [Outcome.bind_eq_ok] at h
    obtain ⟨⟨s₁, left⟩, h₁, h⟩ := h
    cases left with
    | inl reply =>
        cases h
        exact beginBatch_refuses h₁
    | inr claims => cases h
  · split at h
    · cases h
    · split at h <;> cases h
  · rw [Outcome.bind_eq_ok] at h
    obtain ⟨_, _, h⟩ := h
    cases h
  · rw [Outcome.bind_eq_ok] at h
    obtain ⟨⟨s₁, r₁⟩, h₁, h⟩ := h
    dsimp only at h
    split at h
    · rename_i refused
      cases h
      exact refused
    · cases h
  · cases h
    simp [beginReply, row, poisoned]
  · exact absurd rfl (running _)

/-- What is poisoned is refused. -/
theorem refuses_of_poisoned (cfg : Cfg) (env : Env) (ok : s.Ok) (row : s.getTask id = some t)
    (poisoned : t.state = .POISONED) : s.Refuses cfg env id := by
  have poisons : s.Poisons id := fun r hr key => by
    obtain ⟨ht, key'⟩ := ok.getTask.mp row
    rw [ok.task_eq hr ht (key.trans key'.symm), poisoned]
  refine ⟨fun s' r h => nextTask_poisoned ok poisons h, fun c _ s' r task h =>
    claim_poisoned row poisoned task h, fun b pc s' r task running h => ?_, fun _ _ _ s' r h =>
    start_poisoned ok row poisoned h, fun c s' r task h => ?_, fun c s' p task h => ?_⟩
  · exact beginStep_poisoned (task ▸ row) poisoned running h
  · rcases withIdem_cases ok h with ⟨_, -, hit, -⟩ | ⟨s₂, s₃, apart, -, body, -⟩
    · exact Or.inr (enterIdem_hits hit)
    · have row₂ : s₂.getTask c.taskId = some t := by
        rw [Store.getTask, apart.tasks, task]
        exact row
      rw [row₂] at body
      dsimp only at body
      rw [if_neg (by rw [poisoned]; decide)] at body
      cases body
      exact Or.inl rfl
  · exact connectPhaseA_poisoned ok (task ▸ poisons) h

end Refusals

/-! ## Begins that are not interrupted -/

/-- A begin that has read its task goes on at once, or crashes, as in every run that interleaves
no verbs. -/
def Uninterrupted (σ : Sys) (l : Env × Action) : Prop :=
  ∀ (i : ℕ) b claims state, σ.procs[i]? = some (.begin b (.ready claims state)) →
    l.2 = .crash i ∨ ∃ input, l.2 = .resume i input

/-- A begin that has read its task finds it as it read it. -/
def Sys.Reads (σ : Sys) : Prop :=
  ∀ (i : ℕ) b claims state, σ.procs[i]? = some (.begin b (.ready claims state)) →
    ∃ t, σ.store.getTask b.taskId = some t ∧ (t.state = .PENDING ∨ t.state = .BLOCKED)

theorem beginStep_reads {b : BeginArgs} {pc : BeginPc} {claims : List Acquired} {state : TaskState}
    (h : beginStep cfg env s b pc = .ok (s', .ready claims state)) :
    ∃ t, s'.getTask b.taskId = some t ∧ (t.state = .PENDING ∨ t.state = .BLOCKED) := by
  unfold beginStep at h
  split at h
  · dsimp only at h
    split at h <;> cases h
  · split at h
    · cases h
    · rw [BeginArgs.afterDeps] at h
      split at h <;> cases h
  · cases h
  · dsimp only at h
    split at h <;> cases h
  · rw [Outcome.bind_eq_ok] at h
    obtain ⟨⟨s₁, left⟩, -, h⟩ := h
    cases left <;> cases h
  · split at h
    · cases h
    · rename_i t row
      split at h
      · rename_i waits
        cases h
        exact ⟨t, row, waits⟩
      · cases h
  · rw [Outcome.bind_eq_ok] at h
    obtain ⟨_, -, h⟩ := h
    cases h
  · rw [Outcome.bind_eq_ok] at h
    obtain ⟨⟨s₁, r₁⟩, -, h⟩ := h
    dsimp only at h
    split at h <;> cases h
  · cases h
  · cases h

theorem procStep_reads {input : Input} {p : Proc} {b : BeginArgs} {claims : List Acquired}
    {state : TaskState}
    (h : procStep cfg env input s p = .ok (s', .begin b (.ready claims state))) :
    ∃ t, s'.getTask b.taskId = some t ∧ (t.state = .PENDING ∨ t.state = .BLOCKED) := by
  cases p with
  | begin args pc =>
      rw [procStep, Outcome.bind_eq_ok] at h
      obtain ⟨⟨s₁, pc'⟩, h₁, h⟩ := h
      cases h
      exact beginStep_reads h₁
  | connect args pc | arrive args pc | bail agent id pc =>
      rw [procStep, Outcome.bind_eq_ok] at h
      obtain ⟨_, -, h⟩ := h
      cases h
  | crashed => cases h

theorem step_reads (reads : σ.Reads) (calm : Uninterrupted σ (env, a))
    (h : step cfg env σ a = .ok σ') : σ'.Reads := by
  -- a call that is as it was goes on
  have gone {i : ℕ} {b : BeginArgs} {claims : List Acquired} {state : TaskState}
      (old : σ.procs[i]? = some (.begin b (.ready claims state))) (crash : a ≠ .crash i)
      (resume : ∀ input, a ≠ .resume i input) : False := by
    rcases calm i b claims state old with ha | ⟨input, ha⟩
    · exact crash ha
    · exact resume input ha
  have spawned {p : Proc} {τ : Sys} (hτ : τ.procs = σ.procs ∨ τ.procs = σ.procs ++ [p])
      (new : ∀ b claims state, p ≠ .begin b (.ready claims state)) (crash : ∀ i, a ≠ .crash i)
      (resume : ∀ i input, a ≠ .resume i input) : τ.Reads := by
    intro i b claims state found
    rcases hτ with same | more
    · exact (gone (same ▸ found) (crash i) (resume i)).elim
    · rw [more, List.getElem?_append] at found
      split at found
      · exact (gone found (crash i) (resume i)).elim
      · have last := List.mem_singleton.mp (List.mem_of_getElem? found)
        exact absurd last.symm (new b claims state)
  have effect (p : Proc) : (σ.spawn p).procs = σ.procs ∨ (σ.spawn p).procs = σ.procs ++ [p] := by
    rw [Sys.spawn]
    split
    · exact Or.inl rfl
    · exact Or.inr rfl
  cases a with
  | call v =>
      rw [step, Outcome.bind_eq_ok] at h
      obtain ⟨_, -, h⟩ := h
      cases h
      exact spawned (p := .crashed) (Or.inl rfl) (by simp) (by simp) (by simp)
  | begin args =>
      rw [step] at h
      split at h
      · cases h
        exact reads
      · rename_i legacy _
        cases h
        exact spawned (p := .begin args (.declare legacy)) (Or.inr rfl)
          (by simp) (by simp) (by simp)
  | connect args =>
      rw [step] at h
      split at h
      · cases h
        exact reads
      · cases h
        exact spawned (effect _) (by simp) (by simp) (by simp)
  | arrive args =>
      cases h
      exact spawned (effect _) (by simp) (by simp) (by simp)
  | bail agent id =>
      cases h
      exact spawned (effect _) (by simp) (by simp) (by simp)
  | recover =>
      rw [step] at h
      split at h
      · cases h
        exact reads
      · rw [Outcome.bind_eq_ok] at h
        obtain ⟨_, -, h⟩ := h
        cases h
        exact spawned (p := .crashed) (Or.inl rfl) (by simp) (by simp) (by simp)
  | resume j input =>
      rw [step] at h
      split at h
      · cases h
        exact reads
      · rw [Outcome.bind_eq_ok] at h
        obtain ⟨⟨s₁, p'⟩, h₁, h⟩ := h
        cases h
        intro i b claims state found
        rw [Sys.after, List.getElem?_set] at found
        split at found
        · split at found
          · cases found
            exact procStep_reads h₁
          · cases found
        · rename_i ne
          refine (gone found (by simp) fun input' same => ne ?_).elim
          cases same
          rfl
  | crash j =>
      rw [step] at h
      split at h
      · cases h
        exact reads
      · cases h
        intro i b claims state found
        rw [Sys.after, List.getElem?_set] at found
        split at found
        · split at found <;> cases found
        · rename_i ne
          refine (gone found (fun same => ne ?_) (by simp)).elim
          cases same
          rfl

/-- Nothing is written over. -/
theorem Sys.Reads.no_overwrite (reads : σ.Reads) (ok : σ.store.Ok) {task : TaskId} :
    ¬ Licence cfg env σ a (.overwrite task) := by
  intro may
  cases may with
  | overwrite cut row key pending blocked =>
      obtain ⟨i, -, found⟩ := cut
      obtain ⟨t, read, waits⟩ := reads i _ _ _ found
      rw [ok.getTask.mpr ⟨row, key⟩] at read
      cases read
      rcases waits with waits | waits
      · exact pending waits
      · exact blocked waits

/-! ## Histories -/

namespace Sys

/-- How often the task was reclaimed. -/
def tally (σ : Sys) (id : TaskId) : ℕ := ((σ.store.getTask id).map Task.reclaims).getD 0

/-- The state of a task that is live. -/
def stateOf (σ : Sys) (id : TaskId) : Option TaskState := (σ.store.getTask id).map Task.state

/-- Who has the task. -/
def ownerOf (σ : Sys) (id : TaskId) : Option AgentId := (σ.store.getTask id).bind Task.agentId

end Sys

section

variable {id : TaskId}

/-- The death of an agent that counts for its task. -/
structure Death (σ σ' : Sys) (id : TaskId) (agent : AgentId) : Prop where
  owner : σ.ownerOf id = some agent
  before : ¬ σ.store.Retired agent
  after : σ'.store.Retired agent
  count : σ'.tally id = σ.tally id + 1

/-- What a step makes of the count of a task. -/
inductive Advances (cfg : Cfg) (σ σ' : Sys) (id : TaskId) : Prop
  | kept (tally : σ'.tally id = σ.tally id)
      (poisoned : σ'.stateOf id = some .POISONED ↔ σ.stateOf id = some .POISONED)
  | lost (agent : AgentId) (death : Death σ σ' id agent) (before : σ.stateOf id ≠ some .POISONED)
      (poisoned : σ'.stateOf id = some .POISONED ↔ cfg.maxReclaims < σ'.tally id)

theorem step_advances (ok : σ.Ok) (reads : σ.Reads) (h : step cfg env σ a = .ok σ')
    (row : σ.store.getTask id = some t) (same : σ'.store.departures id = σ.store.departures id) :
    σ'.store.getTask id ≠ none ∧ Advances cfg σ σ' id := by
  obtain ⟨ht, key⟩ := ok.store.getTask.mp row
  obtain ⟨left, ok'⟩ := step_spec ok h
  have spent := left.spent ok.store ht (reads.no_overwrite ok.store)
  obtain ⟨t', ht', h'⟩ := spent.row (by rw [key, same])
  have key' : t'.taskId = id := (h'.elim Uncounted.id fun h => h.1.id).trans key
  have row' : σ'.store.getTask id = some t' := ok'.store.getTask.mpr ⟨ht', key'⟩
  refine ⟨by rw [row']; simp, ?_⟩
  have tally : σ.tally id = t.reclaims ∧ σ'.tally id = t'.reclaims := by
    simp [Sys.tally, row, row']
  have state : (σ.stateOf id = some .POISONED ↔ t.state = .POISONED) ∧
      (σ'.stateOf id = some .POISONED ↔ t'.state = .POISONED) := by
    simp [Sys.stateOf, row, row']
  rcases h' with h' | ⟨h', -⟩
  · refine .kept ?_ ?_
    · rw [tally.1, tally.2, h'.count]
    · rw [state.1, state.2, h'.poisoned]
  · obtain ⟨agent, owner, before, after⟩ := h'.death
    refine .lost agent ⟨?_, before, after, ?_⟩ (fun h => h'.before (state.1.mp h)) ?_
    · rw [Sys.ownerOf, row]
      exact owner
    · rw [tally.1, tally.2, h'.count]
    · rw [state.2, tally.2, h'.poisoned]

/-- The reclaim of its agent counts a task that is in progress. -/
theorem reclaimAgentCore_counts {now : Time} {voluntary : Bool} {row : Agent} {r : Reclaimed}
    (ok : s.Ok) (ht : s.getTask id = some t) (owner : t.agentId = some agent)
    (busy : t.state.inProgress = true) (registered : s.getAgent agent = some row)
    (working : row.state ≠ .RETIRED)
    (h : reclaimAgentCore cfg now voluntary s agent = .ok (s', r)) :
    ∃ t', s'.getTask id = some t' ∧ t'.reclaims = t.reclaims + 1 ∧ t'.agentId = none ∧
      (t'.state = .PENDING ∧ t.reclaims + 1 ≤ cfg.maxReclaims ∨
        t'.state = .POISONED ∧ cfg.maxReclaims < t.reclaims + 1) ∧ s'.Retired agent := by
  let c : Scope := ⟨cfg, now, fun d => d = .agents ∨ d = .bail agent⟩
  have reclaimed : AgentReclaimed c agent s s' :=
    reclaimAgentCore_reclaims (c := c) (Or.inl rfl) (Or.inl (Or.inr rfl)) registered working h ok
  obtain ⟨sems, run, -⟩ := reclaimed.run
  obtain ⟨mem, key⟩ := ok.getTask.mp ht
  have ok' := ok.micros run
  -- nothing is archived
  obtain ⟨t', ht', key'⟩ : ∃ t' ∈ s'.tasks, t'.taskId = id := by
    refine (Micros.invariant (I := fun s => ∃ t' ∈ s.tasks, t'.taskId = id)
      (fun s₁ s₂ ok₁ ih step => ?_) run ok ⟨t, mem, key⟩).2
    obtain ⟨t₁, ht₁, key₁⟩ := ih
    rcases (step.tasks ok₁).forth ht₁ ok₁ with ⟨t₂, ht₂, h₂⟩ | ⟨may, -⟩
    · exact ⟨t₂, ht₂, h₂.id.trans key₁⟩
    · rcases may with may | may <;> cases may
  refine ⟨t', ok'.getTask.mpr ⟨ht', key'⟩, ?_⟩
  rcases reclaimed.tasks t' ht' with ⟨kept, idle⟩ | ⟨t₀, ht₀, key₀, -, requeued⟩
  · rw [ok.task_eq kept mem (key'.trans key.symm)] at idle
    rw [idle owner] at busy
    cases busy
  · rw [ok.task_eq ht₀ mem (key₀.symm.trans (key'.trans key.symm))] at requeued
    exact ⟨requeued.count, requeued.freed, requeued.state, reclaimed.retired⟩

/-- What holds of a task from one time of a history to another, while its row is live. -/
structure PoisonBound (cfg : Cfg) (σ : ℕ → Sys) (m n : ℕ) (id : TaskId) : Prop where
  rises : ∀ j k, m ≤ j → j ≤ k → k ≤ n → (σ j).tally id ≤ (σ k).tally id
  deaths : ∀ k, m ≤ k → k < n → (σ (k + 1)).tally id ≠ (σ k).tally id →
    ∃ agent, Death (σ k) (σ (k + 1)) id agent
  once : ∀ agent j k, m ≤ j → j < n → m ≤ k → k < n → Death (σ j) (σ (j + 1)) id agent →
    Death (σ k) (σ (k + 1)) id agent → j = k
  each : ∀ k, m ≤ k → k ≤ n → ∀ now voluntary agent row s' r, (σ k).ownerOf id = some agent →
    (σ k).stateOf id ∈ [some .CLAIMED, some .IN_ORBIT, some .CONNECTING] →
    (σ k).store.getAgent agent = some row → row.state ≠ .RETIRED →
    reclaimAgentCore cfg now voluntary (σ k).store agent = .ok (s', r) →
    ∃ t', s'.getTask id = some t' ∧ t'.reclaims = (σ k).tally id + 1 ∧ t'.agentId = none ∧
      (t'.state = .PENDING ∧ (σ k).tally id + 1 ≤ cfg.maxReclaims ∨
        t'.state = .POISONED ∧ cfg.maxReclaims < (σ k).tally id + 1) ∧ s'.Retired agent
  requeues : ((Finset.Ico m n).filter fun k => (σ (k + 1)).tally id ≠ (σ k).tally id ∧
    (σ (k + 1)).stateOf id ≠ some .POISONED).card ≤ cfg.maxReclaims
  next : ∀ k, m ≤ k → k < n → (σ (k + 1)).tally id ≠ (σ k).tally id →
    ((σ (k + 1)).stateOf id = some .POISONED ↔ cfg.maxReclaims ≤ (σ k).tally id)
  stays : ∀ j k, m ≤ j → j ≤ k → k ≤ n → (σ j).stateOf id = some .POISONED →
    (σ k).stateOf id = some .POISONED
  refused : ∀ k, m ≤ k → k ≤ n → (σ k).stateOf id = some .POISONED →
    ∀ env, (σ k).store.Refuses cfg env id

/-- Steps that are counted leave no more than the bound to be handed out again. -/
theorem requeues_le {σ : ℕ → Sys} {m n : ℕ} (le : m ≤ n)
    (advances : ∀ k, m ≤ k → k < n → Advances cfg (σ k) (σ (k + 1)) id) :
    ((Finset.Ico m n).filter fun k => (σ (k + 1)).tally id ≠ (σ k).tally id ∧
      (σ (k + 1)).stateOf id ≠ some .POISONED).card ≤ min cfg.maxReclaims ((σ n).tally id) := by
  induction n, le using Nat.le_induction with
  | base => simp
  | succ n le ih =>
      have ih := ih fun k hk lt => advances k hk (Nat.lt_succ_of_lt lt)
      have split : Finset.Ico m (n + 1) = insert n (Finset.Ico m n) := by
        ext k
        simp only [Finset.mem_Ico, Finset.mem_insert]
        omega
      rw [split, Finset.filter_insert]
      cases advances n le (Nat.lt_succ_self n) with
      | kept tally poisoned =>
          rw [if_neg (by simp [tally]), tally]
          exact ih
      | lost agent death _ poisoned =>
          rw [death.count]
          rw [le_min_iff] at ih
          split_ifs with requeued
          · have bound := requeued.2
            rw [Ne, poisoned, death.count, not_lt] at bound
            rw [Finset.card_insert_of_notMem (by simp)]
            exact le_min (by omega) (by omega)
          · exact le_min ih.1 (by omega)

/-- While the row of a task is live, its reclaims are counted and bounded. -/
theorem poison_bound {σ : ℕ → Sys} {m n : ℕ} (history : History cfg Uninterrupted σ n)
    (le : m ≤ n) (live : (σ m).store.getTask id ≠ none)
    (stays : (σ n).store.departures id = (σ m).store.departures id) :
    PoisonBound cfg σ m n id := by
  obtain ⟨start, path⟩ := history
  -- every system of the history is sound, and its begins find what they read
  have sound : ∀ k ≤ n, (σ k).Ok ∧ (σ k).Reads := by
    intro k hk
    have init : (σ 0).Ok ∧ (σ 0).Reads := by
      rw [start]
      exact ⟨.empty, fun _ _ _ _ found => by cases found⟩
    refine path.invariant_from (I := fun τ => τ.Ok ∧ τ.Reads) (Nat.zero_le k) hk init ?_
    intro k' _ _ l calm next ⟨ok, reads⟩
    exact ⟨(step_spec ok next).2, step_reads reads calm next⟩
  have grows : ∀ j k, j ≤ k → k ≤ n →
      (σ j).store.departures id ≤ (σ k).store.departures id ∧
        ∀ agent, (σ j).store.Retired agent → (σ k).store.Retired agent := by
    intro j k hjk hk
    refine path.relates (R := fun τ τ' => τ.store.departures id ≤ τ'.store.departures id ∧
      ∀ agent, τ.store.Retired agent → τ'.store.Retired agent) (fun _ => ⟨le_rfl, fun _ h => h⟩)
      (fun _ _ _ h h' => ⟨h.1.trans h'.1, fun agent dead => h'.2 agent (h.2 agent dead)⟩) ?_ hjk hk
    intro i hi l _ next
    have ok := (sound i (by omega)).1
    have left := (step_spec ok next).1
    constructor
    · exact left.invariant (I := fun s => (σ i).store.departures id ≤ s.departures id)
        (fun _ _ _ _ _ _ ih change => ih.trans (change.departures id)) ok.store le_rfl
    · exact fun agent dead => left.invariant (I := fun s => s.Retired agent)
        (fun _ _ _ _ _ ok ih change => ih.micro ok change) ok.store dead
  have departures : ∀ k, m ≤ k → k ≤ n →
      (σ k).store.departures id = (σ m).store.departures id := by
    intro k hm hn
    have := (grows m k hm hn).1
    have := (grows k n hn le_rfl).1
    omega
  have rows : ∀ k, m ≤ k → k ≤ n → (σ k).store.getTask id ≠ none := by
    intro k hm hn
    induction k, hm using Nat.le_induction with
    | base => exact live
    | succ k hm ih =>
        obtain ⟨t, row⟩ := Option.ne_none_iff_exists'.mp (ih (by omega))
        obtain ⟨ok, reads⟩ := sound k (by omega)
        obtain ⟨l, -, next⟩ := path k (by omega)
        exact (step_advances ok reads next row
          ((departures _ (by omega) hn).trans (departures k hm (by omega)).symm)).1
  have advances : ∀ k, m ≤ k → k < n → Advances cfg (σ k) (σ (k + 1)) id := by
    intro k hm hn
    obtain ⟨t, row⟩ := Option.ne_none_iff_exists'.mp (rows k hm hn.le)
    obtain ⟨ok, reads⟩ := sound k hn.le
    obtain ⟨l, -, next⟩ := path k hn
    exact (step_advances ok reads next row
      ((departures _ (by omega) (by omega)).trans (departures k hm hn.le).symm)).2
  have rises : ∀ j k, m ≤ j → j ≤ k → k ≤ n → (σ j).tally id ≤ (σ k).tally id := by
    intro j k hm hjk hn
    induction k, hjk using Nat.le_induction with
    | base => exact le_rfl
    | succ k hjk ih =>
        refine (ih (by omega)).trans ?_
        cases advances k (by omega) (by omega) with
        | kept tally => exact tally.ge
        | lost _ death => exact death.count ▸ Nat.le_succ _
  have apart : ∀ agent j k, m ≤ j → j < k → k < n → Death (σ j) (σ (j + 1)) id agent →
      ¬ Death (σ k) (σ (k + 1)) id agent := fun agent j k _ lt hn death death' =>
    death'.before ((grows (j + 1) k lt hn.le).2 agent death.after)
  refine ⟨rises, fun k hm hn counted => ?_, fun agent j k hmj hj hmk hk death death' => ?_,
    fun k hm hn now voluntary agent row s' r owner busy registered working h => ?_,
    (requeues_le le advances).trans (min_le_left _ _), fun k hm hn counted => ?_,
    fun j k hm hjk hn poisoned => ?_, fun k hm hn poisoned env => ?_⟩
  · cases advances k hm hn with
    | kept tally => exact absurd tally counted
    | lost agent death => exact ⟨agent, death⟩
  · rcases lt_trichotomy j k with lt | same | lt
    · exact absurd death' (apart agent j k hmj lt hk death)
    · exact same
    · exact absurd death (apart agent k j hmk lt hj death')
  · obtain ⟨t, ht⟩ := Option.ne_none_iff_exists'.mp (rows k hm hn)
    rw [Sys.ownerOf, ht] at owner
    rw [Sys.stateOf, ht] at busy
    have tally : (σ k).tally id = t.reclaims := by simp [Sys.tally, ht]
    rw [tally]
    refine reclaimAgentCore_counts (sound k hn).1.store ht owner ?_ registered working h
    cases hs : t.state <;> simp [hs, TaskState.inProgress] at busy ⊢
  · cases advances k hm hn with
    | kept tally => exact absurd tally counted
    | lost agent death _ poisoned => rw [poisoned, death.count, Nat.lt_succ_iff]
  · induction k, hjk using Nat.le_induction with
    | base => exact poisoned
    | succ k hjk ih =>
        have before := ih (by omega)
        cases advances k (by omega) (by omega) with
        | kept _ same => exact same.mpr before
        | lost _ _ sound => exact absurd before sound
  · obtain ⟨t, ht⟩ := Option.ne_none_iff_exists'.mp (rows k hm hn)
    rw [Sys.stateOf, ht] at poisoned
    exact refuses_of_poisoned cfg env (sound k hn).1.store ht (Option.some.inj poisoned)

end

/-! ## A task that is lost twice -/

/-- A call that has not read the task of a begin, or has written it. -/
def Proc.calm : Proc → Bool
  | .begin _ (.ready ..) => false
  | _ => true

theorem uninterrupted_of_calm (σ : Sys) (l : Env × Action) (h : σ.procs.all Proc.calm = true) :
    Uninterrupted σ l := by
  intro i b claims state found
  have calm := List.all_eq_true.mp h _ (List.mem_of_getElem? found)
  cases calm

/-- An agent claims and starts the task, and bails. -/
def lostOnce (agent : AgentId) (i : ℕ) (now : Time) : List (Env × Action) :=
  [ (Action.call .nextTask).at now,
    (Action.call (.claim { agentId := agent, pathspec := ["a"], taskId := some "T" })).at now,
    (Action.call (.start "T" agent none none)).at now,
    (Action.bail agent none).at now, (Action.resume i {}).at now, (Action.resume i {}).at now ]

/-- Two agents lose the task one after the other. -/
def lostTwice : List (Env × Action) :=
  (Action.call (.declare { taskId := "T", writes := ["a"] })).at 1 ::
    (lostOnce "A" 0 2 ++ lostOnce "B" 1 3)

theorem poison_bound_lostTwice : ∃ σ : ℕ → Sys,
    History { maxReclaims := 1 } Uninterrupted σ 13 ∧ (σ 7).stateOf "T" = some .PENDING ∧
      (σ 13).stateOf "T" = some .POISONED ∧ PoisonBound { maxReclaims := 1 } σ 1 13 "T" := by
  have history : History { maxReclaims := 1 } Uninterrupted
      (trace { maxReclaims := 1 } lostTwice {}) 13 :=
    history_of_execWhen lostTwice (fun σ _ => σ.procs.all Proc.calm) uninterrupted_of_calm
      (by decide +kernel)
  exact ⟨_, history, by decide +kernel, by decide +kernel,
    poison_bound history (by omega) (by decide +kernel) (by decide +kernel)⟩

end Omd
