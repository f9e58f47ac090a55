import Omd.Shape

/-!
# The effect of a computation

`Does` says that a computation, from a store whose keys are in order, changed the store by
a run of changes; such facts compose along the computation.  `Wrote` is one change of one
row of `orbits`, which is what the body of a loop over a snapshot makes; as every round
changes its own row only, the rows of the snapshot are still current when their round
comes.
-/

namespace Omd

open Lib

/-- From a store whose keys are in order, a run of changes. -/
def Does (c : Scope) (E : TaskId → Prop) (s s' : Store) : Prop := s.Ok → Micros c E s s'

/-- From a store whose keys are in order, a run of changes that leaves the tasks. -/
def Keeps (c : Scope) (E : TaskId → Prop) (s s' : Store) : Prop :=
  s.Ok → Micros c E s s' ∧ s'.tasks = s.tasks

/-- From a store whose keys are in order, a run of moves. -/
def Takes (c : Scope) (s s' : Store) : Prop := s.Ok → Moves c s s'

/-- A run of moves under one set of licences, then one under another. -/
def Phases (cfg : Cfg) (now : Time) (may may' : Deed → Prop) (s s' : Store) : Prop :=
  ∃ s₁, Moves ⟨cfg, now, may⟩ s s₁ ∧ Moves ⟨cfg, now, may'⟩ s₁ s'

/-- The licences to sweep the whole store: to end what has lapsed, and to collect. -/
def Collecting (may : Deed → Prop) : Prop := may .lapse ∧ ∀ t, may (.archive t)

/-- One change of one row of `orbits`, or none. -/
inductive Wrote (c : Scope) (E : TaskId → Prop) (s : Store) (o : Orbit) (s' : Store) : Prop
  | nothing (frame : Frame s s')
  | row (f : Orbit → Orbit) (news : List OutboxRow) (step : OrbitStep c E s o (f o))
      (announced : Announced o (f o) news)
      (frame : Frame ((s.announce news).setOrbit o.orbitId f) s')

/-- One change of one row of `tasks`, or none. -/
inductive WroteTask (c : Scope) (E : TaskId → Prop) (s : Store) (t : Task) (s' : Store) : Prop
  | nothing (frame : Frame s s')
  | row (f : Task → Task) (step : TaskStep c E s t (f t))
      (frame : Frame (s.setTask t.taskId f) s')

section

variable {s s' : Store}

theorem frame_setOrbit (h : Frame s s') (id : OrbitId) (f : Orbit → Orbit) :
    Frame (s.setOrbit id f) (s'.setOrbit id f) :=
  { h with orbits := congrArg (Table.modify Orbit.orbitId id f) h.orbits }

theorem frame_addOrbit (h : Frame s s') (o : Orbit) :
    Frame (s.addOrbit o) (s'.addOrbit o) :=
  { h with orbits := congrArg (· ++ [o]) h.orbits }

theorem frame_announce (h : Frame s s') (news : List OutboxRow) :
    Frame (s.announce news) (s'.announce news) :=
  { h with outbox := congrArg (· ++ news) h.outbox }

@[simp] theorem announce_nil (s : Store) : s.announce [] = s := by
  rw [Store.announce, List.append_nil]

end

section

variable {c : Scope} {E : TaskId → Prop} {s s₁ s' : Store}

theorem Does.refl (s : Store) : Does c E s s := fun _ => .refl

theorem Does.trans (h : Does c E s s₁) (h' : Does c E s₁ s') : Does c E s s' :=
  fun ok => (h ok).trans (h' (ok.micros (h ok)))

theorem Does.micro (h : s.Ok → Micro c E s s') : Does c E s s' := fun ok => .single (h ok)

theorem Keeps.does (h : Keeps c E s s') : Does c E s s' := fun ok => (h ok).1

theorem Keeps.refl (s : Store) : Keeps c E s s := fun _ => ⟨.refl, rfl⟩

theorem Keeps.trans (h : Keeps c E s s₁) (h' : Keeps c E s₁ s') : Keeps c E s s' :=
  fun ok =>
    have h' := h' (ok.micros (h ok).1)
    ⟨(h ok).1.trans h'.1, h'.2.trans (h ok).2⟩

theorem Micros.moves (h : Micros c nobody s s') : Moves c s s' :=
  Relation.ReflTransGen.mono (fun _ _ h => Move.micro h) _ _ h

theorem Does.takes (h : Does c nobody s s') : Takes c s s' := fun ok => (h ok).moves

theorem Keeps.takes (h : Keeps c nobody s s') : Takes c s s' := h.does.takes

theorem Takes.refl (s : Store) : Takes c s s := fun _ => .refl

theorem Takes.trans (h : Takes c s s₁) (h' : Takes c s₁ s') : Takes c s s' :=
  fun ok => (h ok).trans (h' (ok.moves (h ok)))

theorem Phases.refl (cfg : Cfg) (now : Time) (may may' : Deed → Prop) (s : Store) :
    Phases cfg now may may' s s := ⟨s, .refl, .refl⟩

theorem Takes.phases {cfg : Cfg} {now : Time} {may : Deed → Prop} (may' : Deed → Prop)
    (h : Takes ⟨cfg, now, may⟩ s s') (ok : s.Ok) : Phases cfg now may may' s s' :=
  ⟨s', h ok, .refl⟩

theorem Keeps.of_micro (h : Micro c E s s') (tasks : s'.tasks = s.tasks) : Keeps c E s s' :=
  fun _ => ⟨.single h, tasks⟩

theorem Frame.keeps (h : Frame s s') : Keeps c E s s' := .of_micro (.frame h) h.tasks

/-- A new row that is no permit. -/
theorem Micro.ofRow {o : Orbit} {news : List OutboxRow} (row : NewRow c s o)
    (introduced : Introduced o news) (id : o.orbitId = s.uuid) (drawn : s.uuid < s'.uuid)
    (ticket : o.kind = .orbit → s'.seq = s.seq + 1) (kind : o.kind ≠ .sem_permit)
    (frame : Frame ((s.announce news).addOrbit o) s') : Micro c E s s' := by
  have line : Lined c s o s'.semWaiters := by
    rw [frame.semWaiters]
    exact .stays fun _ permit => absurd permit kind
  exact .insert o news row introduced id drawn ticket line { frame with semWaiters := rfl }

theorem Frame.takes (h : Frame s s') : Takes c s s' := h.keeps.takes

theorem setAgent_keeps (may : c.may .agents) {id : AgentId} {f : Agent → Agent}
    (step : ∀ a ∈ s.agents, a.agentId = id → AgentStep s a (f a)) :
    Keeps c E s (s.setAgent id f) :=
  fun ok => ⟨.single (.agent may id f
    (fun a ha => step a (ok.getAgent.mp ha).1 (ok.getAgent.mp ha).2) (.refl _)), rfl⟩

/-- An agent is enrolled, or heard of once more, while it is alive. -/
theorem upsertAgent_keeps (may : c.may .agents) {id : AgentId} (alive : s.Alive id) (now : Time) :
    Keeps c E s (s.upsertAgent id now) := by
  rw [Store.upsertAgent]
  split
  · rename_i hnone
    exact fun _ => ⟨.single (.enroll may _ hnone rfl (.refl _)), rfl⟩
  · exact setAgent_keeps may fun a ha hid =>
      ⟨rfl, le_rfl, Or.inr ⟨alive a ha hid, fun h => by cases h⟩⟩

/-- Without the licence the agents stay. -/
theorem Micros.agents (h : Micros c E s s') (no : ¬ c.may .agents) : s'.agents = s.agents := by
  induction h with
  | refl => rfl
  | tail _ hstep ih =>
      refine Eq.trans ?_ ih
      cases hstep with
      | enroll may _ _ _ frame | agent may _ _ _ frame => exact absurd may no
      | frame frame | orbit _ _ _ _ _ _ frame | insert _ _ _ _ _ _ _ _ frame | reject _ _ _ _ frame
      | summary _ _ _ frame | task _ _ _ frame | declare _ _ frame | publish _ _ _ frame
      | request _ frame | waiters _ frame | slots _ _ _ _ frame | flags _ frame
      | arm _ _ _ _ _ _ _ _ frame | trip _ _ _ frame | stamp _ frame
      | archiveTasks _ _ _ _ frame | archiveOrbits _ _ _ frame => exact frame.agents

theorem Frame.does (h : Frame s s') : Does c E s s' := .micro fun _ => .frame h

/-- A write of one row that no event announces. -/
theorem Does.setOrbit {id : OrbitId} {f : Orbit → Orbit}
    (step : ∀ o ∈ s.orbits, o.orbitId = id → OrbitStep c E s o (f o))
    (silent : ∀ o ∈ s.orbits, o.orbitId = id → Announced o (f o) []) :
    Does c E s (s.setOrbit id f) :=
  .micro fun ok => .orbit id f [] (fun o ho => step o (ok.getOrbit.mp ho).1 (ok.getOrbit.mp ho).2)
    (fun o ho => silent o (ok.getOrbit.mp ho).1 (ok.getOrbit.mp ho).2) (fun _ => rfl)
    (by rw [announce_nil]; exact .refl _)

theorem Keeps.setOrbit {id : OrbitId} {f : Orbit → Orbit}
    (step : ∀ o ∈ s.orbits, o.orbitId = id → OrbitStep c E s o (f o))
    (silent : ∀ o ∈ s.orbits, o.orbitId = id → Announced o (f o) []) :
    Keeps c E s (s.setOrbit id f) :=
  fun ok => ⟨Does.setOrbit step silent ok, rfl⟩

/-- A write of one task. -/
theorem Does.setTask {id : TaskId} {f : Task → Task}
    (step : ∀ t ∈ s.tasks, t.taskId = id → TaskStep c E s t (f t)) :
    Does c E s (s.setTask id f) :=
  .micro fun ok => .task id f (fun t ht => step t (ok.getTask.mp ht).1 (ok.getTask.mp ht).2)
    (.refl _)

/-- A write of one row, its event and what frames them. -/
theorem Wrote.micros {o : Orbit} (h : Wrote c E s o s') (ok : s.Ok) (ho : o ∈ s.orbits) :
    Micros c E s s' := by
  cases h with
  | nothing frame => exact frame.does ok
  | row f news step announced frame =>
      have row : ∀ r, s.getOrbit o.orbitId = some r → r = o := fun r hr =>
        ok.orbit_eq (ok.getOrbit.mp hr).1 ho (ok.getOrbit.mp hr).2
      refine .single (.orbit o.orbitId f news (fun r hr => ?_) (fun r hr => ?_) (fun hr => ?_)
        frame)
      · rw [row r hr]
        exact step
      · rw [row r hr]
        exact announced
      · rw [ok.getOrbit.mpr ⟨ho, rfl⟩] at hr
        cases hr

theorem Wrote.tasks {o : Orbit} (h : Wrote c E s o s') : s'.tasks = s.tasks := by
  cases h with
  | nothing frame => exact frame.tasks
  | row f news step announced frame => exact frame.tasks

theorem Wrote.agents {o : Orbit} (h : Wrote c E s o s') : s'.agents = s.agents := by
  cases h with
  | nothing frame => exact frame.agents
  | row f news step announced frame => exact frame.agents

theorem Wrote.semWaiters {o : Orbit} (h : Wrote c E s o s') : s'.semWaiters = s.semWaiters := by
  cases h with
  | nothing frame => exact frame.semWaiters
  | row f news step announced frame => exact frame.semWaiters

/-- Such a write leaves the tasks. -/
theorem Wrote.keeps {o : Orbit} (h : Wrote c E s o s') (ho : o ∈ s.orbits) :
    Keeps c E s s' := fun ok => ⟨h.micros ok ho, h.tasks⟩

/-- The other rows are as they were. -/
theorem Wrote.others {o r : Orbit} (h : Wrote c E s o s') (hr : r ∈ s.orbits)
    (hid : r.orbitId ≠ o.orbitId) : r ∈ s'.orbits := by
  cases h with
  | nothing frame => exact frame.orbits ▸ hr
  | row f news step announced frame =>
      exact frame.orbits ▸ Table.mem_modify.mpr (Or.inl ⟨hr, hid⟩)

/-- Where a row comes from. -/
theorem Wrote.back {o r : Orbit} (h : Wrote c E s o s') (ok : s.Ok) (ho : o ∈ s.orbits)
    (hr : r ∈ s'.orbits) : ∃ r₀ ∈ s.orbits, r₀.SameRow r := by
  cases h with
  | nothing frame => exact ⟨r, frame.orbits ▸ hr, .refl r⟩
  | row f news step announced frame =>
      rw [frame.orbits] at hr
      rcases (ok.mem_setOrbit ho f r).mp hr with ⟨hr, -⟩ | rfl
      · exact ⟨r, hr, .refl r⟩
      · exact ⟨o, ho, step.row⟩

/-- A write of one task and what frames it. -/
theorem WroteTask.micros {t : Task} (h : WroteTask c E s t s') (ok : s.Ok) (ht : t ∈ s.tasks) :
    Micros c E s s' := by
  cases h with
  | nothing frame => exact frame.does ok
  | row f step frame =>
      refine .single (.task t.taskId f (fun t' ht' => ?_) frame)
      obtain ⟨hmem, hid⟩ := ok.getTask.mp ht'
      rwa [ok.task_eq hmem ht hid]

theorem WroteTask.orbits {t : Task} (h : WroteTask c E s t s') : s'.orbits = s.orbits := by
  cases h with
  | nothing frame => exact frame.orbits
  | row f step frame => exact frame.orbits

theorem WroteTask.agents {t : Task} (h : WroteTask c E s t s') : s'.agents = s.agents := by
  cases h with
  | nothing frame => exact frame.agents
  | row f step frame => exact frame.agents

theorem WroteTask.semWaiters {t : Task} (h : WroteTask c E s t s') :
    s'.semWaiters = s.semWaiters := by
  cases h with
  | nothing frame => exact frame.semWaiters
  | row f step frame => exact frame.semWaiters

/-- Where a row comes from. -/
theorem WroteTask.back {t r : Task} (h : WroteTask c E s t s') (ok : s.Ok) (ht : t ∈ s.tasks)
    (hr : r ∈ s'.tasks) : ∃ r₀ ∈ s.tasks, r₀.taskId = r.taskId := by
  cases h with
  | nothing frame => exact ⟨r, frame.tasks ▸ hr, rfl⟩
  | row f step frame =>
      rw [frame.tasks] at hr
      rcases (ok.mem_setTask ht f r).mp hr with ⟨hr, -⟩ | rfl
      · exact ⟨r, hr, rfl⟩
      · exact ⟨t, ht, step.id.symm⟩

theorem WroteTask.others {t r : Task} (h : WroteTask c E s t s') (hr : r ∈ s.tasks)
    (hid : r.taskId ≠ t.taskId) : r ∈ s'.tasks := by
  cases h with
  | nothing frame => exact frame.tasks ▸ hr
  | row f step frame => exact frame.tasks ▸ Table.mem_modify.mpr (Or.inl ⟨hr, hid⟩)

/-! ## Loops -/

/-- What a loop over a snapshot of `orbits` leaves, each round of which writes its own row. -/
structure Looped (c : Scope) (E : TaskId → Prop) (s : Store) (xs : List Orbit)
    (Q : Orbit → Orbit → Prop) (s' : Store) : Prop where
  run : Micros c E s s'
  tasks : s'.tasks = s.tasks
  agents : s'.agents = s.agents
  semWaiters : s'.semWaiters = s.semWaiters
  done : ∀ o ∈ xs, ∃ o' ∈ s'.orbits, o'.orbitId = o.orbitId ∧ Q o o'
  others : ∀ o ∈ s.orbits, (∀ x ∈ xs, o.orbitId ≠ x.orbitId) → o ∈ s'.orbits
  back : ∀ o' ∈ s'.orbits, ∃ o ∈ s.orbits, o.SameRow o'

/-- One round of a loop over a snapshot of `orbits`: the other rows are as they were. -/
structure Round (c : Scope) (E : TaskId → Prop) (s : Store) (o : Orbit) (s' : Store) : Prop where
  run : Micros c E s s'
  tasks : s'.tasks = s.tasks
  agents : s'.agents = s.agents
  semWaiters : s'.semWaiters = s.semWaiters
  others : ∀ r ∈ s.orbits, r.orbitId ≠ o.orbitId → r ∈ s'.orbits
  back : ∀ r ∈ s'.orbits, ∃ r₀ ∈ s.orbits, r₀.SameRow r

theorem Wrote.round {o : Orbit} (h : Wrote c E s o s') (ok : s.Ok) (ho : o ∈ s.orbits) :
    Round c E s o s' :=
  ⟨h.micros ok ho, h.tasks, h.agents, h.semWaiters, fun _ => h.others, fun _ => h.back ok ho⟩

/-- A loop over distinct rows whose body is a round on each. -/
theorem foldlM_rounds {f : Store → Orbit → Except Fault Store} {xs : List Orbit}
    {Q : Orbit → Orbit → Prop} (distinct : Table.Distinct Orbit.orbitId xs)
    (sub : ∀ o ∈ xs, o ∈ s.orbits)
    (body : ∀ o ∈ xs, ∀ s₁ s₂, s₁.Ok → s₁.tasks = s.tasks → o ∈ s₁.orbits →
      f s₁ o = .ok s₂ → Round c E s₁ o s₂ ∧
        ∃ o' ∈ s₂.orbits, o'.orbitId = o.orbitId ∧ Q o o')
    (h : xs.foldlM f s = .ok s') (ok : s.Ok) : Looped c E s xs Q s' := by
  induction xs generalizing s with
  | nil =>
      rw [List.foldlM_nil, Outcome.pure_eq_ok] at h
      subst h
      exact ⟨.refl, rfl, rfl, rfl, by simp, fun o ho _ => ho, fun o ho => ⟨o, ho, .refl o⟩⟩
  | cons o xs ih =>
      rw [List.foldlM_cons, Outcome.bind_eq_ok] at h
      obtain ⟨s₁, h₁, h⟩ := h
      have hmem : o ∈ s.orbits := sub o (List.mem_cons_self ..)
      obtain ⟨round, o', ho', hid, hq⟩ := body o (List.mem_cons_self ..) s s₁ ok rfl hmem h₁
      rw [Table.Distinct, List.map_cons, List.nodup_cons] at distinct
      have hnew : ∀ r ∈ xs, r.orbitId ≠ o.orbitId := fun r hr hid =>
        distinct.1 (hid ▸ List.mem_map_of_mem hr)
      have rest := ih distinct.2
        (fun r hr => round.others r (sub r (List.mem_cons_of_mem _ hr)) (hnew r hr))
        (fun r hr s₁' s₂ ok₁ tasks => body r (List.mem_cons_of_mem _ hr) s₁' s₂ ok₁
          (tasks.trans round.tasks)) h (ok.micros round.run)
      refine ⟨round.run.trans rest.run, rest.tasks.trans round.tasks,
        rest.agents.trans round.agents, rest.semWaiters.trans round.semWaiters,
        fun r hr => ?_, fun r hr hne => ?_, fun r hr => ?_⟩
      · rcases List.mem_cons.mp hr with rfl | hr
        · exact ⟨o', rest.others o' ho' fun x hx => hid ▸ (hnew x hx).symm, hid, hq⟩
        · exact rest.done r hr
      · exact rest.others r (round.others r hr (hne o (List.mem_cons_self ..))) fun x hx =>
          hne x (List.mem_cons_of_mem _ hx)
      · obtain ⟨r₁, hr₁, h₁⟩ := rest.back r hr
        obtain ⟨r₀, hr₀, h₀⟩ := round.back r₁ hr₁
        exact ⟨r₀, hr₀, h₀.trans h₁⟩

/-- A loop over distinct rows whose body writes one. -/
theorem foldlM_orbits {f : Store → Orbit → Except Fault Store} {xs : List Orbit}
    {Q : Orbit → Orbit → Prop} (distinct : Table.Distinct Orbit.orbitId xs)
    (sub : ∀ o ∈ xs, o ∈ s.orbits)
    (body : ∀ o ∈ xs, ∀ s₁ s₂, s₁.Ok → s₁.tasks = s.tasks → o ∈ s₁.orbits →
      f s₁ o = .ok s₂ → Wrote c E s₁ o s₂ ∧
        ∃ o' ∈ s₂.orbits, o'.orbitId = o.orbitId ∧ Q o o')
    (h : xs.foldlM f s = .ok s') (ok : s.Ok) : Looped c E s xs Q s' := by
  refine foldlM_rounds distinct sub (fun o ho s₁ s₂ ok₁ tasks ho₁ hstep => ?_) h ok
  obtain ⟨wrote, left⟩ := body o ho s₁ s₂ ok₁ tasks ho₁ hstep
  exact ⟨wrote.round ok₁ ho₁, left⟩

/-- A row after the loop is what its round left, or was not in the snapshot. -/
theorem Looped.row {xs : List Orbit} {Q : Orbit → Orbit → Prop} (h : Looped c E s xs Q s')
    (ok : s.Ok) {o' : Orbit} (ho' : o' ∈ s'.orbits) :
    (∃ o ∈ xs, o.orbitId = o'.orbitId ∧ Q o o') ∨
      o' ∈ s.orbits ∧ ∀ x ∈ xs, o'.orbitId ≠ x.orbitId := by
  have ok' := ok.micros h.run
  by_cases hx : ∃ o ∈ xs, o.orbitId = o'.orbitId
  · obtain ⟨o, ho, hid⟩ := hx
    obtain ⟨r, hr, hrid, hq⟩ := h.done o ho
    cases ok'.orbit_eq hr ho' (hrid.trans hid)
    exact Or.inl ⟨o, ho, hid, hq⟩
  · have apart : ∀ x ∈ xs, o'.orbitId ≠ x.orbitId := fun x hx' hid => hx ⟨x, hx', hid.symm⟩
    obtain ⟨o, ho, hrow⟩ := h.back o' ho'
    have hmem := h.others o ho fun x hx' => hrow.orbitId ▸ apart x hx'
    cases ok'.orbit_eq hmem ho' hrow.orbitId.symm
    exact Or.inr ⟨ho, apart⟩

theorem Looped.keeps {xs : List Orbit} {Q : Orbit → Orbit → Prop}
    (h : s.Ok → Looped c E s xs Q s') : Keeps c E s s' :=
  fun ok => ⟨(h ok).run, (h ok).tasks⟩

/-- A written row is still there. -/
theorem Wrote.exists {o : Orbit} (h : Wrote c E s o s') (ho : o ∈ s.orbits) :
    ∃ o' ∈ s'.orbits, o'.orbitId = o.orbitId ∧ True := by
  cases h with
  | nothing frame => exact ⟨o, frame.orbits ▸ ho, rfl, trivial⟩
  | row f news step announced frame =>
      exact ⟨f o, frame.orbits ▸ Table.mem_modify.mpr (Or.inr ⟨o, ho, rfl, rfl⟩),
        step.row.orbitId, trivial⟩

theorem Keeps.foldlM {f : Store → Orbit → Except Fault Store} {xs : List Orbit}
    (distinct : s.Ok → Table.Distinct Orbit.orbitId xs) (sub : ∀ o ∈ xs, o ∈ s.orbits)
    (body : ∀ o ∈ xs, ∀ s₁ s₂, s₁.Ok → s₁.tasks = s.tasks → o ∈ s₁.orbits →
      f s₁ o = .ok s₂ → Wrote c E s₁ o s₂)
    (h : xs.foldlM f s = .ok s') : Keeps c E s s' := by
  refine Looped.keeps fun ok => foldlM_orbits (Q := fun _ _ => True) (distinct ok) sub ?_ h ok
  intro o ho s₁ s₂ ok₁ tasks ho₁ hstep
  have wrote := body o ho s₁ s₂ ok₁ tasks ho₁ hstep
  exact ⟨wrote, wrote.exists ho₁⟩

/-- What a loop over a snapshot of `tasks` leaves, each round of which writes its own row. -/
structure LoopedTasks (c : Scope) (E : TaskId → Prop) (s : Store) (xs : List Task)
    (Q : Task → Task → Prop) (s' : Store) : Prop where
  run : Micros c E s s'
  orbits : s'.orbits = s.orbits
  agents : s'.agents = s.agents
  semWaiters : s'.semWaiters = s.semWaiters
  done : ∀ t ∈ xs, ∃ t' ∈ s'.tasks, t'.taskId = t.taskId ∧ Q t t'
  others : ∀ t ∈ s.tasks, (∀ x ∈ xs, t.taskId ≠ x.taskId) → t ∈ s'.tasks
  back : ∀ t' ∈ s'.tasks, ∃ t ∈ s.tasks, t.taskId = t'.taskId

/-- A loop over distinct tasks whose body writes one. -/
theorem foldlM_tasks {f : Store → Task → Except Fault Store} {xs : List Task}
    {Q : Task → Task → Prop} (distinct : Table.Distinct Task.taskId xs)
    (sub : ∀ t ∈ xs, t ∈ s.tasks)
    (body : ∀ t ∈ xs, ∀ s₁ s₂, s₁.Ok → t ∈ s₁.tasks → f s₁ t = .ok s₂ →
      WroteTask c E s₁ t s₂ ∧ ∃ t' ∈ s₂.tasks, t'.taskId = t.taskId ∧ Q t t')
    (h : xs.foldlM f s = .ok s') (ok : s.Ok) : LoopedTasks c E s xs Q s' := by
  induction xs generalizing s with
  | nil =>
      rw [List.foldlM_nil, Outcome.pure_eq_ok] at h
      subst h
      exact ⟨.refl, rfl, rfl, rfl, by simp, fun t ht _ => ht, fun t ht => ⟨t, ht, rfl⟩⟩
  | cons t xs ih =>
      rw [List.foldlM_cons, Outcome.bind_eq_ok] at h
      obtain ⟨s₁, h₁, h⟩ := h
      have hmem : t ∈ s.tasks := sub t (List.mem_cons_self ..)
      obtain ⟨wrote, t', ht', hid, hq⟩ := body t (List.mem_cons_self ..) s s₁ ok hmem h₁
      have run := wrote.micros ok hmem
      rw [Table.Distinct, List.map_cons, List.nodup_cons] at distinct
      have hnew : ∀ r ∈ xs, r.taskId ≠ t.taskId := fun r hr hid =>
        distinct.1 (hid ▸ List.mem_map_of_mem hr)
      have rest := ih distinct.2
        (fun r hr => wrote.others (sub r (List.mem_cons_of_mem _ hr)) (hnew r hr))
        (fun r hr => body r (List.mem_cons_of_mem _ hr)) h (ok.micros run)
      refine ⟨run.trans rest.run, rest.orbits.trans wrote.orbits, rest.agents.trans wrote.agents,
        rest.semWaiters.trans wrote.semWaiters, fun r hr => ?_, fun r hr hne => ?_, fun r hr => ?_⟩
      · rcases List.mem_cons.mp hr with rfl | hr
        · exact ⟨t', rest.others t' ht' fun x hx => hid ▸ (hnew x hx).symm, hid, hq⟩
        · exact rest.done r hr
      · exact rest.others r (wrote.others hr (hne t (List.mem_cons_self ..))) fun x hx =>
          hne x (List.mem_cons_of_mem _ hx)
      · obtain ⟨r₁, hr₁, h₁⟩ := rest.back r hr
        obtain ⟨r₀, hr₀, h₀⟩ := wrote.back ok hmem hr₁
        exact ⟨r₀, hr₀, h₀.trans h₁⟩

/-- A row after the loop is what its round left, or was not in the snapshot. -/
theorem LoopedTasks.row {xs : List Task} {Q : Task → Task → Prop} (h : LoopedTasks c E s xs Q s')
    (ok : s.Ok) {t' : Task} (ht' : t' ∈ s'.tasks) :
    (∃ t ∈ xs, t.taskId = t'.taskId ∧ Q t t') ∨
      t' ∈ s.tasks ∧ ∀ x ∈ xs, t'.taskId ≠ x.taskId := by
  have ok' := ok.micros h.run
  by_cases hx : ∃ t ∈ xs, t.taskId = t'.taskId
  · obtain ⟨t, ht, hid⟩ := hx
    obtain ⟨r, hr, hrid, hq⟩ := h.done t ht
    cases ok'.task_eq hr ht' (hrid.trans hid)
    exact Or.inl ⟨t, ht, hid, hq⟩
  · have apart : ∀ x ∈ xs, t'.taskId ≠ x.taskId := fun x hx' hid => hx ⟨x, hx', hid.symm⟩
    obtain ⟨t, ht, hid⟩ := h.back t' ht'
    have hmem := h.others t ht fun x hx' => hid ▸ apart x hx'
    cases ok'.task_eq hmem ht' hid
    exact Or.inr ⟨ht, apart⟩

theorem Keeps.foldl {α : Type} {f : Store → α → Store} {xs : List α}
    (body : ∀ x ∈ xs, ∀ s₁, Keeps c E s₁ (f s₁ x)) : Keeps c E s (xs.foldl f s) := by
  induction xs generalizing s with
  | nil => exact .refl s
  | cons x xs ih =>
      exact (body x (List.mem_cons_self ..) s).trans
        (ih fun y hy => body y (List.mem_cons_of_mem _ hy))

/-- A loop every round of which is a run of changes. -/
theorem Does.foldl {α : Type} {f : Store → α → Store} {xs : List α}
    (body : ∀ x ∈ xs, ∀ s₁, Does c E s₁ (f s₁ x)) : Does c E s (xs.foldl f s) := by
  induction xs generalizing s with
  | nil => exact .refl s
  | cons x xs ih =>
      exact (body x (List.mem_cons_self ..) s).trans
        (ih fun y hy => body y (List.mem_cons_of_mem _ hy))

end

/-! ## Computations that touch no row -/

section

variable {s s' : Store}

theorem frame_foldlM {α : Type} {f : Store → α → Except Fault Store} {xs : List α}
    (body : ∀ s x s', f s x = .ok s' → Frame s s') (h : xs.foldlM f s = .ok s') : Frame s s' :=
  Outcome.foldlM_induction (P := Frame s) (.refl s)
    (fun x _ _ _ h₁ h₂ => h₁.trans (body _ x _ h₂)) h

theorem frame_bumpFence (s : Store) : Frame s s.bumpFence :=
  { fence := Nat.le_succ _ }

theorem frame_bumpUuid (s : Store) : Frame s s.bumpUuid :=
  { uuid := Nat.le_succ _ }

theorem frame_bumpSeq (s : Store) : Frame s s.bumpSeq :=
  { seq := by simp [Store.bumpSeq] }

/-- A notification is new, and comes last. -/
theorem enqueueOutbox_eq {row : OutboxRow} (h : s.enqueueOutbox row = .ok s') :
    s' = s.announce [row] ∧ row ∉ s.outbox := by
  rw [Store.enqueueOutbox] at h
  split at h
  · cases h
  · rename_i hnew
    cases h
    exact ⟨rfl, hnew⟩

/-- Only an event that notifies is announced. -/
theorem enqueueNotification_eq {event : AdmissionEvent} {id : AdmissionIdentity}
    (h : s.enqueueNotification event id = .ok s') : s' = s.announce
      (if event.notifies then [⟨event, id.requestId, id.requestGeneration, some id.orbitId⟩]
        else []) := by
  rw [Store.enqueueNotification] at h
  split at h
  · rename_i hnotifies
    rw [if_pos hnotifies, (enqueueOutbox_eq h).1]
  · rename_i hsilent
    cases h
    rw [if_neg hsilent, announce_nil]

/-- What a reduction checked, and what it left. -/
structure Reduced (s : Store) (state : SemanticState) (event : AdmissionEvent)
    (id : AdmissionIdentity) (guard : Bool) (expected : Option OrbitState) (s' : Store) :
    Prop where
  guard : guard = true
  step : ∃ st, semanticStep state event = some st ∧ projectLegacy st = expected
  store : s' = s.announce
    (if event.notifies then [⟨event, id.requestId, id.requestGeneration, some id.orbitId⟩] else [])

/-- A transition is asserted by the one table of the semantic states. -/
theorem assertAdmissionProjection_spec {state : SemanticState} {event : AdmissionEvent}
    {id : AdmissionIdentity} {guard : Bool} {expected : Option OrbitState}
    (h : assertAdmissionProjection s state event id guard expected = .ok s') :
    Reduced s state event id guard expected s' := by
  rw [assertAdmissionProjection] at h
  split at h
  · cases h
  · rename_i st hstep
    cases guard with
    | false => cases hstep
    | true =>
        split at h
        · rename_i hproject
          exact ⟨rfl, ⟨st, hstep, hproject⟩, enqueueNotification_eq h⟩
        · cases h

theorem admissionIdentity_eq {o : Orbit} {id : AdmissionIdentity}
    (h : admissionIdentity o = .ok id) :
    id = ⟨o.requestId.getD (RequestId.internal o.orbitId), o.requestGeneration, o.orbitId⟩ := by
  rw [admissionIdentity] at h
  split at h
  · cases h
    rfl
  · rw [Outcome.bind_eq_ok] at h
    obtain ⟨-, -, h⟩ := h
    cases h
    rfl

/-- The reduction of an event of a row. -/
theorem Reduced.announces {o : Orbit} {state : SemanticState} {event : AdmissionEvent}
    {id : AdmissionIdentity} {guard : Bool} {expected : Option OrbitState}
    (h : Reduced s state event id guard expected s') (identity : admissionIdentity o = .ok id) :
    s' = s.announce (if event.notifies then [o.news event] else []) := by
  rw [h.store, admissionIdentity_eq identity]
  rfl

/-- A notifying event of a row. -/
theorem Reduced.announced {o o' : Orbit} {event : AdmissionEvent} {id : AdmissionIdentity}
    {guard : Bool} {target : OrbitState}
    (h : Reduced s o.state.semantic event id guard (some target) s') (kind : o.kind = .orbit)
    (notifies : event.notifies = true) (state : o'.state = target)
    (decision : o'.decisionType = some event) : Announced o o' [o.news event] := by
  obtain ⟨st, step, project⟩ := h.step
  exact .event kind notifies step (project.trans (congrArg some state.symm)) decision

theorem reduceOrbitLifecycle_spec {o : Orbit} {event : AdmissionEvent} {guard : Bool}
    (h : reduceOrbitLifecycle s o event guard = .ok s') :
    ∃ id target, admissionIdentity o = .ok id ∧ lifecycleTarget event = some target ∧
      Reduced s o.state.semantic event id guard (some target) s' := by
  rw [reduceOrbitLifecycle] at h
  split at h
  · cases h
  · rename_i target htarget
    rw [Outcome.bind_eq_ok] at h
    obtain ⟨id, hid, h⟩ := h
    exact ⟨id, target, hid, htarget, assertAdmissionProjection_spec h⟩

/-- The write of a row with its event, after changes that touch no row. -/
theorem Wrote.reduced {c : Scope} {E : TaskId → Prop} {s₀ s₁ : Store} {o : Orbit}
    {f : Orbit → Orbit} {state : SemanticState} {event : AdmissionEvent} {id : AdmissionIdentity}
    {guard : Bool} {target : OrbitState} (before : Frame s s₀)
    (h : Reduced s₀ state event id guard (some target) s₁)
    (identity : admissionIdentity o = .ok id) (now : state = o.state.semantic)
    (kind : o.kind = .orbit) (notifies : event.notifies = true) (after : (f o).state = target)
    (decision : (f o).decisionType = some event) (step : OrbitStep c E s o (f o)) :
    Wrote c E s o (s₁.setOrbit o.orbitId f) := by
  subst now
  refine .row f [o.news event] step (h.announced kind notifies after decision) ?_
  rw [h.announces identity, if_pos notifies]
  exact frame_setOrbit (frame_announce before _) _ _

/-- The write of a row that stays in its state, after changes that touch no row. -/
theorem Wrote.silent {c : Scope} {E : TaskId → Prop} {s₁ : Store} {o : Orbit} {f : Orbit → Orbit}
    (before : Frame s s₁) (silent : Announced o (f o) []) (step : OrbitStep c E s o (f o)) :
    Wrote c E s o (s₁.setOrbit o.orbitId f) := by
  refine .row f [] step silent ?_
  rw [announce_nil]
  exact frame_setOrbit before _ _

/-- An event that notifies nobody leaves the store. -/
theorem Reduced.silent {state : SemanticState} {event : AdmissionEvent} {id : AdmissionIdentity}
    {guard : Bool} {expected : Option OrbitState} (h : Reduced s state event id guard expected s')
    (silent : event.notifies = false) : s' = s := by
  rw [h.store, silent]
  exact announce_nil s

/-- The store has the barrier, in this state. -/
def Store.Shows (s : Store) (b : Barrier) : Prop :=
  ∃ r ∈ s.barriers, r.key = b.key ∧ r.state = b.state

theorem Store.shows_of_mem {b : Barrier} (hb : b ∈ s.barriers) : s.Shows b := ⟨b, hb, rfl, rfl⟩

theorem mem_partiesOf {id : BarrierId} {generation : ℕ} {p : BarrierParty} :
    p ∈ s.partiesOf id generation ↔
      p ∈ s.barrierParties ∧ p.barrierId = id ∧ p.generation = generation := by
  rw [Store.partiesOf, List.mem_insertionSort, List.mem_filter, Bool.and_eq_true,
    decide_eq_true_eq, decide_eq_true_eq]

/-- The parties of a generation are the rows under its number. -/
theorem partyTo_iff {b : Barrier} {task : TaskId} : PartyTo s.barrierParties b.key task ↔
    ∃ p ∈ s.partiesOf b.barrierId b.generation, p.taskId = task := by
  refine exists_congr fun p => ?_
  rw [mem_partiesOf]
  exact ⟨fun h => ⟨⟨h.1, h.2.1, h.2.2.1⟩, h.2.2.2⟩, fun h => ⟨h.1.1, h.1.2.1, h.1.2.2, h.2⟩⟩

theorem Store.wasMerged_of_get {task : TaskId}
    (h : (s.getTask task).map Task.state = some .MERGED) :
    WasMerged s.tasks s.tasksArchive task := by
  obtain ⟨t, found, state⟩ := Option.map_eq_some_iff.mp h
  exact ⟨t, List.mem_append_left _ (Table.mem_of_get found), Table.key_of_get found, state⟩

/-- A barrier goes on with its life. -/
theorem frame_advance {b : Barrier} {f : Barrier → Barrier} {trigger : BarrierTrigger}
    {state : BarrierState} (current : s.Shows b)
    (advance : advanceBarrier b.state trigger = .ok state)
    (keeps : ∀ r, (f r).key = r.key ∧ (f r).terms = r.terms ∧ (f r).state = state)
    (trips : state.tripped = true → b.state.tripped = true ∨
      ∀ task, PartyTo s.barrierParties b.key task → WasMerged s.tasks s.tasksArchive task) :
    Frame s (s.setBarrier b.barrierId f) where
  barriers := map_setBarrier s b.barrierId fun r => (keeps r).1
  terms := map_setBarrier s b.barrierId fun r => (keeps r).2.1
  gather := by
    intro distinct b' hb'
    obtain ⟨r, hr, key, shown⟩ := current
    rcases Table.mem_modify.mp hb' with ⟨hb', -⟩ | ⟨r', hr', id, rfl⟩
    · exact ⟨b', hb', .refl _ _ _⟩
    · have same : r = r' := distinct.eq hr hr' ((congrArg Prod.fst key).trans id.symm)
      subst same
      refine ⟨r, hr, (keeps r).1, .single ⟨trigger, ?_⟩, fun _ _ => Iff.rfl, ?_⟩
      · rw [shown, (keeps r).2.2]
        exact advance
      · rw [shown, key, (keeps r).2.2]
        exact trips

theorem frame_breakBarrier {b : Barrier} {reason : String} (current : s.Shows b)
    (h : breakBarrier s b reason = .ok s') : Frame s s' := by
  rw [breakBarrier] at h
  split at h
  · cases h
    exact .refl s
  rw [Outcome.bind_eq_ok] at h
  obtain ⟨state, advance, h⟩ := h
  cases h
  refine frame_advance current advance ?_ fun tripped => ?_
  · exact fun _ => ⟨rfl, rfl, rfl⟩
  · cases hs : b.state <;> rw [hs] at advance <;> cases advance <;> cases tripped

theorem frame_barrierEvalLive {now : Time} {canTrip : Bool} {b : Barrier}
    {plan : Option (List TripStep)} (current : s.Shows b) (armed : b.state = .ARMED)
    (h : barrierEvalLive now canTrip s b = .ok (s', plan)) : Frame s s' := by
  rw [barrierEvalLive] at h
  split at h
  · rw [Outcome.bind_eq_ok] at h
    obtain ⟨s₁, h₁, h⟩ := h
    cases h
    exact frame_breakBarrier current h₁
  split at h
  · rw [Outcome.bind_eq_ok] at h
    obtain ⟨state, advance, h⟩ := h
    cases advance
    cases h
    have fill : advanceBarrier b.state .fill = .ok .TRIPPING := by
      rw [armed]
      rfl
    refine frame_advance current fill ?_ fun tripped => ?_
    · exact fun _ => ⟨rfl, rfl, rfl⟩
    · cases tripped
  · cases h
    exact .refl s

/-- The dead parties of an armed barrier are dropped. -/
theorem frame_shrinkBarrier {b : Barrier} (hb : b ∈ s.barriers) (armed : b.state = .ARMED) :
    Frame s (shrinkBarrier s b) where
  barriers := map_setBarrier s b.barrierId fun _ => rfl
  terms := map_setBarrier s b.barrierId fun _ => rfl
  gather := by
    intro distinct b' hb'
    rcases Table.mem_modify.mp hb' with ⟨hb', other⟩ | ⟨r, hr, id, rfl⟩
    · refine ⟨b', hb', rfl, .refl, fun _ task => ?_, Or.inl⟩
      -- the parties that go are those of the other barrier
      refine exists_congr fun p => ?_
      rw [shrinkBarrier, Store.setBarrier, List.mem_filter]
      refine ⟨fun h => ⟨h.1.1, h.2⟩, fun h => ⟨⟨h.1, ?_⟩, h.2⟩⟩
      have apart : p.barrierId ≠ b.barrierId := fun same => other (h.2.1.symm.trans same)
      simp [apart]
    · have same : b = r := distinct.eq hb hr id.symm
      subst same
      exact ⟨b, hb, rfl, .refl, fun filled => absurd armed filled, Or.inl⟩

/-- The evaluation of a barrier writes barriers and parties only. -/
theorem frame_barrierEval {now : Time} {id : BarrierId} {canTrip : Bool}
    {plan : Option (List TripStep)} (h : barrierEval now s id canTrip = .ok (s', plan)) :
    Frame s s' := by
  rw [barrierEval] at h
  split at h
  · cases h
    exact .refl s
  rename_i b found
  have mem : b ∈ s.barriers := Table.mem_of_get found
  split at h
  · cases h
    exact .refl s
  rename_i armed
  rw [ne_eq, not_not] at armed
  dsimp only at h
  split at h
  · exact frame_barrierEvalLive (s.shows_of_mem mem) armed h
  split at h
  · refine (frame_shrinkBarrier mem armed).trans (frame_barrierEvalLive ?_ armed h)
    exact ⟨_, Table.mem_modify.mpr (Or.inr ⟨b, mem, rfl, rfl⟩), rfl, rfl⟩
  · rw [Outcome.bind_eq_ok] at h
    obtain ⟨s₁, h₁, h⟩ := h
    cases h
    exact frame_breakBarrier (s.shows_of_mem mem) h₁

theorem frame_barrierEvalAll {now : Time} {ids : List BarrierId}
    (h : barrierEvalAll now ids s = .ok s') : Frame s s' := by
  refine frame_foldlM (fun s id s' h => ?_) h
  rw [Outcome.bind_eq_ok] at h
  obtain ⟨⟨s₁, plan⟩, h₁, h⟩ := h
  cases h
  exact frame_barrierEval h₁

end

end Omd
