import Omd.Dependencies

/-!
# The dependency graph

The dependencies of the tasks are the edges of a graph, and a declaration or a new
dependency is checked against it.  The check leaves the old edges of a task in that the
declaration replaces; since the graph has no cycle before, that refuses nothing more.
-/

namespace Omd

open Lib Digraph

variable {cfg : Cfg} {env : Env} {σ σ' : Sys} {a : Action} {c : Scope} {E : TaskId → Prop}
  {s s' : Store}

/-- The dependency graph, as the edges of all rows. -/
def Store.dependencies (s : Store) : List (TaskId × TaskId) :=
  s.tasks.flatMap fun t => t.deps.map fun d => (t.taskId, d)

/-- The dependency graph once the dependencies of a task are these. -/
def Store.redeclared (s : Store) (task : TaskId) (deps : List TaskId) : List (TaskId × TaskId) :=
  ((s.tasks.filter fun t => t.taskId ≠ task).flatMap fun t => t.deps.map fun d => (t.taskId, d)) ++
    deps.map fun d => (task, d)

/-- The write globs and the shared globs of a declaration overlap. -/
def DeclareArgs.overlaps (d : DeclareArgs) : Bool :=
  d.writes.any fun w => d.shared.any fun h => setsOverlap [w] [h]

/-! ## The check -/

theorem mem_sortAgents (l : List AgentId) (x : AgentId) : x ∈ sortAgents l ↔ x ∈ l := by
  simp [sortAgents]

theorem mem_dependencies {x y : TaskId} :
    (x, y) ∈ s.dependencies ↔ ∃ t ∈ s.tasks, t.taskId = x ∧ y ∈ t.deps := by
  simp only [Store.dependencies, List.mem_flatMap, List.mem_map, Prod.mk.injEq]
  constructor
  · rintro ⟨t, ht, d, hd, rfl, rfl⟩
    exact ⟨t, ht, rfl, hd⟩
  · rintro ⟨t, ht, rfl, hd⟩
    exact ⟨t, ht, y, hd, rfl, rfl⟩

theorem mem_redeclared {task : TaskId} {deps : List TaskId} {x y : TaskId} :
    (x, y) ∈ s.redeclared task deps ↔ (x, y) ∈ s.dependencies ∧ x ≠ task ∨ x = task ∧ y ∈ deps := by
  simp only [Store.redeclared, mem_dependencies, List.mem_append, List.mem_flatMap, List.mem_map,
    List.mem_filter, Prod.mk.injEq, decide_eq_true_eq]
  constructor
  · rintro (⟨t, ⟨ht, hne⟩, d, hd, rfl, rfl⟩ | ⟨d, hd, rfl, rfl⟩)
    · exact Or.inl ⟨⟨t, ht, rfl, hd⟩, hne⟩
    · exact Or.inr ⟨rfl, hd⟩
  · rintro (⟨⟨t, ht, rfl, hd⟩, hne⟩ | ⟨rfl, hd⟩)
    · exact Or.inl ⟨t, ⟨ht, hne⟩, y, hd, rfl, rfl⟩
    · exact Or.inr ⟨y, hd, rfl, rfl⟩

theorem depEdges_eq (s : Store) (task : TaskId) (deps : List TaskId) :
    depEdges s task deps = s.dependencies ++ deps.map fun d => (task, d) := rfl

/-- In a graph without cycles the check finds the cycles of the graph that the write leaves. -/
theorem wouldCycle_iff (h : Acyclic s.dependencies) {task : TaskId} {deps : List TaskId} :
    (wouldCycle s task deps).isSome = true ↔ ¬ Acyclic (s.redeclared task deps) := by
  rw [wouldCycle, findCycle_isSome_iff_not_acyclic mem_sortAgents, not_iff_not, depEdges_eq]
  constructor
  · intro union
    refine union.mono fun e he => ?_
    rcases mem_redeclared.mp he with ⟨he, -⟩ | ⟨source, hd⟩
    · exact List.mem_append_left _ he
    · exact List.mem_append_right _ (List.mem_map.mpr ⟨e.2, hd, by rw [← source]⟩)
  · intro replaced
    have new {e : TaskId × TaskId} (he : e ∈ deps.map fun d => (task, d)) :
        e.1 = task ∧ e ∈ s.redeclared task deps := by
      obtain ⟨d, hd, rfl⟩ := List.mem_map.mp he
      exact ⟨rfl, mem_redeclared.mpr (Or.inr ⟨rfl, hd⟩)⟩
    refine Acyclic.union task h replaced (fun e he hne => ?_) fun e he => ?_
    · rcases List.mem_append.mp he with he | he
      · exact ⟨he, mem_redeclared.mpr (Or.inl ⟨he, hne⟩)⟩
      · exact absurd (new he).1 hne
    · rcases List.mem_append.mp he with he | he
      · exact Or.inl he
      · exact Or.inr (new he).2

/-! ## The verbs -/

/-- A declaration is refused when its globs overlap, or its dependencies close a cycle. -/
theorem declare_refused_iff (h : Acyclic s.dependencies) (now : Time) (d : DeclareArgs) :
    (declare now s d).2.ok = some false ↔
      d.overlaps = true ∨ ¬ Acyclic (s.redeclared d.taskId (d.deps.getD [])) := by
  have check : (wouldCycle s d.taskId (d.deps.getD [])).isSome = true ↔ _ := wouldCycle_iff h
  rw [← check]
  unfold declare DeclareArgs.overlaps
  split
  · rename_i overlaps
    simp [overlaps, Reply.refuse]
  · rename_i apart
    rw [Bool.not_eq_true] at apart
    split
    · rename_i cycle
      simp [cycle.2, Reply.refuse]
    · rename_i none
      rw [not_and'] at none
      have acyclic : ¬ (wouldCycle s d.taskId (d.deps.getD [])).isSome = true := by
        intro cycle
        have empty : d.deps.getD [] = [] := not_not.mp (none cycle)
        refine check.mp cycle (h.mono fun e he => ?_)
        rcases mem_redeclared.mp he with ⟨he, -⟩ | ⟨-, he⟩
        · exact he
        · rw [empty] at he
          cases he
      simp [apart, acyclic]

/-- A refused declaration writes nothing, and an accepted one leaves no cycle. -/
theorem declare_acyclic (h : Acyclic s.dependencies) (now : Time) (d : DeclareArgs) :
    Acyclic (declare now s d).1.dependencies := by
  unfold declare
  split
  · exact h
  split
  · exact h
  · rename_i none
    have replaced : Acyclic (s.redeclared d.taskId (d.deps.getD [])) := by
      by_cases empty : d.deps.getD [] = []
      · refine h.mono fun e he => ?_
        rcases mem_redeclared.mp he with ⟨he, -⟩ | ⟨-, he⟩
        · exact he
        · rw [empty] at he
          cases he
      · exact not_not.mp fun cycle => none ⟨empty, (wouldCycle_iff h).mpr cycle⟩
    refine replaced.mono fun e he => ?_
    obtain ⟨t', ht', id, hd⟩ := mem_dependencies.mp he
    rw [mem_redeclared, mem_dependencies]
    rw [Store.addTask] at ht'
    split at ht'
    · rename_i new
      rcases List.mem_append.mp ht' with ht | ht
      · exact Or.inl ⟨⟨t', ht, id, hd⟩, id ▸ Table.get_eq_none.mp new t' ht⟩
      · rw [List.mem_singleton.mp ht] at id hd
        exact Or.inr ⟨id.symm, hd⟩
    · rcases Table.mem_modify.mp ht' with ⟨ht, hne⟩ | ⟨t, -, key, rfl⟩
      · exact Or.inl ⟨⟨t', ht, id, hd⟩, id ▸ hne⟩
      · exact Or.inr ⟨id.symm.trans key, hd⟩

theorem depend_refused_iff (h : Acyclic s.dependencies) {task : TaskId} {t : Task} (ok : s.Ok)
    (row : s.getTask task = some t) (after : TaskId) :
    (depend s task after).2.ok = some false ↔
      ¬ Acyclic (s.redeclared task (t.deps ++ [after])) := by
  rw [← wouldCycle_iff h, depend, row]
  dsimp only
  obtain ⟨ht, hid⟩ := ok.getTask.mp row
  split
  · rename_i known
    refine iff_of_false (by simp) fun cycle => ?_
    refine (wouldCycle_iff h).mp cycle (h.mono fun e he => ?_)
    rcases mem_redeclared.mp he with ⟨he, -⟩ | ⟨source, he⟩
    · exact he
    · refine mem_dependencies.mpr ⟨t, ht, hid.trans source.symm, ?_⟩
      rcases List.mem_append.mp he with he | he
      · exact he
      · rwa [List.mem_singleton.mp he]
  split
  · rename_i cycle
    simp [cycle, Reply.refuse]
  · rename_i none
    simp [none]

theorem depend_acyclic (h : Acyclic s.dependencies) (task after : TaskId) :
    Acyclic (depend s task after).1.dependencies := by
  rw [depend]
  split
  · exact h
  rename_i t row
  split
  · exact h
  split
  · exact h
  · rename_i none
    have replaced : Acyclic (s.redeclared task (t.deps ++ [after])) :=
      not_not.mp fun cycle => none ((wouldCycle_iff h).mpr cycle)
    refine replaced.mono fun e he => ?_
    obtain ⟨t', ht', id, hd⟩ := mem_dependencies.mp he
    rw [mem_redeclared, mem_dependencies]
    rcases Table.mem_modify.mp ht' with ⟨ht, hne⟩ | ⟨t₀, -, key, rfl⟩
    · exact Or.inl ⟨⟨t', ht, id, hd⟩, id ▸ hne⟩
    · exact Or.inr ⟨id.symm.trans key, hd⟩

/-- What is refused is not written. -/
theorem declare_refused (now : Time) (d : DeclareArgs)
    (h : (declare now s d).2.ok = some false) : (declare now s d).1 = s := by
  rw [declare] at h ⊢
  split
  · rfl
  rename_i apart
  rw [if_neg apart] at h
  split
  · rfl
  · rename_i none
    rw [if_neg none] at h
    cases h

theorem depend_refused (task after : TaskId) (h : (depend s task after).2.ok = some false) :
    (depend s task after).1 = s := by
  rw [depend] at h ⊢
  split
  · rfl
  rename_i t row
  simp only [row] at h
  split
  · rfl
  rename_i new
  rw [if_neg new] at h
  split
  · rfl
  · rename_i none
    rw [if_neg none] at h
    cases h

/-! ## The other actions -/

/-- Only a declaration and a new dependency write what a task depends on. -/
theorem Licence.declares {task : TaskId} {deps : List TaskId} {reads : List String}
    (h : Licence cfg env σ a (.declare task deps reads)) :
    (∃ d, σ.declaration a = some d) ∨ ∃ task after, a = .call (.depend task after) := by
  cases h with
  | declare ha =>
      subst ha
      exact Or.inl ⟨_, rfl⟩
  | depend ha => exact Or.inr ⟨_, _, ha⟩
  | begin cut =>
      obtain ⟨i, rfl, hi⟩ := cut
      exact Or.inl ⟨_, by simp [Sys.declaration, hi]; rfl⟩

/-- A change without a declaration adds no edge. -/
theorem Micro.dependencies (h : Micro c E s s') (ok : s.Ok)
    (no : ∀ task deps reads, ¬ c.may (.declare task deps reads)) :
    ∀ e ∈ s'.dependencies, e ∈ s.dependencies := by
  intro e he
  obtain ⟨t', ht', id, hd⟩ := mem_dependencies.mp he
  rcases (h.tasks ok).back ht' with ⟨t, ht, step⟩ | row
  · cases step.declared with
    | same deps => exact mem_dependencies.mpr ⟨t, ht, step.id.symm.trans id, deps ▸ hd⟩
    | declare may => exact absurd may (no _ _ _)
    | reopen _ _ deps =>
        rw [deps] at hd
        cases hd
  · rcases row.may with may | ⟨-, deps⟩
    · exact absurd may (no _ _ _)
    · rw [deps] at hd
      cases hd

theorem Stepped.dependencies (h : Stepped cfg env σ a s') (ok : σ.store.Ok)
    (decl : σ.declaration a = none) (depend : ∀ task after, a ≠ .call (.depend task after)) :
    ∀ e ∈ s'.dependencies, e ∈ σ.store.dependencies := by
  refine h.invariant (I := fun s => ∀ e ∈ s.dependencies, e ∈ σ.store.dependencies)
    (fun may E s₁ s₂ licensed ok₁ ih step e he => ?_) ok fun e he => he
  refine ih e (step.dependencies ok₁ (fun task deps reads m => ?_) e he)
  rcases (licensed _ m).declares with ⟨d, hd⟩ | ⟨task, after, ha⟩
  · rw [decl] at hd
    cases hd
  · exact depend task after ha

theorem step_acyclic (ok : σ.Ok) (h : Acyclic σ.store.dependencies)
    (hstep : step cfg env σ a = .ok σ') : Acyclic σ'.store.dependencies := by
  cases decl : σ.declaration a with
  | some d =>
      rw [step_declaration hstep decl]
      exact declare_acyclic h env.now d
  | none =>
      by_cases depends : ∃ task after, a = .call (.depend task after)
      · obtain ⟨task, after, rfl⟩ := depends
        cases hstep
        exact depend_acyclic h task after
      · refine h.mono ((step_spec ok hstep).1.dependencies ok.store decl fun task after eq => ?_)
        exact depends ⟨task, after, eq⟩

/-! ## Runs -/

/-- The dependency graph is acyclic in every run; a declaration is refused exactly when its
globs overlap or it would close a cycle, a dependency exactly when it would; what is refused
is not written; and the search answers with a closed walk exactly when there is one. -/
theorem dependencies_dag (reachable : Reachable cfg σ) : Acyclic σ.store.dependencies ∧
    (∀ now d, ((declare now σ.store d).2.ok = some false ↔ d.overlaps = true ∨
      ¬ Acyclic (σ.store.redeclared d.taskId (d.deps.getD []))) ∧
      ((declare now σ.store d).2.ok = some false → (declare now σ.store d).1 = σ.store)) ∧
    (∀ task after, (∀ t, σ.store.getTask task = some t →
      ((depend σ.store task after).2.ok = some false ↔
        ¬ Acyclic (σ.store.redeclared task (t.deps ++ [after])))) ∧
      ((depend σ.store task after).2.ok = some false →
        (depend σ.store task after).1 = σ.store)) ∧
    ∀ edges : List (TaskId × TaskId),
      (∀ c, findCycle edges sortAgents = some c → ClosedWalk edges c) ∧
        ((findCycle edges sortAgents).isSome = true ↔ ∃ c, ClosedWalk edges c) := by
  have ok := reachable.ok
  have acyclic : Acyclic σ.store.dependencies := by
    refine (Transition.Run.invariant (I := fun τ : Sys => τ.Ok ∧ Acyclic τ.store.dependencies)
      (fun τ l τ' ih _ h => ?_) reachable ⟨.empty, acyclic_nil⟩).2
    have h : step cfg l.1 τ l.2 = .ok τ' := h
    exact ⟨(step_spec ih.1 h).2, step_acyclic ih.1 ih.2 h⟩
  refine ⟨acyclic, fun now d => ?_, fun task after => ?_, fun edges => ?_⟩
  · exact ⟨declare_refused_iff acyclic now d, declare_refused now d⟩
  · exact ⟨fun t row => depend_refused_iff acyclic ok.store row after, depend_refused task after⟩
  · exact ⟨fun c hc => findCycle_some mem_sortAgents hc, findCycle_isSome_iff mem_sortAgents⟩

/-- Of two tasks, one waits for the other, and the edge back is refused. -/
theorem mutualWaits_dag : ∃ σ, Reachable {} σ ∧ Acyclic σ.store.dependencies ∧
    ¬ Acyclic (σ.store.redeclared "A" ["B"]) := by
  have run : ∃ σ, Reachable {} σ ∧ (depend σ.store "A" "B").2.ok = some false ∧
      σ.store.getTask "A" = some { taskId := "A", state := .PENDING, createdAt := 1 } :=
    exists_reachable [
      (Action.call (.declare { taskId := "A" })).at 1,
      (Action.call (.declare { taskId := "B", deps := some ["A"] })).at 2]
      (by decide +kernel)
  obtain ⟨σ, reachable, refused, row⟩ := run
  have dag := dependencies_dag reachable
  exact ⟨σ, reachable, dag.1, ((dag.2.2.1 "A" "B").1 _ row).mp refused⟩

end Omd
