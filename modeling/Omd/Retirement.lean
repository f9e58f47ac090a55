import Omd.Steps

/-!
# What is left of a retired agent

No change of the store gives a retired agent its row back, and none gives it anything: who
a row is inserted for, promoted for or starts a task was alive, and a waiter that waits is
of an agent that is not retired.  An agent that retires has nothing.
-/

namespace Omd

open Lib

variable {cfg : Cfg} {c : Scope} {E : TaskId → Prop} {s s' : Store} {agent : AgentId}

namespace Store

/-- The agent has no authority and waits for none. -/
structure Bereft (s : Store) (agent : AgentId) : Prop where
  orbits : ∀ o ∈ s.orbits, o.agentId = agent → o.kind = .orbit →
    o.state ≠ .HELD ∧ o.state ≠ .PENDING
  permits : ∀ o ∈ s.orbits, o.agentId = agent → o.kind = .sem_permit → o.state ≠ .HELD
  leases : ∀ o ∈ s.orbits, o.agentId = agent → o.kind = .flag_ephemeral → o.state ≠ .HELD
  waiters : ∀ w ∈ s.semWaiters, w.agentId = agent → w.state ≠ .WAITING
  tasks : ∀ t ∈ s.tasks, t.agentId = some agent → t.state ≠ .CLAIMED ∧ t.state ≠ .IN_ORBIT

theorem Retired.not_alive (h : s.Retired agent) : ¬ s.Alive agent := by
  obtain ⟨a, ha, hid, state⟩ := h
  exact fun alive => alive a ha hid state

theorem Vacant.bereft (h : s.Vacant agent) : s.Bereft agent where
  orbits := fun o ho owner kind => by
    refine ⟨h.held o ho owner, fun state => ?_⟩
    simpa [Orbit.isPending, kind, state] using h.pending o ho owner
  permits := fun o ho owner _ => h.held o ho owner
  leases := fun o ho owner _ => h.held o ho owner
  waiters := h.waiters
  tasks := fun t ht owner => by
    have idle := h.tasks t ht owner
    constructor
    · intro state
      rw [state] at idle
      cases idle
    · intro state
      rw [state] at idle
      cases idle

end Store

/-! ## One change -/

/-- A row that holds or waits after a change did before, or it was promoted. -/
theorem OrbitChange.lives {o o' : Orbit} (h : OrbitChange c E s o o')
    (live : o'.state.terminal = false) : o'.state = o.state ∨
      ∃ a ∈ s.agents, a.agentId = o.agentId ∧ a.state = .WORKING := by
  cases h with
  | keep state | rebind _ _ state => exact Or.inl state
  | promote _ _ _ owner => exact Or.inr owner
  | expire _ state | deny _ state | release _ _ _ _ state =>
      rw [state] at live
      cases live
  | lease _ _ state | permit _ _ _ _ state | cancelled _ _ _ _ _ state | reclaimed _ _ _ state
  | token _ _ _ state =>
      rw [state] at live
      cases live
  | attempt _ _ _ state =>
      rcases state with state | ⟨-, state, -⟩
      · exact Or.inl state
      · rw [state] at live
        cases live

/-- Whoever is retired after a change was so before, or had nothing left. -/
theorem Micro.retires (ok : s.Ok) (h : Micro c E s s') (retired : s'.Retired agent) :
    s.Retired agent ∨ s.Vacant agent ∧ Frame { s with agents := s'.agents } s' := by
  obtain ⟨r, hr, rfl, retired⟩ := retired
  cases h with
  | enroll _ a new state frame =>
      rw [frame.agents] at hr
      rcases List.mem_append.mp hr with hr | hr
      · exact Or.inl ⟨r, hr, rfl, retired⟩
      · rw [List.mem_singleton.mp hr, state] at retired
        cases retired
  | agent _ id f step frame =>
      rw [frame.agents] at hr
      rcases Table.mem_modify.mp hr with ⟨hr, -⟩ | ⟨a, ha, hid, rfl⟩
      · exact Or.inl ⟨r, hr, rfl, retired⟩
      · have h := step a (ok.getAgent.mpr ⟨ha, hid⟩)
        rw [h.id]
        rcases h.state with state | ⟨-, vacant⟩
        · exact Or.inl ⟨a, ha, rfl, state.symm.trans retired⟩
        · exact Or.inr ⟨vacant retired, { frame with agents := rfl }⟩
  | frame frame | orbit _ _ _ _ _ _ frame | insert _ _ _ _ _ _ _ _ frame | reject _ _ _ _ frame
  | summary _ _ _ frame | task _ _ _ frame | declare _ _ frame | publish _ _ _ frame
  | request _ frame | waiters _ frame | slots _ _ _ _ frame | flags _ frame
  | arm _ _ _ _ _ _ _ _ frame | trip _ _ _ frame | stamp _ frame
  | archiveTasks _ _ _ _ frame | archiveOrbits _ _ _ frame =>
      exact Or.inl ⟨r, frame.agents ▸ hr, rfl, retired⟩

/-- A waiter that waits did before, or its agent is alive. -/
theorem Micro.waiting (h : Micro c E s s') (ok : s.Ok) {w : SemWaiter} (hw : w ∈ s'.semWaiters)
    (waiting : w.state = .WAITING) : w ∈ s.semWaiters ∨ s.Alive w.agentId :=
  ((h.line ok).waiting hw waiting).imp_right NewWaiter.alive

/-- A task that an agent has claimed or started was its before, or the agent is alive. -/
theorem TaskChange.claimed {t t' : Task} (h : TaskChange c E s t t')
    (claimed : t'.state = .CLAIMED ∨ t'.state = .IN_ORBIT) :
    t'.state = t.state ∧ t'.agentId = t.agentId ∨ ∃ a, t'.agentId = some a ∧ s.Alive a := by
  cases h with
  | keep state agent | sync state agent | refresh _ state agent => exact Or.inl ⟨state, agent⟩
  | start _ _ _ owner => exact Or.inr owner
  | ready _ _ state | finish _ state | abort _ _ state => simp [state] at claimed
  | reclaim _ _ _ requeued =>
      rcases requeued.state with ⟨state, -⟩ | ⟨state, -⟩ <;> simp [state] at claimed
  | attempt _ state =>
      rcases state with ⟨-, state⟩ | ⟨-, state | state | state⟩ <;> simp [state] at claimed

/-- A change gives a retired agent nothing. -/
theorem Store.Bereft.micro (h : s.Bereft agent) (retired : s.Retired agent) (ok : s.Ok)
    (step : Micro c E s s') : s'.Bereft agent := by
  have dead := retired.not_alive
  have unwatched : ¬ ∃ w ∈ s.semWaiters, w.agentId = agent ∧ w.state = .WAITING :=
    fun ⟨w, hw, owner, state⟩ => h.waiters w hw owner state
  -- a row that holds or waits was there, and did
  have live {o' : Orbit} (ho' : o' ∈ s'.orbits) (owner : o'.agentId = agent)
      (kind : o'.kind ≠ .merge_token) (state : o'.state.terminal = false) :
      ∃ o ∈ s.orbits, o.agentId = agent ∧ o.kind = o'.kind ∧ o.state = o'.state := by
    rcases (step.orbits ok).back ho' with ⟨o, ho, h⟩ | ⟨row, -⟩
    · have owner₀ : o.agentId = agent := h.row.agentId ▸ owner
      rcases h.change.lives state with same | ⟨a, ha, hid, working⟩
      · exact ⟨o, ho, owner₀, h.row.kind.symm, same.symm⟩
      · obtain ⟨a', ha', hid', retired⟩ := retired
        rw [ok.agentIds.eq ha ha' (hid.trans (owner₀.trans hid'.symm)), retired] at working
        cases working
    · cases row with
      | held claimed | queued claimed => exact absurd (owner ▸ claimed.owner) dead
      | permit _ _ _ owner' =>
          rcases owner' with alive | waiter
          · exact absurd (owner ▸ alive) dead
          · exact absurd (owner ▸ waiter) unwatched
      | lease _ _ _ alive => exact absurd (owner ▸ alive) dead
      | token kind' => exact absurd kind' kind
  refine ⟨fun o' ho' owner kind => ⟨fun state => ?_, fun state => ?_⟩,
    fun o' ho' owner kind state => ?_, fun o' ho' owner kind state => ?_,
    fun w' hw' owner state => ?_, fun t' ht' owner => ?_⟩
  · obtain ⟨o, ho, owner₀, kind₀, state₀⟩ := live ho' owner (by simp [kind]) (by rw [state]; rfl)
    exact (h.orbits o ho owner₀ (kind₀.trans kind)).1 (state₀.trans state)
  · obtain ⟨o, ho, owner₀, kind₀, state₀⟩ := live ho' owner (by simp [kind]) (by rw [state]; rfl)
    exact (h.orbits o ho owner₀ (kind₀.trans kind)).2 (state₀.trans state)
  · obtain ⟨o, ho, owner₀, kind₀, state₀⟩ := live ho' owner (by simp [kind]) (by rw [state]; rfl)
    exact h.permits o ho owner₀ (kind₀.trans kind) (state₀.trans state)
  · obtain ⟨o, ho, owner₀, kind₀, state₀⟩ := live ho' owner (by simp [kind]) (by rw [state]; rfl)
    exact h.leases o ho owner₀ (kind₀.trans kind) (state₀.trans state)
  · rcases step.waiting ok hw' state with hw | alive
    · exact h.waiters w' hw owner state
    · exact absurd (owner ▸ alive) dead
  · rw [← not_or]
    intro claimed
    rcases (step.tasks ok).back ht' with ⟨t, ht, h₁⟩ | row
    · rcases h₁.change.claimed claimed with ⟨state, same⟩ | ⟨a, some, alive⟩
      · rw [state] at claimed
        exact not_or.mpr (h.tasks t ht (same ▸ owner)) claimed
      · cases some.symm.trans owner
        exact absurd alive dead
    · simp [row.state] at claimed

/-! ## Runs -/

/-- Every retired agent is bereft. -/
def Store.NoOrphan (s : Store) : Prop := ∀ agent, s.Retired agent → s.Bereft agent

theorem Store.NoOrphan.micro (h : s.NoOrphan) (ok : s.Ok) (step : Micro c E s s') :
    s'.NoOrphan := by
  intro agent retired
  rcases step.retires ok retired with before | ⟨vacant, frame⟩
  · exact (h agent before).micro before ok step
  · have bereft := vacant.bereft
    exact ⟨frame.orbits ▸ bereft.orbits, frame.orbits ▸ bereft.permits,
      frame.orbits ▸ bereft.leases, frame.semWaiters ▸ bereft.waiters, frame.tasks ▸ bereft.tasks⟩

/-- An agent that is retired stays so in every run that goes on, and has nothing. -/
theorem retired_for_good {σ σ' : Sys} (reachable : Reachable cfg σ)
    (run : Transition.Run (Step cfg) (fun _ _ => True) σ σ') (retired : σ.store.Retired agent) :
    σ'.store.Retired agent ∧ σ'.store.Bereft agent := by
  have later : σ'.store.Retired agent :=
    reachable.ok.run_invariant (I := fun s => s.Retired agent)
      (fun _ _ _ _ ok retired step => retired.micro ok step) run retired
  have orphans : σ'.store.NoOrphan :=
    Sys.Ok.empty.run_invariant (I := Store.NoOrphan) (fun _ _ _ _ ok h step => h.micro ok step)
      (reachable.trans run) (by rintro agent ⟨a, ha, -⟩; cases ha)
  exact ⟨later, orphans agent later⟩

instance : Decidable (s.Retired agent) :=
  inferInstanceAs (Decidable (∃ a ∈ s.agents, a.agentId = agent ∧ a.state = .RETIRED))

/-- An agent that claims, starts its task and falls silent. -/
def silentAgent : List (Env × Action) :=
  [ (Action.call (.declare { taskId := "T", writes := ["a"] })).at 1,
    (Action.call .nextTask).at 2,
    (Action.call (.claim { agentId := "A", pathspec := ["a"], taskId := some "T" })).at 3,
    (Action.call (.start "T" "A" none none)).at 4,
    (Action.call .reclaimZombies).at 500 ]

theorem silentAgent_retired : ∃ σ, Reachable {} σ ∧ σ.store.Retired "A" ∧ σ.store.Bereft "A" := by
  have run : ∃ σ, Reachable {} σ ∧ σ.store.Retired "A" :=
    exists_reachable silentAgent (by decide +kernel)
  obtain ⟨σ, reachable, retired⟩ := run
  exact ⟨σ, reachable, retired_for_good reachable (.refl σ) retired⟩

end Omd
