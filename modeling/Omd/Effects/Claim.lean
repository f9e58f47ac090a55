import Omd.Effects.Requests
import Mathlib.Data.String.Basic

/-!
# The effect of a claim

A claim inserts at most one row, which is validated, has the next ticket, and is held only
on a grant of the admission kernel.
-/

namespace Omd

open Lib

variable {c : Scope} {E : TaskId → Prop} {s s' : Store}

/-! ## Validation -/

/-- Normalizing sorts the globs and drops what is said twice. -/
theorem normalizePathspec_mem {raw paths : List String} (h : normalizePathspec raw = .ok paths)
    (p : String) : p ∈ paths ↔ p ∈ raw := by
  rw [normalizePathspec] at h
  split at h
  · cases h
  · cases h
    rw [List.mem_insertionSort, List.mem_dedup]

/-- What is normalised is sorted and has no path twice. -/
theorem normalizePathspec_sorted {raw paths : List String}
    (h : normalizePathspec raw = .ok paths) :
    paths.Pairwise (fun p q => p ≤ q) ∧ paths.Nodup := by
  rw [normalizePathspec] at h
  split at h
  · cases h
  · cases h
    have total : Std.Total fun p q : String => p ≤ q := ⟨fun p q => le_total p q⟩
    have trans : IsTrans String fun p q => p ≤ q := ⟨fun _ _ _ => le_trans⟩
    exact ⟨List.pairwise_insertionSort _ _,
      (List.perm_insertionSort _ _).nodup_iff.mpr (List.nodup_dedup raw)⟩

/-- What was normalised stays as it is. -/
theorem normalizePathspec_idem {raw paths : List String}
    (h : normalizePathspec raw = .ok paths) : normalizePathspec paths = .ok paths := by
  obtain ⟨sorted, nodup⟩ := normalizePathspec_sorted h
  have same : paths.dedup.insertionSort (· ≤ ·) = paths := by
    rw [nodup.dedup]
    exact List.Pairwise.insertionSort_eq sorted
  rw [normalizePathspec] at h
  split at h
  · cases h
  · rename_i hok
    rw [normalizePathspec, same]
    cases h
    exact if_neg hok

/-- A validated claim has a normalised pathspec. -/
theorem ClaimArgs.validate_paths {cfg : Cfg} {a b : ClaimArgs} (h : a.validate cfg = .ok b) :
    normalizePathspec b.pathspec = .ok b.pathspec := by
  rw [ClaimArgs.validate] at h
  split at h
  · cases h
  · split at h
    · cases h
    · split at h
      · cases h
      · rename_i paths hpaths
        split at h
        · cases h
        · split at h
          · cases h
          · cases h
            exact normalizePathspec_idem hpaths

/-! ## The row of a claim -/

theorem Micros.integrationGen (h : Micros c nobody s s') :
    s'.integrationGen = s.integrationGen := by
  induction h with
  | refl => rfl
  | tail _ hstep ih =>
      refine Eq.trans ?_ ih
      cases hstep with
      | publish _ _ exempt _ => exact absurd exempt id
      | frame frame | enroll _ _ _ _ frame | agent _ _ _ _ frame | orbit _ _ _ _ _ _ frame
      | insert _ _ _ _ _ _ _ _ frame | reject _ _ _ _ frame | summary _ _ _ frame
      | task _ _ _ frame | declare _ _ frame | request _ frame | waiters _ frame
      | slots _ _ _ _ frame | flags _ frame
      | arm _ _ _ _ _ _ _ _ frame | trip _ _ _ frame | stamp _ frame
      | archiveTasks _ _ _ _ frame | archiveOrbits _ _ _ frame =>
          exact frame.integrationGen

/-- The ticket of the request that is decided next. -/
def Store.ticket (s : Store) (generation bailEpoch : ℕ) (now : Time) : Ticket :=
  ⟨s.uuid, generation, bailEpoch, s.seq + 1, now⟩

/-- What the decision of a claim has settled about its request. -/
structure Admissible (c : Scope) (s : Store) (a : ClaimArgs) (generation : ℕ) : Prop where
  may : c.may .admission
  priority : c.cfg.policy.acceptsBasePriority a.priority = true
  paths : normalizePathspec a.pathspec = .ok a.pathspec
  owner : s.Alive a.agentId
  gate : s.Eligible a.taskId
  named : ∀ id, a.requestId = some id → (c.may (.name id) ∨ s.orbitsOfRequest id ≠ []) ∧
    NextGeneration s id a.taskId generation
  made : a.requestId = none → generation = 0
  alone : ∀ r, s.orbitByIntent a.intentKey = some r → r.agentId ≠ a.agentId

theorem AdmittedFor.congr {o o' : Orbit} (h : AdmittedFor c s o) (orbit : o'.orbitId = o.orbitId)
    (task : o'.taskId = o.taskId) (request : o'.requestId = o.requestId)
    (generation : o'.requestGeneration = o.requestGeneration) : AdmittedFor c s o' := by
  cases h with
  | named same named next =>
      rw [← task, ← generation] at next
      exact .named (request.trans same) named next
  | made own first => exact .made (request.trans (orbit ▸ own)) (generation.trans first)

/-- What is inserted for an admissible claim is a claimed row. -/
theorem Admissible.claimed {a : ClaimArgs} {generation : ℕ} (h : Admissible c s a generation)
    (epoch : ℕ) (state : OrbitState) :
    Claimed c s (a.row c.cfg (s.ticket generation epoch c.now) state) := by
  refine ⟨h.may, rfl, rfl, rfl, rfl, h.priority, h.paths, Option.some_ne_none _, h.owner, h.gate,
    ?_, rfl, rfl, rfl, h.alone⟩
  cases hrequest : a.requestId with
  | none =>
      refine .made ?_ (h.made hrequest)
      simp only [ClaimArgs.row, ClaimArgs.semanticRequest, hrequest, Option.getD_none]
  | some id =>
      obtain ⟨named, next⟩ := h.named id hrequest
      refine .named ?_ named next
      simp only [ClaimArgs.row, ClaimArgs.semanticRequest, hrequest, Option.getD_some]

/-- The row that is granted comes with its event. -/
theorem grantRow_keeps {a : ClaimArgs} {generation epoch : ℕ} {d : AdmissionDecision}
    (request : Admissible c s a generation)
    (decision : admissionDecision c.cfg s a.pathspec a.mode a.priority (some (s.seq + 1))
      (some s.uuid) (some c.cfg.policy.version) (some c.now) c.now = .ok d)
    (grantable : d.grantable = true)
    (h : grantRow c.cfg s.bumpUuid a (s.ticket generation epoch c.now) = .ok s') :
    Keeps c E s s' := by
  rw [grantRow, Outcome.bind_eq_ok] at h
  obtain ⟨s₁, h₁, h⟩ := h
  cases h
  have reduced := assertAdmissionProjection_spec h₁
  obtain ⟨st, step, project⟩ := reduced.step
  have store : s₁ = _ := reduced.store
  subst store
  have drawn : Frame s s.bumpUuid.bumpSeq.bumpFence :=
    ((frame_bumpUuid s).trans (frame_bumpSeq _)).trans (frame_bumpFence _)
  refine .of_micro (.ofRow (.held ?_ rfl ⟨d, decision, grantable⟩)
    (.event rfl rfl step project rfl) rfl (Nat.lt_succ_self _) (fun _ => rfl) (by rintro ⟨⟩)
    (frame_addOrbit (frame_announce drawn _) _)) rfl
  have claimed := request.claimed epoch .HELD
  exact { claimed with request := claimed.request.congr rfl rfl rfl rfl }

theorem syncRead_does {a : ClaimArgs} {gen : ℕ} (hgen : gen ≤ s.integrationGen) :
    Does c E s (syncRead s a gen) := by
  rw [syncRead]
  split
  · split
    · exact .refl s
    · rename_i task _ _ _ t hget
      have current (ok : s.Ok) {r : Task} (hr : r ∈ s.tasks) (hid : r.taskId = task) : r = t :=
        ok.task_eq hr (ok.getTask.mp hget).1 (hid.trans (ok.getTask.mp hget).2.symm)
      split
      · rename_i hnone
        intro ok
        refine Does.setTask (fun r hr hid => ⟨rfl, .same rfl rfl, Or.inl rfl, id, ?_⟩) ok
        refine .sync rfl rfl rfl rfl hgen fun g hg => ?_
        rw [current ok hr hid, hnone] at hg
        cases hg
      · rename_i prev hprev
        split
        · rename_i hlt
          intro ok
          refine Does.setTask (fun r hr hid => ⟨rfl, .same rfl rfl, Or.inl rfl, id, ?_⟩) ok
          refine .sync rfl rfl rfl rfl hgen fun g hg => ?_
          rw [current ok hr hid, hprev] at hg
          cases hg
          exact hlt.le
        · exact .refl s
  · exact .refl s

/-- A grant inserts its row, and then denies the cycles it closes. -/
theorem claimGrant_does {a : ClaimArgs} {generation epoch : ℕ} {d : AdmissionDecision}
    {r : Result} (request : Admissible c s a generation)
    (decision : admissionDecision c.cfg s a.pathspec a.mode a.priority (some (s.seq + 1))
      (some s.uuid) (some c.cfg.policy.version) (some c.now) c.now = .ok d)
    (grantable : d.grantable = true)
    (h : claimGrant c.cfg s.bumpUuid a (s.ticket generation epoch c.now) = .ok (s', r)) :
    Does c nobody s s' := by
  rw [claimGrant, Outcome.bind_eq_ok] at h
  obtain ⟨s₁, h₁, h⟩ := h
  dsimp only at h
  rw [Outcome.bind_eq_ok] at h
  obtain ⟨s₂, h₂, h⟩ := h
  cases h
  have grant := grantRow_keeps (E := nobody) request decision grantable h₁
  have deny := denyReservationCycles_keeps (c := c) (E := nobody) h₂
  intro ok
  have ok₁ := ok.micros (grant ok).1
  have gen : s₁.integrationGen ≤ s₂.integrationGen := (Micros.integrationGen (deny ok₁).1).ge
  exact ((grant ok).1.trans (deny ok₁).1).trans (syncRead_does gen (ok₁.micros (deny ok₁).1))

/-- A full queue inserts no row. -/
theorem claimOverload_keeps {a : ClaimArgs} {generation epoch : ℕ} {terminal : Bool} {r : Result}
    (h : claimOverload s.bumpUuid a (s.ticket generation epoch c.now) terminal = .ok (s', r)) :
    Keeps c E s s' := by
  rw [claimOverload, Outcome.bind_eq_ok] at h
  obtain ⟨s₁, h₁, h⟩ := h
  cases h
  have reduced := assertAdmissionProjection_spec h₁
  have store : s' = _ := reduced.store
  subst store
  exact .of_micro (.reject _ rfl rfl (Nat.lt_succ_self _)
    (frame_announce (frame_bumpUuid s) _)) rfl

/-- The row that is queued comes with its event. -/
theorem queueRow_keeps {a : ClaimArgs} {generation epoch : ℕ} {d : AdmissionDecision}
    (request : Admissible c s a generation)
    (h : queueRow c.cfg s.bumpUuid a (s.ticket generation epoch c.now) d = .ok s') :
    Keeps c E s s' ∧ s'.orbits = s.orbits ++
      [a.pendingRow c.cfg (s.ticket generation epoch c.now) d] := by
  rw [queueRow, Outcome.bind_eq_ok] at h
  obtain ⟨s₁, h₁, h⟩ := h
  cases h
  have reduced := assertAdmissionProjection_spec h₁
  obtain ⟨st, step, project⟩ := reduced.step
  have store : s₁ = _ := reduced.store
  subst store
  have drawn : Frame s s.bumpUuid.bumpSeq := (frame_bumpUuid s).trans (frame_bumpSeq _)
  refine ⟨.of_micro (.ofRow (.queued ?_ rfl rfl) (.event rfl rfl step project rfl) rfl
    (Nat.lt_succ_self _) (fun _ => rfl) (by rintro ⟨⟩)
    (frame_addOrbit (frame_announce drawn _) _)) rfl, rfl⟩
  have claimed := request.claimed epoch .PENDING
  exact { claimed with request := claimed.request.congr rfl rfl rfl rfl }

/-- The row whose queueing closed a cycle is denied. -/
theorem denyQueued_keeps {a : ClaimArgs} {cfg : Cfg} {k : Ticket} {d : AdmissionDecision}
    (queued : s.Ok → ∀ o ∈ s.orbits, o.orbitId = k.orbitId → o = a.pendingRow cfg k d)
    (mem : a.pendingRow cfg k d ∈ s.orbits) (h : denyQueued s a k = .ok s') :
    Keeps c E s s' := by
  rw [denyQueued, Outcome.bind_eq_ok] at h
  obtain ⟨s₁, h₁, h⟩ := h
  cases h
  have reduced := assertAdmissionProjection_spec h₁
  obtain ⟨st, step, project⟩ := reduced.step
  have store : s₁ = _ := reduced.store
  subst store
  intro ok
  have row : ∀ o, s.getOrbit k.orbitId = some o → o = a.pendingRow cfg k d := fun o ho =>
    queued ok o (ok.getOrbit.mp ho).1 (ok.getOrbit.mp ho).2
  refine ⟨.single (.orbit k.orbitId _ _ ?_ ?_ ?_ (.refl _)), rfl⟩
  · intro o ho
    rw [row o ho]
    exact ⟨rfl, .deny rfl rfl, fun _ => .same rfl rfl⟩
  · intro o ho
    cases row o ho
    exact .event rfl rfl step project rfl
  · intro hnone
    have hrow : s.getOrbit k.orbitId = some (a.pendingRow cfg k d) := ok.getOrbit.mpr ⟨mem, rfl⟩
    rw [hrow] at hnone
    cases hnone

theorem claimQueue_keeps {a : ClaimArgs} {generation epoch : ℕ} {d : AdmissionDecision}
    {r : Result} (request : Admissible c s a generation)
    (h : claimQueue c.cfg s.bumpUuid a (s.ticket generation epoch c.now) d = .ok (s', r)) :
    Keeps c E s s' := by
  rw [claimQueue, Outcome.bind_eq_ok] at h
  obtain ⟨s₁, h₁, h⟩ := h
  rw [Outcome.bind_eq_ok] at h
  obtain ⟨cycle, -, h⟩ := h
  obtain ⟨queued, orbits⟩ := queueRow_keeps (E := E) request h₁
  split at h
  · rw [Outcome.bind_eq_ok] at h
    obtain ⟨s₂, h₂, h⟩ := h
    cases h
    have hrow : a.pendingRow c.cfg (s.ticket generation epoch c.now) d ∈ s₁.orbits := by
      simp [orbits]
    exact queued.trans (denyQueued_keeps (fun ok o ho hid => ok.orbit_eq ho hrow hid) hrow h₂)
  · cases h
    exact queued

/-- The decision grants, queues or turns away. -/
theorem claimDecide_takes {a : ClaimArgs} {generation epoch : ℕ} {rollover : Bool} {r : Result}
    (request : Admissible c s a generation)
    (h : claimDecide c.cfg s a generation epoch rollover c.now = .ok (s', r)) :
    Takes c s s' := by
  rw [claimDecide, Outcome.bind_eq_ok] at h
  obtain ⟨d, hd, h⟩ := h
  split at h
  · rename_i grantable
    exact (claimGrant_does request hd grantable h).takes
  · split at h
    · exact (claimOverload_keeps h).takes
    · exact (claimQueue_keeps request h).takes

/-! ## Callers that are alive -/

theorem state_of_checkAlive {agent : AgentId} {epoch : Option ℕ}
    (h : checkAlive s (some agent) epoch = none) {row : Agent}
    (hrow : s.getAgent agent = some row) : row.state ≠ .RETIRED := by
  intro hstate
  simp only [checkAlive, Option.bind_some, hrow, hstate, AgentState.reclaimed, if_true] at h
  cases h

theorem Store.Ok.alive (ok : s.Ok) {agent : AgentId} {epoch : Option ℕ}
    (h : checkAlive s (some agent) epoch = none) : s.Alive agent :=
  fun _ ha hid => state_of_checkAlive h (ok.getAgent.mpr ⟨ha, hid⟩)

/-- The refusal of a dead agent has no state. -/
theorem state_of_dead {agent : Option AgentId} {epoch : Option ℕ} {r : Reply}
    (h : checkAlive s agent epoch = some r) : r.state = none := by
  rw [checkAlive] at h
  split at h
  · cases h
  split at h
  · cases h
    rfl
  split at h
  · cases h
  split at h
  · cases h
    rfl
  · cases h

/-- Who was not retired is not retired after a call of whoever. -/
theorem ok_of_dead {agent : Option AgentId} {epoch : Option ℕ} {r : Reply}
    (h : checkAlive s agent epoch = some r) : r.ok = some false := by
  rw [checkAlive] at h
  split at h
  · cases h
  split at h
  · cases h
    rfl
  split at h
  · cases h
  split at h
  · cases h
    rfl
  · cases h

theorem Store.Alive.upsertAgent {agent : AgentId} (h : s.Alive agent) (id : AgentId) (now : Time) :
    (s.upsertAgent id now).Alive agent := by
  intro a ha hid
  rw [Store.upsertAgent] at ha
  split at ha
  · rcases List.mem_append.mp ha with ha | ha
    · exact h a ha hid
    · simp [List.mem_singleton.mp ha]
  · rcases Table.mem_modify.mp ha with ⟨ha, -⟩ | ⟨r, -, -, rfl⟩
    · exact h a ha hid
    · simp

theorem Store.Alive.of_agents {agent : AgentId} (h : s.Alive agent)
    (agents : s'.agents = s.agents) : s'.Alive agent := by
  rw [Store.Alive, agents]
  exact h

/-! ## The critical section of a claim -/

theorem upsertAgent_tasks (id : AgentId) (now : Time) : (s.upsertAgent id now).tasks = s.tasks := by
  rw [Store.upsertAgent]
  split <;> rfl

theorem upsertAgent_orbits (id : AgentId) (now : Time) :
    (s.upsertAgent id now).orbits = s.orbits := by
  rw [Store.upsertAgent]
  split <;> rfl

theorem latestOrbitByRequest_of_orbits (h : s'.orbits = s.orbits) (request : Option RequestId) :
    s'.latestOrbitByRequest request = s.latestOrbitByRequest request := by
  cases request with
  | none => rfl
  | some id => rw [Store.latestOrbitByRequest, Store.orbitsOfRequest, h]; rfl

/-- The gate of a claim. -/
theorem eligible_of_gate {task : Option TaskId} (ok : s.Ok) (h : taskGate s task = none) :
    s.Eligible task := by
  rintro t ht rfl
  rw [taskGate, ok.getTask.mpr ⟨ht, rfl⟩] at h
  dsimp only at h
  split at h
  · assumption
  · cases h

/-- A sweep leaves a task waiting that waits to be started. -/
theorem sweepInline_eligible {cfg : Cfg} {now : Time} {task : Option TaskId} (ok : s.Ok)
    (h : sweepInline cfg now s = .ok s') (eligible : s.Eligible task) : s'.Eligible task := by
  let sweeps : Deed → Prop := fun d =>
    d = .agents ∨ d = .lapse ∨ (∃ t, d = .archive t) ∨ ∃ a, d = .zombie a
  have collecting : Collecting sweeps :=
    ⟨Or.inr (Or.inl rfl), fun t => Or.inr (Or.inr (Or.inl ⟨t, rfl⟩))⟩
  have swept : Moves ⟨cfg, now, sweeps⟩ s s' :=
    sweepInline_takes (Or.inl rfl) collecting (fun a _ => Or.inr (Or.inr (Or.inr ⟨a, rfl⟩))) h ok
  refine swept.eligible ok (fun t => ?_) (fun t => ?_) eligible <;> simp [sweeps]

theorem latestOf_eq_foldl (rows : List Orbit) :
    Store.latestOf rows = rows.foldl (Table.later Orbit.requestGeneration) none := by
  rw [Store.latestOf]
  congr 1
  funext best r
  cases best <;> rfl

theorem latestOf_eq_none {rows : List Orbit} (h : Store.latestOf rows = none) : rows = [] := by
  rw [latestOf_eq_foldl] at h
  exact Table.foldl_later_eq_none _ h

/-- The last row of a request is among its rows, and no generation is above its own. -/
theorem latestOf_spec {rows : List Orbit} {o : Orbit} (h : Store.latestOf rows = some o) :
    o ∈ rows ∧ ∀ r ∈ rows, r.requestGeneration ≤ o.requestGeneration := by
  rw [latestOf_eq_foldl] at h
  obtain ⟨mem, above, -⟩ := Table.foldl_later _ h
  exact ⟨mem.resolve_right (by simp), above⟩

/-- A claim that was given no request starts one. -/
theorem claimGeneration_made {a : ClaimArgs} {rollover : Option ℕ} {epoch generation : ℕ}
    (h : claimGeneration s a rollover epoch = .ok (.inr generation)) (hid : a.requestId = none) :
    generation = 0 := by
  have none : s.latestOrbitByRequest none = none := rfl
  unfold claimGeneration at h
  rw [hid, none] at h
  cases rollover <;> cases h
  rfl

/-- A row of the same request is for the same task. -/
theorem taskId_of_sameRequest {dup : Orbit} {a : ClaimArgs} {epoch : ℕ}
    (h : sameRequest dup a epoch = .ok true) : dup.taskId = a.taskId := by
  rw [sameRequest] at h
  split at h
  · cases h
  · rw [Outcome.bind_eq_ok] at h
    obtain ⟨paths, -, h⟩ := h
    have same := Except.ok.inj h
    simp only [Bool.and_eq_true, decide_eq_true_eq] at same
    exact same.1.1.1.1.2

/-- What a claim goes on with is the next generation of its request. -/
theorem claimGeneration_next {a : ClaimArgs} {rollover : Option ℕ} {epoch generation : ℕ}
    (rolled : ∀ g, rollover = some g → ∀ o, s.latestOrbitByRequest a.requestId = some o →
      o.live = false ∧ o.taskId = a.taskId)
    (h : claimGeneration s a rollover epoch = .ok (.inr generation)) {id : RequestId}
    (hid : a.requestId = some id) : NextGeneration s id a.taskId generation := by
  unfold claimGeneration at h
  rw [hid] at h rolled
  split at h
  · cases h
  · split at h
    · cases h
    · rename_i same
      cases h
      rw [not_not, Option.map_some] at same
      exact ⟨Option.some.inj same, fun o ho => (rolled _ rfl o ho).1,
        fun o ho => (rolled _ rfl o ho).2⟩
  · rename_i none_
    cases h
    refine ⟨?_, fun o ho => ?_, fun o ho => ?_⟩ <;> [skip; cases none_.symm.trans ho;
      cases none_.symm.trans ho]
    rw [Store.nextRequestGeneration, latestOf_eq_none none_]
    rfl
  · rename_i dup hdup
    rw [Outcome.bind_eq_ok] at h
    obtain ⟨same, hsame, h⟩ := h
    split at h
    · cases h
    rename_i asks
    split at h
    · rename_i retryable
      split at h
      · cases h
      · cases h
        refine ⟨rfl, fun o ho => ?_, fun o ho => ?_⟩ <;> cases hdup.symm.trans ho
        · rw [Orbit.retryablePolicyDenial, Bool.and_eq_true, decide_eq_true_eq] at retryable
          rw [Orbit.live, retryable.1]
          rfl
        · rw [Bool.not_eq_true', Bool.not_eq_false] at asks
          exact taskId_of_sameRequest (asks ▸ hsame)
    · cases h

/-- What a claim goes on with has no row that lives. -/
theorem claimIntent_eq_none {a : ClaimArgs} (h : claimIntent s a = none) :
    ∀ r, s.orbitByIntent a.intentKey = some r → r.agentId ≠ a.agentId := by
  intro r hr
  rw [claimIntent, hr] at h
  dsimp only at h
  split at h
  · assumption
  · split at h <;> cases h

theorem claimSwept_takes {a : ClaimArgs} {rollover : Option ℕ} {r : Result}
    (agents : c.may .agents) (admission : c.may .admission)
    (names : ∀ id, a.requestId = some id → c.may (.name id) ∨ s.orbitsOfRequest id ≠ [])
    (paths : normalizePathspec a.pathspec = .ok a.pathspec) (gate : s.Eligible a.taskId)
    (rolled : ∀ g, rollover = some g → ∀ o, s.latestOrbitByRequest a.requestId = some o →
      o.live = false ∧ o.taskId = a.taskId)
    (h : claimSwept c.cfg s a rollover c.now = .ok (s', r)) : Takes c s s' := by
  intro ok
  refine Takes.trans ?_ (.refl _) ok
  rw [claimSwept] at h
  split at h
  · cases h
    exact .refl _
  · rename_i halive
    have alive := ok.alive halive
    dsimp only at h
    rw [Outcome.bind_eq_ok] at h
    obtain ⟨gen, hgen, h⟩ := h
    refine ((upsertAgent_keeps agents alive c.now).takes).trans ?_
    cases gen with
    | inl reply =>
        cases h
        exact .refl _
    | inr generation =>
        dsimp only at h
        split at h
        · cases h
          exact .refl _
        · split at h
          · cases h
            exact .refl _
          · rename_i unclaimed priority
            refine claimDecide_takes ⟨admission, by simpa using priority, paths,
              alive.upsertAgent _ _, ?_, fun id hid => ⟨?_, ?_⟩, claimGeneration_made hgen,
              claimIntent_eq_none unclaimed⟩ h
            · rw [Store.Eligible, upsertAgent_tasks]
              exact gate
            · rw [Store.orbitsOfRequest, upsertAgent_orbits]
              exact names id hid
            · refine claimGeneration_next (fun g hg o ho => rolled g hg o ?_) hgen hid
              rwa [latestOrbitByRequest_of_orbits (upsertAgent_orbits _ _)] at ho

/-- A state that a reply about a claim has. -/
def Reply.AboutClaim (r : Reply) : Prop :=
  r.state = none ∨ r.state = some .REJECTED ∨ ∃ st, r.state = some (.orbit st)

theorem claimGeneration_about {a : ClaimArgs} {rollover : Option ℕ} {epoch : ℕ} {r : Reply}
    (h : claimGeneration s a rollover epoch = .ok (.inl r)) : r.AboutClaim := by
  unfold claimGeneration at h
  split at h
  · cases h
  · split at h <;> cases h
  · cases h
  · rw [Outcome.bind_eq_ok] at h
    obtain ⟨same, -, h⟩ := h
    split at h
    · cases h
      exact Or.inl rfl
    · split at h
      · split at h
        · cases h
          exact Or.inr (Or.inl rfl)
        · cases h
      · cases h
        exact Or.inr (Or.inr ⟨_, rfl⟩)

theorem claimIntent_about {a : ClaimArgs} {r : Reply} (h : claimIntent s a = some r) :
    r.AboutClaim := by
  rw [claimIntent] at h
  split at h
  · cases h
  split at h
  · cases h
  split at h
  · cases h
    exact Or.inl rfl
  · cases h
    exact Or.inr (Or.inr ⟨_, rfl⟩)

theorem claimDecide_about {a : ClaimArgs} {generation epoch : ℕ} {rollover : Bool} {now : Time}
    {cfg : Cfg} {r : Result}
    (h : claimDecide cfg s a generation epoch rollover now = .ok (s', r)) :
    r.reply.AboutClaim ∧ (r.terminal = true → r.reply.state = some .REJECTED) := by
  rw [claimDecide, Outcome.bind_eq_ok] at h
  obtain ⟨d, -, h⟩ := h
  split at h
  · rw [claimGrant, Outcome.bind_eq_ok] at h
    obtain ⟨s₁, -, h⟩ := h
    dsimp only at h
    rw [Outcome.bind_eq_ok] at h
    obtain ⟨s₂, -, h⟩ := h
    cases h
    exact ⟨Or.inr (Or.inr ⟨_, rfl⟩), fun h => by cases h⟩
  split at h
  · rw [claimOverload, Outcome.bind_eq_ok] at h
    obtain ⟨s₁, -, h⟩ := h
    cases h
    exact ⟨Or.inr (Or.inl rfl), fun _ => rfl⟩
  · rw [claimQueue, Outcome.bind_eq_ok] at h
    obtain ⟨s₁, -, h⟩ := h
    rw [Outcome.bind_eq_ok] at h
    obtain ⟨cycle, -, h⟩ := h
    split at h
    · rw [Outcome.bind_eq_ok] at h
      obtain ⟨s₂, -, h⟩ := h
      cases h
      exact ⟨Or.inr (Or.inr ⟨_, rfl⟩), fun h => by cases h⟩
    · cases h
      exact ⟨Or.inr (Or.inr ⟨_, rfl⟩), fun h => by cases h⟩

/-- Only a rejection is cached as terminal. -/
theorem claimSwept_about {a : ClaimArgs} {rollover : Option ℕ} {now : Time} {cfg : Cfg}
    {r : Result} (h : claimSwept cfg s a rollover now = .ok (s', r)) :
    r.reply.AboutClaim ∧ (r.terminal = true → r.reply.state = some .REJECTED) := by
  have set {reply : Reply} (about : reply.AboutClaim) : (Result.set reply).reply.AboutClaim ∧
      ((Result.set reply).terminal = true → (Result.set reply).reply.state = some .REJECTED) :=
    ⟨about, fun h => by cases h⟩
  rw [claimSwept] at h
  split at h
  · rename_i dead hdead
    cases h
    exact set (Or.inl (state_of_dead hdead))
  · dsimp only at h
    rw [Outcome.bind_eq_ok] at h
    obtain ⟨gen, hgen, h⟩ := h
    cases gen with
    | inl reply =>
        cases h
        exact set (claimGeneration_about hgen)
    | inr generation =>
        dsimp only at h
        split at h
        · rename_i hintent
          cases h
          exact set (claimIntent_about hintent)
        · split at h
          · cases h
            exact set (Or.inr (Or.inl rfl))
          · exact claimDecide_about h

/-- A reply that the wrapper keeps for a claim. -/
structure Reply.Settled (r : Reply) : Prop where
  about : r.AboutClaim
  final : r.state = some .REJECTED ∨ r.isSuccess = true

/-- The wrapper keeps no reply of a claim that waits. -/
theorem Reply.Settled.state {r : Reply} (h : r.Settled) : r.state ≠ some (.orbit .PENDING) := by
  intro waiting
  rcases h.final with rejected | success
  · rw [waiting] at rejected
    cases rejected
  · simp [Reply.isSuccess, waiting] at success

section

variable {cfg : Cfg} {now : Time} {may may' : Deed → Prop}

/-- A claim sweeps before it admits. -/
theorem claimSection_phases {a : ClaimArgs} {observedAt : Option Time} {rollover : Option ℕ}
    {r : Reply} (agents : may .agents) (agents' : may' .agents) (admission : may' .admission)
    (names : ∀ id, a.requestId = some id →
      may' (.name id) ∨ observedAt ≠ none ∧ s.orbitsOfRequest id ≠ [])
    (archive : observedAt = none → Collecting may)
    (zombie : observedAt = none → ∀ a, s.Stale cfg now a → may (.zombie a))
    (answer : ∀ id, a.requestId = some id → r.Settled → may' (.answer id a.idemArgs r))
    (clock : ∀ t, observedAt = some t → t = now)
    (rolled : ∀ g, rollover = some g → observedAt ≠ none ∧
      ∀ o, s.latestOrbitByRequest a.requestId = some o → o.live = false ∧ o.taskId = a.taskId)
    (paths : normalizePathspec a.pathspec = .ok a.pathspec)
    (h : claimSection cfg now s a observedAt rollover = .ok (s', r)) (ok : s.Ok) :
    Phases cfg now may may' s s' := by
  let c : Scope := ⟨cfg, now, may⟩
  let c' : Scope := ⟨cfg, now, may'⟩
  rw [claimSection] at h
  split at h
  · cases h
    exact .refl _ _ _ _ _
  split at h
  · cases h
    exact .refl _ _ _ _ _
  · rename_i hgate
    have gate := eligible_of_gate ok hgate
    rw [Outcome.bind_eq_ok] at h
    obtain ⟨⟨s₀, r₀⟩, h₀, h⟩ := h
    cases h
    refine withIdem_phases (fun s₂ s₃ apart ok₂ h => ?_) (fun id s₂ s₃ hid _ h _ final => ?_)
      h₀ ok
    · have gate₂ : s₂.Eligible a.taskId := by
        rw [Store.Eligible, apart.tasks]
        exact gate
      split at h
      · rename_i t
        cases clock t rfl
        refine ⟨s₂, .refl, claimSwept_takes (c := c') agents' admission
          (fun id hid => ?_) paths gate₂ (fun g hg o ho => (rolled g hg).2 o ?_) h ok₂⟩
        · rw [Store.orbitsOfRequest, apart.orbits]
          exact (names id hid).imp_right fun named => named.2
        · rwa [latestOrbitByRequest_of_orbits apart.orbits] at ho
      · rw [Outcome.bind_eq_ok] at h
        obtain ⟨s₄, h₄, h⟩ := h
        have stale : ∀ a, s₂.Stale cfg now a → may (.zombie a) := fun a ha =>
          zombie rfl a (ha.of_agents apart.agents)
        have sweep : Moves c s₂ s₄ := sweepInline_takes (c := c) agents (archive rfl) stale h₄ ok₂
        exact ⟨s₄, sweep, claimSwept_takes (c := c') agents' admission
          (fun id hid => (names id hid).imp_right fun named => absurd rfl named.1) paths
          (sweepInline_eligible ok₂ h₄ gate₂) (fun g hg => absurd rfl (rolled g hg).1) h
          (ok₂.moves sweep)⟩
    · have about : r₀.reply.AboutClaim ∧
          (r₀.terminal = true → r₀.reply.state = some .REJECTED) := by
        split at h
        · exact claimSwept_about h
        · rw [Outcome.bind_eq_ok] at h
          obtain ⟨s₄, -, h⟩ := h
          exact claimSwept_about h
      exact answer id hid ⟨about.1, final.imp_left about.2⟩

end

theorem ClaimArgs.validate_task {cfg : Cfg} {a b : ClaimArgs} (h : a.validate cfg = .ok b) :
    b.taskId = a.taskId := by
  rw [ClaimArgs.validate] at h
  split at h
  · cases h
  split at h
  · cases h
  split at h
  · cases h
  split at h
  · cases h
  split at h
  · cases h
  · cases h
    rfl

theorem ClaimArgs.validate_request {cfg : Cfg} {a b : ClaimArgs} (h : a.validate cfg = .ok b) :
    b.requestId = a.requestId := by
  rw [ClaimArgs.validate] at h
  split at h
  · cases h
  split at h
  · cases h
  split at h
  · cases h
  split at h
  · cases h
  split at h
  · cases h
  · cases h
    rfl

section

variable {cfg : Cfg} {now : Time} {may may' : Deed → Prop}

theorem claim_phases {a : ClaimArgs} {observedAt : Option Time} {rollover : Option ℕ} {r : Reply}
    (agents : may .agents) (agents' : may' .agents) (admission : may' .admission)
    (names : ∀ id, a.requestId = some id →
      may' (.name id) ∨ observedAt ≠ none ∧ s.orbitsOfRequest id ≠ [])
    (archive : observedAt = none → Collecting may)
    (zombie : observedAt = none → ∀ a, s.Stale cfg now a → may (.zombie a))
    (answer : ∀ id args, a.requestId = some id → args.isClaim = true → r.Settled →
      may' (.answer id args r))
    (clock : ∀ t, observedAt = some t → t = now)
    (rolled : ∀ g, rollover = some g → observedAt ≠ none ∧
      ∀ o, s.latestOrbitByRequest a.requestId = some o → o.live = false ∧ o.taskId = a.taskId)
    (h : claim cfg now s a observedAt rollover = .ok (s', r)) (ok : s.Ok) :
    Phases cfg now may may' s s' := by
  rw [claim] at h
  split at h
  · cases h
  split at h
  · cases h
    exact .refl _ _ _ _ _
  · rename_i b hb
    refine claimSection_phases agents agents' admission ?_ archive zombie
      (fun id hid settled => ?_) clock ?_ (ClaimArgs.validate_paths hb) h ok
    · rw [ClaimArgs.validate_request hb]
      exact names
    · exact answer id _ (ClaimArgs.validate_request hb ▸ hid) rfl settled
    · rw [ClaimArgs.validate_request hb, ClaimArgs.validate_task hb]
      exact rolled

end

theorem claim_takes {a : ClaimArgs} {observedAt : Option Time} {rollover : Option ℕ} {r : Reply}
    (agents : c.may .agents) (admission : c.may .admission)
    (names : ∀ id, a.requestId = some id →
      c.may (.name id) ∨ observedAt ≠ none ∧ s.orbitsOfRequest id ≠ [])
    (archive : observedAt = none → Collecting c.may)
    (zombie : observedAt = none → ∀ a, s.Stale c.cfg c.now a → c.may (.zombie a))
    (answer : ∀ id args, a.requestId = some id → args.isClaim = true → r.Settled →
      c.may (.answer id args r))
    (clock : ∀ t, observedAt = some t → t = c.now)
    (rolled : ∀ g, rollover = some g → observedAt ≠ none ∧
      ∀ o, s.latestOrbitByRequest a.requestId = some o → o.live = false ∧ o.taskId = a.taskId)
    (h : claim c.cfg c.now s a observedAt rollover = .ok (s', r)) : Takes c s s' := by
  intro ok
  obtain ⟨s₁, sweep, rest⟩ :=
    claim_phases agents agents admission names archive zombie answer clock rolled h ok
  exact sweep.trans rest

/-! ## Rollover, cancellation, renewal, release -/

theorem rolloverGate_right {prior : OrbitId} {agent : AgentId} {expected epoch : ℕ} {o : Orbit}
    {request : RequestId} (h : rolloverGate s prior agent expected epoch = .inr (o, request)) :
    s.getOrbit prior = some o ∧ o.requestId = some request ∧ o.rolloverable = true ∧
      (s.latestOrbitByRequest (some request)).map Orbit.orbitId = some prior := by
  unfold rolloverGate at h
  split at h
  · cases h
  rename_i r hr
  split at h
  · cases h
  split at h
  · cases h
  rename_i id hid
  split at h
  · cases h
  split at h
  · cases h
  split at h
  · cases h
  rename_i latest
  split at h
  · cases h
  rename_i rolls
  split at h
  · cases h
  split at h
  · cases h
  split at h
  · cases h
  split at h
  · cases h
  split at h
  · cases h
  · cases h
    exact ⟨hr, hid, by simpa using rolls, not_not.mp latest⟩

/-- A row that may be rolled over has ended. -/
theorem Orbit.rolloverable_live {o : Orbit} (h : o.rolloverable = true) : o.live = false := by
  rw [Orbit.rolloverable] at h
  rw [Orbit.live]
  cases hstate : o.state <;> simp [hstate] at h ⊢

/-- The last row of a request that is rolled over is the one that the caller named. -/
theorem rolloverGate_latest {prior : OrbitId} {agent : AgentId} {expected epoch : ℕ} {o : Orbit}
    {request : RequestId} (ok : s.Ok)
    (h : rolloverGate s prior agent expected epoch = .inr (o, request)) :
    s.latestOrbitByRequest (some request) = some o := by
  obtain ⟨hget, -, -, latest⟩ := rolloverGate_right h
  cases hr : s.latestOrbitByRequest (some request) with
  | none =>
      rw [hr] at latest
      cases latest
  | some r =>
      rw [hr, Option.map_some] at latest
      obtain ⟨mem, -⟩ := latestOf_spec hr
      rw [ok.orbit_eq (List.mem_of_mem_filter mem) (Table.mem_of_get hget)
        ((Option.some.inj latest).trans (Table.key_of_get hget).symm)]

theorem rolloverSwept_takes {prior : OrbitId} {agent : AgentId} {expected epoch : ℕ} {r : Result}
    (agents : c.may .agents) (admission : c.may .admission)
    (forget : ∀ o ∈ s.orbits, o.orbitId = prior → ∀ id, o.requestId = some id →
      c.may (.forget id))
    (answer : ∀ o ∈ s.orbits, o.orbitId = prior → ∀ id args r, o.requestId = some id →
      args.isClaim = true → r.Settled → c.may (.answer id args r))
    (h : rolloverSwept c.cfg c.now s prior agent expected epoch = .ok (s', r)) :
    Takes c s s' := by
  rw [rolloverSwept] at h
  split at h
  · cases h
    exact .refl _
  · rename_i o request hgate
    obtain ⟨hget, hrequest, rolls, -⟩ := rolloverGate_right hgate
    intro ok
    have latest := rolloverGate_latest ok hgate
    have license := forget o (Table.mem_of_get hget) (Table.key_of_get hget) request hrequest
    dsimp only at h
    rw [Outcome.bind_eq_ok] at h
    obtain ⟨⟨s₁, r₁⟩, h₁, h⟩ := h
    have claimed : Takes c s s₁ := by
      refine (clearIdem_requested license).takes.trans (claim_takes agents admission
        (fun id hid => ?_) (by simp) (by simp) (fun id args hid => ?_) (by simp)
        (fun _ _ => ⟨by simp, fun r hr => ?_⟩) h₁)
      · cases hid
        exact Or.inr ⟨by simp, List.ne_nil_of_mem (latestOf_spec latest).1⟩
      · exact answer o (Table.mem_of_get hget) (Table.key_of_get hget) id args r₁
          (hrequest.trans hid)
      · cases latest.symm.trans hr
        exact ⟨Orbit.rolloverable_live rolls, rfl⟩
    dsimp only at h
    split at h
    · cases h
      exact claimed ok
    split at h
    · cases h
    · cases h
      exact claimed ok

/-- A rollover sweeps before it admits. -/
theorem rolloverClaim_phases {cfg : Cfg} {now : Time} {may may' : Deed → Prop} {prior : OrbitId}
    {agent : AgentId} {expected epoch : ℕ} {requestId : RequestId} {r : Reply}
    (agents : may .agents) (agents' : may' .agents) (admission : may' .admission)
    (archive : Collecting may)
    (zombie : ∀ a, s.Stale cfg now a → may (.zombie a))
    (forget : ∀ o ∈ s.orbits, o.orbitId = prior → ∀ id, o.requestId = some id →
      may' (.forget id))
    (nested : ∀ o ∈ s.orbits, o.orbitId = prior → ∀ id args r, o.requestId = some id →
      args.isClaim = true → r.Settled → may' (.answer id args r))
    (answer : may' (.answer requestId (.rollover_claim prior expected epoch) r))
    (h : rolloverClaim cfg now s prior agent expected epoch requestId = .ok (s', r))
    (ok : s.Ok) : Phases cfg now may may' s s' := by
  rw [rolloverClaim] at h
  split at h
  · cases h
    exact .refl _ _ _ _ _
  split at h
  · cases h
    exact .refl _ _ _ _ _
  split at h
  · cases h
    exact .refl _ _ _ _ _
  split at h
  · cases h
    exact .refl _ _ _ _ _
  rename_i o hget
  split at h
  · cases h
    exact .refl _ _ _ _ _
  · rw [Outcome.bind_eq_ok] at h
    obtain ⟨⟨s₁, r₁⟩, h₁, h⟩ := h
    cases h
    refine withIdem_phases (fun s₂ s₃ apart ok₂ h => ?_) (fun id s₂ s₃ hid _ _ _ _ => ?_) h₁ ok
    · rw [Outcome.bind_eq_ok] at h
      obtain ⟨s₄, h₄, h⟩ := h
      have sweep : Moves ⟨cfg, now, may⟩ s₂ s₄ := sweepInline_takes agents archive
        (fun a ha => zombie a (ha.of_agents apart.agents)) h₄ ok₂
      have mem : o ∈ s₂.orbits := apart.orbits ▸ Table.mem_of_get hget
      have key : o.orbitId = prior := Table.key_of_get hget
      have same {o' : Orbit} (ho' : o' ∈ s₄.orbits) (hid : o'.orbitId = prior) :
          o'.requestId = o.requestId :=
        ((sweep.rowsFrom ok₂).row ok₂ mem ho' (hid.trans key.symm)).requestId
      refine ⟨s₄, sweep, rolloverSwept_takes (c := ⟨cfg, now, may'⟩) agents' admission ?_ ?_ h
        (ok₂.moves sweep)⟩
      · intro o' ho' hid
        exact same ho' hid ▸ forget o (Table.mem_of_get hget) key
      · intro o' ho' hid
        exact same ho' hid ▸ nested o (Table.mem_of_get hget) key
    · cases hid
      exact answer

/-! ## Overdue agents -/

/-- An agent that a sweep at this time may find silent, also when its call came first. -/
def Store.Overdue (s : Store) (cfg : Cfg) (now : Time) (agent : AgentId) : Prop :=
  ∃ ttl, cfg.agentTtl = some ttl ∧ (ttl < 0 ∨ ∃ a ∈ s.agents, a.agentId = agent ∧
    a.state ≠ .RETIRED ∧
      (a.lastHeartbeat < now - a.livenessTtl.getD ttl ∨ a.livenessTtl.getD ttl < 0))

/-- Who is silent for longer than his window is overdue. -/
theorem Store.Stale.overdue {cfg : Cfg} {now : Time} {a : AgentId} (h : s.Stale cfg now a) :
    s.Overdue cfg now a := by
  obtain ⟨ttl, httl, row, hrow, hid, hstale⟩ := h
  rw [Agent.isStale, Bool.and_eq_true, decide_eq_true_eq, decide_eq_true_eq] at hstale
  exact ⟨ttl, httl, Or.inr ⟨row, hrow, hid, hstale.1, Or.inl hstale.2⟩⟩

/-- The heartbeat of a call leaves its agent overdue only if its window is negative. -/
theorem Store.Stale.of_upsertAgent {cfg : Cfg} {now : Time} {a agent : AgentId} (ok : s.Ok)
    (alive : ∀ row, s.getAgent agent = some row → row.state ≠ .RETIRED)
    (h : (s.upsertAgent agent now).Stale cfg now a) : s.Overdue cfg now a := by
  obtain ⟨ttl, httl, row, hrow, hid, hstale⟩ := h
  rw [Agent.isStale, Bool.and_eq_true, decide_eq_true_eq, decide_eq_true_eq] at hstale
  refine ⟨ttl, httl, ?_⟩
  rw [Store.upsertAgent] at hrow
  split at hrow
  · rcases List.mem_append.mp hrow with hrow | hrow
    · exact Or.inr ⟨row, hrow, hid, hstale.1, Or.inl hstale.2⟩
    · rw [List.mem_singleton.mp hrow] at hstale
      have := hstale.2
      simp only [Option.getD_none] at this
      exact Or.inl (by linarith)
  · rename_i old hold
    rcases Table.mem_modify.mp hrow with ⟨hrow, -⟩ | ⟨r, hr, hrid, rfl⟩
    · exact Or.inr ⟨row, hrow, hid, hstale.1, Or.inl hstale.2⟩
    · have hold' : old = r := ok.agentIds.eq (Table.mem_of_get hold) hr
        ((Table.key_of_get hold).trans hrid.symm)
      refine Or.inr ⟨r, hr, hid, alive r (hold' ▸ hold), Or.inr ?_⟩
      have := hstale.2
      dsimp only at this
      linarith

/-! ## The end of a wait and of a lease -/

theorem cancelWaitGate_right {orbit : OrbitId} {agent : AgentId} {generation epoch : ℕ}
    {o : Orbit} (h : cancelWaitGate s orbit agent generation epoch = .inr o) :
    s.getOrbit orbit = some o ∧ o.kind = .orbit ∧
      checkAlive s (some agent) (some epoch) = none := by
  rw [cancelWaitGate] at h
  split at h
  · cases h
  rename_i o' ho'
  split at h
  · cases h
  rename_i hkind
  split at h
  · cases h
  split at h
  · cases h
  split at h
  · cases h
  split at h
  · cases h
  split at h
  · cases h
  · rename_i halive
    cases h
    exact ⟨ho', not_not.mp hkind, halive⟩

theorem cancelPending_wrote {o : Orbit} (kind : o.kind = .orbit) (pending : o.state = .PENDING)
    (h : cancelPending c.now s o = .ok s') : Wrote c E s o s' := by
  rw [cancelPending, Outcome.bind_eq_ok] at h
  obtain ⟨id, hid, h⟩ := h
  rw [Outcome.bind_eq_ok] at h
  obtain ⟨s₁, h₁, h⟩ := h
  cases h
  exact .reduced (.refl s) (assertAdmissionProjection_spec h₁) hid (by rw [pending]; rfl) kind rfl
    rfl rfl ⟨rfl, .deny pending rfl, fun _ => .released (by simp [Orbit.live, pending]) rfl rfl rfl⟩

theorem Store.Overdue.of_agents {cfg : Cfg} {now : Time} {a : AgentId}
    (agents : s'.agents = s.agents) (h : s'.Overdue cfg now a) : s.Overdue cfg now a := by
  obtain ⟨ttl, httl, ha⟩ := h
  exact ⟨ttl, httl, agents ▸ ha⟩

theorem cancelWaitBody_takes {orbit : OrbitId} {agent : AgentId} {generation epoch : ℕ}
    {r : Result} (agents : c.may .agents)
    (may : ∀ a, s.Overdue c.cfg c.now a → c.may (.zombie a))
    (h : cancelWaitBody c.cfg c.now s orbit agent generation epoch = .ok (s', r)) :
    Takes c s s' := by
  rw [cancelWaitBody] at h
  split at h
  · cases h
    exact .refl _
  · rename_i o hgate
    obtain ⟨hget, kind, halive⟩ := cancelWaitGate_right hgate
    intro ok
    have upsert : Takes c s (s.upsertAgent agent c.now) :=
      (upsertAgent_keeps agents (ok.alive halive) c.now).takes
    refine Takes.trans ?_ (.refl _) ok
    dsimp only at h
    split at h
    · cases h
      exact upsert
    split at h
    · cases h
      exact upsert
    · rename_i pending
      rw [Outcome.bind_eq_ok] at h
      obtain ⟨s₁, h₁, h⟩ := h
      rw [Outcome.bind_eq_ok] at h
      obtain ⟨s₂, h₂, h⟩ := h
      cases h
      have wrote : Wrote c nobody _ o s₁ := cancelPending_wrote kind (not_not.mp pending) h₁
      refine upsert.trans ((wrote.keeps ?_).takes.trans (reconcileAdmission_takes agents ?_ h₂))
      · rw [upsertAgent_orbits]
        exact Table.mem_of_get hget
      · exact fun a ha => may a ((ha.of_agents wrote.agents).of_upsertAgent ok
          fun _ => state_of_checkAlive halive)

theorem cancelWaitBody_plain {cfg : Cfg} {now : Time} {orbit : OrbitId} {agent : AgentId}
    {generation epoch : ℕ} :
    Plain (cancelWaitBody cfg now s orbit agent generation epoch) := by
  rw [cancelWaitBody]
  split
  · exact .set _ _
  dsimp only
  split
  · exact .set _ _
  split
  · exact .set _ _
  · exact .bind fun _ => .bind fun _ => .set _ _

theorem cancelWait_takes {orbit : OrbitId} {agent : AgentId} {generation epoch : ℕ}
    {requestId : Option RequestId} {r : Reply} (agents : c.may .agents)
    (may : ∀ a, s.Overdue c.cfg c.now a → c.may (.zombie a))
    (answer : ∀ id, requestId = some id → r.isSuccess = true →
      c.may (.answer id (.cancel_wait orbit generation epoch) r))
    (h : cancelWait c.cfg c.now s orbit agent generation epoch requestId = .ok (s', r)) :
    Takes c s s' := by
  rw [cancelWait] at h
  split at h
  · cases h
    exact .refl _
  split at h
  · cases h
    exact .refl _
  · rw [Outcome.bind_eq_ok] at h
    obtain ⟨⟨s₁, r₁⟩, h₁, h⟩ := h
    cases h
    refine withIdem_takes_plain (fun _ => cancelWaitBody_plain) (fun s₂ s₃ r₂ apart h => ?_)
      answer h₁
    exact cancelWaitBody_takes agents (fun a ha => may a (ha.of_agents apart.agents)) h

theorem renewOrbit_wrote {o : Orbit} {deadline : Time} (held : o.state = .HELD)
    (may : c.may (.renew o.orbitId)) (h : renewOrbit s o deadline = .ok s') :
    Wrote c E s o s' := by
  rw [renewOrbit, Outcome.bind_eq_ok] at h
  obtain ⟨s₁, h₁, h⟩ := h
  obtain ⟨id, target, -, -, reduced⟩ := reduceOrbitLifecycle_spec h₁
  cases h
  rw [reduced.silent rfl]
  exact .silent (.refl s) (.silent fun _ => ⟨held.symm, Or.inr (Or.inl rfl)⟩)
    ⟨rfl, .keep held.symm rfl rfl (fun _ => Or.inr may) (fun ended => by
      rw [Orbit.live, held] at ended
      cases ended), fun _ => .same rfl rfl⟩

theorem renewBody_takes {orbit : OrbitId} {agent : AgentId} {fence : Option ℕ} {ttl : ℚ}
    {epoch : Option ℕ} {r : Result} (agents : c.may .agents) (may : c.may (.renew orbit))
    (h : renewBody c.now s orbit agent fence ttl epoch = .ok (s', r)) : Takes c s s' := by
  rw [renewBody] at h
  split at h
  · cases h
    exact .refl _
  · rename_i halive
    intro ok
    refine ((upsertAgent_keeps agents (ok.alive halive) c.now).takes.trans ?_) ok
    dsimp only at h
    split at h
    · cases h
      exact .refl _
    rename_i o hget
    split at h
    · cases h
      exact .refl _
    rename_i held
    split at h
    · cases h
      exact .refl _
    · rw [Outcome.bind_eq_ok] at h
      obtain ⟨s₄, h₄, h⟩ := h
      cases h
      have hid : o.orbitId = orbit := Table.key_of_get hget
      exact ((renewOrbit_wrote (not_not.mp held) (hid ▸ may) h₄).keeps
        (Table.mem_of_get hget)).takes

theorem renewBody_plain {now : Time} {orbit : OrbitId} {agent : AgentId} {fence : Option ℕ}
    {ttl : ℚ} {epoch : Option ℕ} : Plain (renewBody now s orbit agent fence ttl epoch) := by
  rw [renewBody]
  split
  · exact .set _ _
  dsimp only
  split
  · exact .set _ _
  split
  · exact .set _ _
  split
  · exact .set _ _
  · exact .bind fun _ => .set _ _

theorem renew_takes {orbit : OrbitId} {agent : AgentId} {fence : Option ℕ} {ttl : ℚ}
    {requestId : Option RequestId} {epoch : Option ℕ} {r : Reply} (agents : c.may .agents)
    (may : c.may (.renew orbit))
    (answer : ∀ id, requestId = some id → r.isSuccess = true →
      c.may (.answer id (.renew orbit fence ttl) r))
    (h : renew c.now s orbit agent fence ttl requestId epoch = .ok (s', r)) : Takes c s s' := by
  rw [renew] at h
  split at h
  · cases h
    exact .refl _
  · rw [Outcome.bind_eq_ok] at h
    obtain ⟨⟨s₁, r₁⟩, h₁, h⟩ := h
    cases h
    exact withIdem_takes_plain (fun _ => renewBody_plain)
      (fun s₂ s₃ r₂ _ h => renewBody_takes agents may h) answer h₁

theorem releaseOrbit_wrote {o : Orbit} (kind : o.kind = .orbit) (held : o.state = .HELD)
    (unpinned : o.merging = false) (may : c.may (.release o.orbitId))
    (h : releaseOrbit c.now s o = .ok s') : Wrote c E s o s' := by
  rw [releaseOrbit, Outcome.bind_eq_ok] at h
  obtain ⟨s₁, h₁, h⟩ := h
  obtain ⟨id, target, hid, htarget, reduced⟩ := reduceOrbitLifecycle_spec h₁
  cases htarget
  cases h
  exact .reduced (.refl s) reduced hid rfl kind rfl rfl rfl
    ⟨rfl, .release kind held unpinned may rfl,
      fun _ => .released (by simp [Orbit.live, held]) rfl rfl rfl⟩

theorem releaseBody_takes {orbit : OrbitId} {agent : AgentId} {fence epoch : Option ℕ}
    {r : Result} (agents : c.may .agents)
    (may : ∀ a, s.Overdue c.cfg c.now a → c.may (.zombie a)) (license : c.may (.release orbit))
    (h : releaseBody c.cfg c.now s orbit agent fence epoch = .ok (s', r)) : Takes c s s' := by
  rw [releaseBody] at h
  split at h
  · cases h
    exact .refl _
  · rename_i halive
    intro ok
    refine ((upsertAgent_keeps agents (ok.alive halive) c.now).takes.trans ?_) ok
    dsimp only at h
    split at h
    · cases h
      exact .refl _
    rename_i o hget
    split at h
    · cases h
      exact .refl _
    rename_i hkind
    split at h
    · cases h
      exact .refl _
    split at h
    · cases h
      exact .refl _
    rename_i held
    split at h
    · cases h
      exact .refl _
    rename_i unpinned
    split at h
    · cases h
      exact .refl _
    · rw [Outcome.bind_eq_ok] at h
      obtain ⟨s₁, h₁, h⟩ := h
      rw [Outcome.bind_eq_ok] at h
      obtain ⟨s₂, h₂, h⟩ := h
      cases h
      have hid : o.orbitId = orbit := Table.key_of_get hget
      have wrote : Wrote c nobody _ o s₁ := releaseOrbit_wrote (not_not.mp hkind)
        (not_not.mp held) (by simpa using unpinned) (hid ▸ license) h₁
      exact (wrote.keeps (Table.mem_of_get hget)).takes.trans
        (reconcileAdmission_takes agents (fun a ha => may a
          ((ha.of_agents wrote.agents).of_upsertAgent ok fun _ => state_of_checkAlive halive)) h₂)

theorem releaseBody_plain {cfg : Cfg} {now : Time} {orbit : OrbitId} {agent : AgentId}
    {fence epoch : Option ℕ} : Plain (releaseBody cfg now s orbit agent fence epoch) := by
  rw [releaseBody]
  split
  · exact .set _ _
  dsimp only
  split
  · exact .set _ _
  split
  · exact .set _ _
  split
  · exact .set _ _
  split
  · exact .set _ _
  split
  · exact .set _ _
  split
  · exact .set _ _
  · exact .bind fun _ => .bind fun _ => .set _ _

theorem release_takes {orbit : OrbitId} {agent : AgentId} {fence : Option ℕ}
    {requestId : Option RequestId} {epoch : Option ℕ} {r : Reply} (agents : c.may .agents)
    (may : ∀ a, s.Overdue c.cfg c.now a → c.may (.zombie a)) (license : c.may (.release orbit))
    (answer : ∀ id, requestId = some id → r.isSuccess = true →
      c.may (.answer id (.release orbit fence) r))
    (h : release c.cfg c.now s orbit agent fence requestId epoch = .ok (s', r)) :
    Takes c s s' := by
  rw [release, Outcome.bind_eq_ok] at h
  obtain ⟨⟨s₁, r₁⟩, h₁, h⟩ := h
  cases h
  refine withIdem_takes_plain (fun _ => releaseBody_plain) (fun s₂ s₃ r₂ apart h => ?_) answer h₁
  exact releaseBody_takes agents (fun a ha => may a (ha.of_agents apart.agents)) license h

end Omd
