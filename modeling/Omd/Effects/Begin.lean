import Omd.Effects.Signals
import Omd.Effects.Tasks

/-!
# The effect of a begin

The batch is a run of claims at one time: its preflight queues at most the member that
cannot be granted, and its acquisition is kept only when every member is granted.
-/

namespace Omd

open Lib

variable {c : Scope} {s s' : Store}

section

variable {b : BeginArgs} (agents : c.may .agents) (admission : c.may .admission)
  (names : ∀ spec id, b.rid spec = some id → c.may (.name id))
  (answer : ∀ spec id args r, b.rid spec = some id → args.isClaim = true → r.Settled →
    c.may (.answer id args r))

include agents admission names answer

/-- A claim inside the batch does not sweep. -/
theorem batchClaim_takes {spec : Spec} {r : Reply}
    (h : claim c.cfg c.now s (b.claimArgs spec) (some c.now) = .ok (s', r)) : Takes c s s' := by
  refine claim_takes agents admission (fun id hid => Or.inl (names spec.suffix id hid)) (by simp)
    (by simp) (fun id args hid => ?_) ?_ (by simp) h
  · exact answer spec.suffix id args r hid
  · intro t ht
    exact (Option.some.inj ht).symm

theorem beginPreflight_takes {specs : List Spec} {offset : ℤ} {claims : List Acquired} {r : Reply}
    (h : beginPreflight c.cfg c.now s b specs offset claims = .ok (.inl (s', r))) :
    Takes c s s' := by
  induction specs generalizing offset claims with
  | nil => cases h
  | cons spec specs ih =>
      rw [beginPreflight] at h
      split at h
      · split at h
        · cases h
          exact .refl s
        · exact ih h
      · rw [Outcome.bind_eq_ok] at h
        obtain ⟨d, -, h⟩ := h
        split at h
        · exact ih h
        · rw [Outcome.bind_eq_ok] at h
          obtain ⟨⟨s₁, r₁⟩, h₁, h⟩ := h
          cases h
          exact batchClaim_takes agents admission names answer h₁

theorem beginAcquire_takes {specs : List Spec} {claims held : List Acquired}
    (h : beginAcquire c.cfg c.now b specs s claims = .ok (.inr (s', held))) : Takes c s s' := by
  induction specs generalizing s claims with
  | nil =>
      cases h
      exact .refl _
  | cons spec specs ih =>
      rw [beginAcquire] at h
      split at h
      · exact ih h
      · rw [Outcome.bind_eq_ok] at h
        obtain ⟨⟨s₁, r₁⟩, h₁, h⟩ := h
        dsimp only at h
        split at h
        · exact (batchClaim_takes agents admission names answer h₁).trans (ih h)
        · cases h

end

/-- A preflight that stops says so. -/
theorem beginPreflight_refuses {cfg : Cfg} {now : Time} {b : BeginArgs} {specs : List Spec}
    {offset : ℤ} {claims : List Acquired} {r : Reply}
    (h : beginPreflight cfg now s b specs offset claims = .ok (.inl (s', r))) :
    r.ok = some false := by
  induction specs generalizing offset claims with
  | nil => cases h
  | cons spec specs ih =>
      rw [beginPreflight] at h
      split at h
      · split at h
        · cases h
          rfl
        · exact ih h
      · rw [Outcome.bind_eq_ok] at h
        obtain ⟨d, -, h⟩ := h
        split at h
        · exact ih h
        · rw [Outcome.bind_eq_ok] at h
          obtain ⟨⟨s₁, r₁⟩, h₁, h⟩ := h
          cases h
          rfl

/-- A batch that rolls back says so. -/
theorem beginAcquire_refuses {cfg : Cfg} {now : Time} {b : BeginArgs} {specs : List Spec}
    {claims : List Acquired} {reply : Reply}
    (h : beginAcquire cfg now b specs s claims = .ok (.inl reply)) : reply.ok = some false := by
  induction specs generalizing s claims with
  | nil => cases h
  | cons spec specs ih =>
      rw [beginAcquire] at h
      split at h
      · exact ih h
      · rw [Outcome.bind_eq_ok] at h
        obtain ⟨⟨s₁, r₁⟩, h₁, h⟩ := h
        dsimp only at h
        split at h
        · exact ih h
        · cases h
          rfl

theorem beginBatch_refuses {cfg : Cfg} {now : Time} {b : BeginArgs} {legacy : Bool} {r : Reply}
    (h : beginBatch cfg now s b legacy = .ok (s', .inl r)) : r.ok = some false := by
  rw [beginBatch, Outcome.bind_eq_ok] at h
  obtain ⟨s₁, -, h⟩ := h
  split at h
  · cases h
    rfl
  · rw [Outcome.bind_eq_ok] at h
    obtain ⟨pre, hpre, h⟩ := h
    cases pre with
    | inl blocked =>
        cases h
        exact beginPreflight_refuses hpre
    | inr held =>
        dsimp only at h
        rw [Outcome.bind_eq_ok] at h
        obtain ⟨acquired, hacquire, h⟩ := h
        cases acquired with
        | inl reply =>
            cases h
            exact beginAcquire_refuses hacquire
        | inr left => cases h

/-- The batch sweeps before it admits. -/
theorem beginBatch_phases {cfg : Cfg} {now : Time} {may may' : Deed → Prop} {b : BeginArgs}
    {legacy : Bool} {r : Reply ⊕ List Acquired} (agents : may .agents) (agents' : may' .agents)
    (admission : may' .admission) (archive : Collecting may)
    (zombie : ∀ a, s.Stale cfg now a → may (.zombie a))
    (names : ∀ spec id, b.rid spec = some id → may' (.name id))
    (answer : ∀ spec id args r, b.rid spec = some id → args.isClaim = true → r.Settled →
      may' (.answer id args r))
    (h : beginBatch cfg now s b legacy = .ok (s', r)) (ok : s.Ok) :
    Phases cfg now may may' s s' := by
  rw [beginBatch, Outcome.bind_eq_ok] at h
  obtain ⟨s₁, h₁, h⟩ := h
  have sweep : Moves ⟨cfg, now, may⟩ s s₁ := sweepInline_takes agents archive zombie h₁ ok
  have ok₁ := ok.moves sweep
  refine ⟨s₁, sweep, ?_⟩
  split at h
  · cases h
    exact .refl
  · rw [Outcome.bind_eq_ok] at h
    obtain ⟨pre, hpre, h⟩ := h
    cases pre with
    | inl blocked =>
        cases h
        exact beginPreflight_takes (c := ⟨cfg, now, may'⟩) agents' admission names answer hpre
          ok₁
    | inr held =>
        dsimp only at h
        rw [Outcome.bind_eq_ok] at h
        obtain ⟨acquired, hacquire, h⟩ := h
        cases acquired with
        | inl reply =>
            cases h
            exact .refl
        | inr left =>
            cases h
            exact beginAcquire_takes (c := ⟨cfg, now, may'⟩) agents' admission names answer
              hacquire ok₁

/-- The write of `READY` by the state that was read. -/
theorem beginReady_takes {task : TaskId} {state : TaskState} (ready : c.may (.ready task))
    (overwrite : ∀ t ∈ s.tasks, t.taskId = task → t.state ≠ .PENDING → t.state ≠ .BLOCKED →
      c.may (.overwrite task))
    (h : beginReady s task state = .ok s') : Takes c s s' := by
  rw [beginReady, Outcome.bind_eq_ok] at h
  obtain ⟨next, hnext, h⟩ := h
  obtain ⟨-, rfl⟩ := ready_cases hnext
  cases h
  refine Does.takes (Does.setTask ?_)
  intro t ht hid
  refine ⟨rfl, .same rfl rfl, Or.inl rfl, id, .ready ?_ (Or.inr (hid ▸ ready)) rfl rfl rfl rfl⟩
  by_cases pending : t.state = .PENDING
  · exact Or.inl pending
  by_cases blocked : t.state = .BLOCKED
  · exact Or.inr (Or.inl blocked)
  · exact Or.inr (Or.inr (hid ▸ overwrite t ht hid pending blocked))

/-- What a begin may do at one of its cuts. -/
structure BeginLicence (cfg : Cfg) (env : Env) (may may' : Deed → Prop) (s : Store)
    (b : BeginArgs) (pc : BeginPc) : Prop where
  agents : may .agents
  declare : ∀ legacy, pc = .declare legacy → may (.declare b.taskId (b.deps.getD []) b.reads)
  renew : ∀ legacy, pc = .liveness legacy → ∀ id, may (.renew id)
  archive : ∀ legacy, pc = .batch legacy → Collecting may
  zombie : ∀ legacy, pc = .batch legacy → ∀ a, s.Stale cfg env.now a → may (.zombie a)
  admission : ∀ legacy, pc = .batch legacy → may' .agents ∧ may' .admission ∧
    (∀ spec id, b.rid spec = some id → may' (.name id)) ∧
      ∀ spec id args r, b.rid spec = some id → args.isClaim = true → r.Settled →
      may' (.answer id args r)
  ready : ∀ claims state, pc = .ready claims state → may (.ready b.taskId) ∧
    ∀ t ∈ s.tasks, t.taskId = b.taskId → t.state ≠ .PENDING → t.state ≠ .BLOCKED →
      may (.overwrite b.taskId)
  start : ∀ claims, pc = .start claims → may (.start b.taskId) ∧
    ∀ id r, b.rid "start" = some id → r.isSuccess = true → may (.answer id (.start b.taskId) r)

theorem beginStep_phases {cfg : Cfg} {env : Env} {may may' : Deed → Prop} {b : BeginArgs}
    {pc pc' : BeginPc} (licence : BeginLicence cfg env may may' s b pc)
    (h : beginStep cfg env s b pc = .ok (s', pc')) (ok : s.Ok) :
    Phases cfg env.now may may' s s' := by
  have one (h : Takes ⟨cfg, env.now, may⟩ s s') : Phases cfg env.now may may' s s' :=
    h.phases may' ok
  unfold beginStep at h
  split at h
  · rename_i legacy
    have declared : Takes ⟨cfg, env.now, may⟩ s (declare env.now s b.declareArgs).1 :=
      declare_takes b.declareArgs (licence.declare legacy rfl)
    dsimp only at h
    split at h <;> (cases h; exact one declared)
  · split at h <;> (cases h; exact .refl _ _ _ _ _)
  · cases h
    exact .refl _ _ _ _ _
  · rename_i legacy
    have beat : Takes ⟨cfg, env.now, may⟩ s (heartbeat cfg env.now s b.agentId b.livenessTtl).1 :=
      heartbeat_takes licence.agents (licence.renew legacy rfl)
    dsimp only at h
    split at h <;> (cases h; exact one beat)
  · rename_i legacy
    rw [Outcome.bind_eq_ok] at h
    obtain ⟨⟨s₁, r⟩, h₁, h⟩ := h
    obtain ⟨agents, admission, names, answer⟩ := licence.admission legacy rfl
    have batch := beginBatch_phases licence.agents agents admission (licence.archive legacy rfl)
      (licence.zombie legacy rfl) names answer h₁ ok
    dsimp only at h
    split at h <;> (cases h; exact batch)
  · split at h
    · cases h
    · split at h <;> (cases h; exact .refl _ _ _ _ _)
  · rename_i claims state
    rw [Outcome.bind_eq_ok] at h
    obtain ⟨s₁, h₁, h⟩ := h
    cases h
    obtain ⟨ready, overwrite⟩ := licence.ready claims state rfl
    exact one (beginReady_takes ready overwrite h₁)
  · rename_i claims
    rw [Outcome.bind_eq_ok] at h
    obtain ⟨⟨s₁, r⟩, h₁, h⟩ := h
    obtain ⟨start, answer⟩ := licence.start claims rfl
    have started : Takes ⟨cfg, env.now, may⟩ s s₁ := start_takes licence.agents start rfl
      (fun id hid => answer id r hid) h₁
    dsimp only at h
    split at h <;> (cases h; exact one started)
  · cases h
    exact .refl _ _ _ _ _
  · cases h
    exact .refl _ _ _ _ _

end Omd
