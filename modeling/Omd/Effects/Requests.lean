import Omd.Effects.Reconcile

/-!
# The effect of the idempotency wrapper

The wrapper touches the table of requests only, so a verb has the effect of its body.  The
identifier is reserved or reopened before the body runs; after it the identifier is
answered or freed.
-/

namespace Omd

open Lib

/-! ## Changes of requests -/

/-- Only requests changed. -/
def Apart (s s' : Store) : Prop := s' = { s with idempotency := s'.idempotency }

/-- A run of changes of requests. -/
structure Requested (c : Scope) (s s' : Store) : Prop where
  keeps : ∀ E, Keeps c E s s'
  apart : Apart s s'

section

variable {c : Scope} {s s₁ s' : Store}

theorem Apart.refl (s : Store) : Apart s s := rfl

theorem Apart.trans (h : Apart s s₁) (h' : Apart s₁ s') : Apart s s' := by
  rw [Apart] at h h' ⊢
  rw [h] at h'
  exact h'

/-- What changes the table of requests only frames the rest. -/
theorem Apart.frame (h : Apart s s') : Frame { s with idempotency := s'.idempotency } s' := by
  rw [Apart] at h
  rw [← h]
  exact .refl s'

theorem Apart.tasks (h : Apart s s') : s'.tasks = s.tasks := h.frame.tasks

theorem Apart.orbits (h : Apart s s') : s'.orbits = s.orbits := h.frame.orbits

theorem Apart.agents (h : Apart s s') : s'.agents = s.agents := h.frame.agents

theorem Requested.refl (s : Store) : Requested c s s := ⟨fun _ => .refl s, .refl s⟩

theorem Requested.trans (h : Requested c s s₁) (h' : Requested c s₁ s') : Requested c s s' :=
  ⟨fun E => (h.keeps E).trans (h'.keeps E), h.apart.trans h'.apart⟩

theorem Requested.takes (h : Requested c s s') : Takes c s s' := (h.keeps nobody).takes

/-- A change of the table of requests, apart from the rest. -/
theorem Requested.of_change (change : IdemChange c s s'.idempotency) (apart : Apart s s') :
    Requested c s s' :=
  ⟨fun _ _ => ⟨.single (.request change apart.frame), apart.tasks⟩, apart⟩

theorem Store.Stale.of_agents {cfg : Cfg} {now : Time} {a : AgentId} (agents : s'.agents = s.agents)
    (h : s'.Stale cfg now a) : s.Stale cfg now a := by
  obtain ⟨ttl, httl, row, hrow, h⟩ := h
  exact ⟨ttl, httl, row, agents ▸ hrow, h⟩

/-- A row matches a request when its agent and its arguments do. -/
theorem idemExact_iff {id : RequestId} {agent : Option AgentId} {args : IdemArgs}
    {status : IdemStatus} {r : IdemRow} : Store.idemExact id agent args status r = true ↔
      r.requestId = id ∧ r.agentId = agent ∧ r.argHash = args ∧ r.status = status := by
  simp [Store.idemExact, and_assoc]

/-- Each write to the table is a step of the rows it matches. -/
theorem updateIdem_requested {p : IdemRow → Bool} {f : IdemRow → IdemRow}
    (step : ∀ r, p r = true → IdemStep c r (f r)) (h : s.updateIdem p f = some s') :
    Requested c s s' := by
  rw [Store.updateIdem] at h
  split at h
  · cases h
    exact .of_change (.update p f (fun r _ => step r) rfl) rfl
  · cases h

theorem deleteIdem_requested {p : IdemRow → Bool} (step : ∀ r, p r = true → IdemDrop c r) :
    Requested c s (s.deleteIdem p) :=
  .of_change (.drop p (fun r _ => step r) rfl) rfl

/-! ## The statements of the table -/

variable {id : RequestId} {agent : Option AgentId} {args : IdemArgs}

theorem beginIdem_requested : Requested c s (s.beginIdem id agent args) := by
  rw [Store.beginIdem]
  split
  · exact .refl s
  · rename_i hnone
    exact .of_change (.reserve id agent args hnone rfl) rfl

/-- A request is answered only while it is in flight. -/
theorem finishIdemExact_requested {reply : Reply} (answer : c.may (.answer id args reply))
    (h : s.finishIdemExact id agent args reply c.now = some s') : Requested c s s' := by
  refine updateIdem_requested (fun r hr => ?_) h
  obtain ⟨hid, -, hargs, inflight⟩ := idemExact_iff.mp hr
  exact .finish reply (by rw [hid, hargs]; exact answer) inflight rfl

theorem clearIdemExact_requested : Requested c s (s.clearIdemExact id agent args) :=
  deleteIdem_requested fun _ hr => .unanswered (idemExact_iff.mp hr).2.2.2

theorem clearIdem_requested (may : c.may (.forget id)) : Requested c s (s.clearIdem id) :=
  deleteIdem_requested fun _ hr => .forgotten (of_decide_eq_true hr ▸ may)

theorem reopenIdemExact_requested (h : s.reopenIdemExact id agent args = some s') :
    Requested c s s' :=
  updateIdem_requested (fun _ hr => .reopen (idemExact_iff.mp hr).2.2.2 rfl) h

theorem markIdemRetryableExact_requested (may : c.may (.retry id))
    (h : s.markIdemRetryableExact id agent args = some s') : Requested c s s' := by
  refine updateIdem_requested (fun r hr => ?_) h
  obtain ⟨hid, -, -, inflight⟩ := idemExact_iff.mp hr
  exact .retry (hid.symm ▸ may) inflight rfl

/-- A request in flight is bound to one operation. -/
theorem bindIdemOperationExact_requested {operation : AttemptId} {owner : String} {generation : ℕ}
    (h : s.bindIdemOperationExact id agent args operation owner generation = some s') :
    Requested c s s' := by
  refine updateIdem_requested (fun r hr => ?_) h
  rw [Bool.and_eq_true, decide_eq_true_eq] at hr
  exact .bind operation owner generation (idemExact_iff.mp hr.1).2.2.2 hr.2 rfl

/-- The operation stays when its executor changes. -/
theorem takeoverIdemOperationExact_requested {operation : AttemptId} {previous : Option String}
    {owner : String} {before generation : ℕ}
    (h : s.takeoverIdemOperationExact id agent args operation previous before owner generation =
      some s') : Requested c s s' := by
  refine updateIdem_requested (fun r hr => ?_) h
  simp only [Bool.and_eq_true] at hr
  exact .takeover owner generation (idemExact_iff.mp hr.1.1.1).2.2.2 rfl

/-! ## The wrapper -/

/-- A request that is let through is reserved, or opened again. -/
theorem enterIdem_requested (h : enterIdem s id agent args = .ok (.inr s')) :
    Requested c s s' := by
  rw [enterIdem] at h
  split at h
  · cases h
  split at h
  · cases h
    exact beginIdem_requested
  split at h
  · cases h
  split at h
  · cases h
  · split at h
    · cases h
    · rename_i hreopen
      cases h
      exact reopenIdemExact_requested hreopen
  · cases h

/-- A body that answers a success, or for good, is cached; another frees its request. -/
theorem exitIdem_requested {r : Result}
    (answer : r.deferred = false → (r.terminal = true ∨ r.reply.isSuccess = true) →
      c.may (.answer id args r.reply))
    (h : exitIdem c.now s id agent args r = .ok s') : Requested c s s' := by
  rw [exitIdem] at h
  split at h
  · cases h
    exact .refl s
  · rename_i ready
    split at h
    · rename_i final
      split at h
      · cases h
      · rename_i hfinish
        cases h
        exact finishIdemExact_requested (answer (by simpa using ready) final) hfinish
    · cases h
      exact clearIdemExact_requested

/-- A verb has the effect of its body, in two phases when the body has two. -/
theorem withIdem_phases {cfg : Cfg} {now : Time} {may may' : Deed → Prop}
    {requestId : Option RequestId} {body : Store → Except Fault (Store × Result)} {r : Result}
    (hbody : ∀ s₁ s₂, Apart s s₁ → s₁.Ok → body s₁ = .ok (s₂, r) →
      Phases cfg now may may' s₁ s₂)
    (answer : ∀ id s₁ s₂, requestId = some id → enterIdem s id agent args = .ok (.inr s₁) →
      body s₁ = .ok (s₂, r) →
      r.deferred = false → (r.terminal = true ∨ r.reply.isSuccess = true) →
        may' (.answer id args r.reply))
    (h : withIdem now s requestId agent args body = .ok (s', r)) (ok : s.Ok) :
    Phases cfg now may may' s s' := by
  unfold withIdem at h
  split at h
  · exact hbody s s' (.refl s) ok h
  · rename_i id
    rw [Outcome.bind_eq_ok] at h
    obtain ⟨hit, henter, h⟩ := h
    cases hit with
    | inl reply =>
        cases h
        exact .refl _ _ _ _ _
    | inr s₁ =>
        rw [Outcome.bind_eq_ok] at h
        obtain ⟨⟨s₂, r₂⟩, h₂, h⟩ := h
        rw [Outcome.bind_eq_ok] at h
        obtain ⟨s₃, h₃, h⟩ := h
        cases h
        have enter : Requested ⟨cfg, now, may⟩ s s₁ := enterIdem_requested henter
        have exit : Requested ⟨cfg, now, may'⟩ s₂ s' :=
          exitIdem_requested (answer id s₁ s₂ rfl henter h₂) h₃
        have ok₁ := ok.moves (enter.takes ok)
        obtain ⟨s₀, first, second⟩ := hbody s₁ s₂ enter.apart ok₁ h₂
        have ok₂ := (ok₁.moves first).moves second
        exact ⟨s₀, (enter.takes ok).trans first, second.trans (exit.takes ok₂)⟩

/-- A verb has the effect of its body. -/
theorem withIdem_takes {requestId : Option RequestId}
    {body : Store → Except Fault (Store × Result)} {r : Result}
    (hbody : ∀ s₁ s₂ r, Apart s s₁ → body s₁ = .ok (s₂, r) → Takes c s₁ s₂)
    (answer : ∀ id s₁ s₂, requestId = some id → enterIdem s id agent args = .ok (.inr s₁) →
      body s₁ = .ok (s₂, r) →
      r.deferred = false → (r.terminal = true ∨ r.reply.isSuccess = true) →
        c.may (.answer id args r.reply))
    (h : withIdem c.now s requestId agent args body = .ok (s', r)) : Takes c s s' := by
  intro ok
  have phases : Phases c.cfg c.now c.may c.may s s' :=
    withIdem_phases (fun s₁ s₂ apart ok₁ h => ⟨s₂, hbody s₁ s₂ r apart h ok₁, .refl⟩) answer h ok
  obtain ⟨s₀, first, second⟩ := phases
  exact first.trans second

/-- A request that is not new changes nothing. -/
theorem withIdem_replayed {now : Time} {requestId : Option RequestId}
    {body : Store → Except Fault (Store × Result)} {r : Result}
    (old : ¬ ∀ id, requestId = some id → ∃ s₁, enterIdem s id agent args = .ok (.inr s₁))
    (h : withIdem now s requestId agent args body = .ok (s', r)) : s' = s := by
  cases requestId with
  | none => exact absurd (fun id none => (by cases none)) old
  | some id =>
      rw [withIdem, Outcome.bind_eq_ok] at h
      obtain ⟨hit, henter, h⟩ := h
      cases hit with
      | inl reply =>
          cases h
          rfl
      | inr s₁ =>
          refine absurd (fun id' same => ?_) old
          cases same
          exact ⟨s₁, henter⟩

/-- The computation leaves no terminal result. -/
def Plain (x : Except Fault (Store × Result)) : Prop :=
  ∀ s r, x = .ok (s, r) → r.terminal = false

theorem Plain.set (s : Store) (reply : Reply) : Plain (.ok (s, .set reply)) := by
  intro s' r h
  cases h
  rfl

theorem Plain.fault (e : Fault) : Plain (.error e) := by
  intro s' r h
  cases h

theorem Plain.bind {α : Type} {x : Except Fault α} {f : α → Except Fault (Store × Result)}
    (h : ∀ a, Plain (f a)) : Plain (x >>= f) := by
  intro s' r hx
  rw [Outcome.bind_eq_ok] at hx
  obtain ⟨a, -, hx⟩ := hx
  exact h a s' r hx

/-- A verb that has no terminal results is answered by its successes only. -/
theorem withIdem_takes_plain {requestId : Option RequestId}
    {body : Store → Except Fault (Store × Result)} {r : Result} (plain : ∀ s, Plain (body s))
    (hbody : ∀ s₁ s₂ r, Apart s s₁ → body s₁ = .ok (s₂, r) → Takes c s₁ s₂)
    (answer : ∀ id, requestId = some id → r.reply.isSuccess = true →
      c.may (.answer id args r.reply))
    (h : withIdem c.now s requestId agent args body = .ok (s', r)) : Takes c s s' := by
  refine withIdem_takes hbody (fun id s₁ s₂ hid _ hr _ final => answer id hid ?_) h
  refine final.resolve_left fun terminal => ?_
  rw [plain s₁ s₂ r hr] at terminal
  cases terminal

/-! ## What the wrapper adds to its body -/

theorem enterIdem_apart (ok : s.Ok)
    (h : enterIdem s id agent args = .ok (.inr s')) : Apart s s' ∧ s'.Ok := by
  have entered : Requested ⟨{}, 0, fun _ => True⟩ s s' := enterIdem_requested h
  exact ⟨entered.apart, ok.moves (entered.takes ok)⟩

/-- The exit of the wrapper touches the requests only. -/
theorem exitIdem_eq {now : Time} {result : Result}
    (h : exitIdem now s id agent args result = .ok s') :
    s' = { s with idempotency := s'.idempotency } := by
  rw [exitIdem] at h
  split at h
  · cases h
    rfl
  split at h
  · split at h
    · cases h
    · rename_i finished
      cases h
      rw [Store.finishIdemExact, Store.updateIdem] at finished
      split at finished
      · cases finished
        rfl
      · cases finished
  · cases h
    rfl

/-- A verb that is a hit, or runs its body on the same tables and answers as it does. -/
theorem withIdem_cases {now : Time} {requestId : Option RequestId}
    {body : Store → Except Fault (Store × Result)} {result : Result} (ok : s.Ok)
    (h : withIdem now s requestId agent args body = .ok (s', result)) :
    (∃ id, requestId = some id ∧ enterIdem s id agent args = .ok (.inl result.reply) ∧
        s' = s) ∨
      ∃ s₁ s₂, Apart s s₁ ∧ s₁.Ok ∧ body s₁ = .ok (s₂, result) ∧
        s' = { s₂ with idempotency := s'.idempotency } := by
  unfold withIdem at h
  split at h
  · exact Or.inr ⟨s, s', .refl s, ok, h, rfl⟩
  rename_i id
  rw [Outcome.bind_eq_ok] at h
  obtain ⟨hit, henter, h⟩ := h
  cases hit with
  | inl reply =>
      cases h
      exact Or.inl ⟨id, rfl, henter, rfl⟩
  | inr s₁ =>
      rw [Outcome.bind_eq_ok] at h
      obtain ⟨⟨s₂, r₂⟩, h₂, h⟩ := h
      rw [Outcome.bind_eq_ok] at h
      obtain ⟨s₃, h₃, h⟩ := h
      cases h
      obtain ⟨entered, ok₁⟩ := enterIdem_apart ok henter
      exact Or.inr ⟨s₁, s₂, entered, ok₁, h₂, exitIdem_eq h₃⟩

/-! ## The split verbs -/

variable {requestId : Option RequestId} {response reply : Reply}

/-- The answer of a split request is cached by the executor that is bound. -/
theorem completeSplitIdem_requested {operation : Option (AttemptId × String × ℕ)}
    (answer : ∀ id, requestId = some id → response.isSuccess = true →
      c.may (.answer id args response))
    (h : completeSplitIdem c.now s requestId agent args response operation = .ok (s', reply)) :
    Requested c s s' := by
  unfold completeSplitIdem at h
  split at h
  · cases h
    exact .refl s
  · rename_i id
    have kept (h : completeSplitIdem c.now s (some id) agent args response none =
        .ok (s', reply)) : Requested c s s' := by
      unfold completeSplitIdem at h
      dsimp only at h
      rw [if_neg (by decide)] at h
      split at h
      · rename_i success
        split at h
        · cases h
        · rename_i hfinish
          cases h
          exact finishIdemExact_requested (answer id rfl success) hfinish
      · cases h
        exact clearIdemExact_requested
    cases operation with
    | none => exact kept h
    | some op =>
        dsimp only at h
        split at h
        · cases h
          exact .refl s
        · exact kept h

theorem finishSplitIdemTerminal_requested
    (answer : ∀ id, requestId = some id → c.may (.answer id args response))
    (h : finishSplitIdemTerminal c.now s requestId agent args response = .ok (s', reply)) :
    Requested c s s' := by
  unfold finishSplitIdemTerminal at h
  split at h
  · cases h
    exact .refl s
  · rename_i id
    split at h
    · cases h
    · rename_i hfinish
      cases h
      exact finishIdemExact_requested (answer id rfl) hfinish

end

end Omd
