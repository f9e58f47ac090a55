import Omd.Members

/-!
# What a claim is answered

A claim in the transaction of a batch is answered as held by its receipt, by the row of its request
or of its intent, or by a grant.  Whether it is, the store says before: the task of the claim waits
to be started, and the receipt, or else the rows, are in its favour.
-/

namespace Omd

open Lib

variable {cfg : Cfg} {now : Time} {s s' : Store} {c : ClaimArgs}

/-! ## The gates -/

/-- The bail epoch of an agent, or that of a new one. -/
def Store.epochOf (s : Store) (agent : AgentId) : ℕ :=
  ((s.getAgent agent).map Agent.bailEpoch).getD 0

namespace ClaimArgs

/-- The claim gets to its receipt: its task waits to be started, and the rows of its request are
its agent's. -/
structure Enters (s : Store) (c : ClaimArgs) : Prop where
  task : ∀ id, c.taskId = some id → ∃ t, s.getTask id = some t ∧ t.state.admission = true
  owner : ∀ id o, c.requestId = some id → s.orbitByRequest id = some o → o.agentId = c.agentId

/-- The rows let a claim through that has no answer yet: its agent lives, the last row of its
request asks for the same and is held or may be retried, and a live row of its intent is held under
its request. -/
structure Clears (s : Store) (c : ClaimArgs) : Prop where
  alive : checkAlive s (some c.agentId) c.bailEpoch = none
  latest : ∀ o, s.latestOrbitByRequest c.requestId = some o →
    sameRequest o c (s.epochOf c.agentId) = .ok true ∧ (o.state = .HELD ∨
      o.retryablePolicyDenial = true ∧ o.requestGeneration < maxRequestGeneration)
  intent : ∀ o, s.orbitByIntent c.intentKey = some o →
    o.state = .HELD ∧ (c.requestId = none ∨ o.requestId = c.requestId)

/-- The receipt of a claim that does not stand in its way: one that may be retried, or that names a
row as held. -/
structure Favours (c : ClaimArgs) (prior : IdemRow) : Prop where
  agent : prior.agentId = some c.agentId
  args : prior.argHash = c.idemArgs
  answer : prior.status = .RETRYABLE ∨ prior.status = .DONE ∧
    (prior.response.getD {}).state = some (.orbit .HELD) ∧
      (prior.response.getD {}).orbitId ≠ none

/-- The receipt of a claim, if there is one. -/
def receipt (s : Store) (c : ClaimArgs) : Option IdemRow := c.requestId.bind s.getIdem

/-- The claim is answered as held. -/
structure Granted (s : Store) (c : ClaimArgs) : Prop extends Enters s c where
  receipt : ∀ prior, c.receipt s = some prior → c.Favours prior
  rows : (∀ prior, c.receipt s = some prior → prior.status ≠ .DONE) → c.Clears s

end ClaimArgs

/-- The reply names a row as held. -/
structure Reply.Positive (r : Reply) : Prop where
  state : r.state = some (.orbit .HELD)
  orbitId : r.orbitId ≠ none

theorem Reply.not_positive {r : Reply} (h : ∀ st, r.state ≠ some (.orbit st)) : ¬ r.Positive :=
  fun positive => h _ positive.state

theorem dedupReply_positive {o : Orbit} : (dedupReply o).Positive ↔ o.state = .HELD := by
  constructor
  · intro positive
    have state := positive.state
    rw [dedupReply, Option.some.injEq, ReplyState.orbit.injEq] at state
    exact state
  · intro held
    exact ⟨by rw [dedupReply, held], by simp [dedupReply]⟩

theorem taskGate_eq_none {task : Option TaskId} : taskGate s task = none ↔
    ∀ id, task = some id → ∃ t, s.getTask id = some t ∧ t.state.admission = true := by
  cases task with
  | none => simp [taskGate]
  | some id =>
      cases found : s.getTask id with
      | none => simp [taskGate, found]
      | some t => simp [taskGate, found]

/-! ## The rows -/

theorem retryable_denied {o : Orbit} (h : o.retryablePolicyDenial = true) : o.state = .DENIED := by
  rw [Orbit.retryablePolicyDenial, Bool.and_eq_true, decide_eq_true_eq] at h
  exact h.1

/-- The row of a request that is answered again, or the generation of a claim that goes on. -/
theorem claimGeneration_cases {epoch : ℕ} {out : Reply ⊕ ℕ}
    (h : claimGeneration s c none epoch = .ok out) :
    (∃ g, out = .inr g ∧ ∀ o, s.latestOrbitByRequest c.requestId = some o →
        sameRequest o c epoch = .ok true ∧ o.retryablePolicyDenial = true ∧
          o.requestGeneration < maxRequestGeneration) ∨
      ∃ r o, out = .inl r ∧ s.latestOrbitByRequest c.requestId = some o ∧
        (r.Positive ↔ sameRequest o c epoch = .ok true ∧ o.state = .HELD) ∧
          ¬ (sameRequest o c epoch = .ok true ∧ o.retryablePolicyDenial = true ∧
            o.requestGeneration < maxRequestGeneration) := by
  unfold claimGeneration at h
  generalize maxRequestGeneration = bound at h ⊢
  cases latest : s.latestOrbitByRequest c.requestId with
  | none =>
      rw [latest] at h
      cases h
      exact Or.inl ⟨0, rfl, by simp⟩
  | some dup =>
      rw [latest] at h
      dsimp only at h
      rw [Outcome.bind_eq_ok] at h
      obtain ⟨same, hsame, h⟩ := h
      cases same with
      | false =>
          cases h
          refine Or.inr ⟨_, dup, rfl, rfl, ?_, ?_⟩
          · rw [hsame]
            exact iff_of_false (Reply.not_positive (by simp [Reply.refuse])) (by simp)
          · rw [hsame]
            simp
      | true =>
          by_cases retryable : dup.retryablePolicyDenial = true
          · have denied := retryable_denied retryable
            by_cases exhausted : bound ≤ dup.requestGeneration
            · simp only [Bool.not_true, Bool.false_eq_true, if_false, retryable, if_true,
                exhausted] at h
              cases h
              refine Or.inr ⟨_, dup, rfl, rfl, ?_, fun free => absurd exhausted free.2.2.not_ge⟩
              exact iff_of_false (Reply.not_positive (by simp [Reply.reject])) (by simp [denied])
            · simp only [Bool.not_true, Bool.false_eq_true, if_false, retryable, if_true,
                exhausted] at h
              cases h
              refine Or.inl ⟨_, rfl, ?_⟩
              rintro o found
              cases found
              exact ⟨hsame, retryable, not_le.mp exhausted⟩
          · simp only [Bool.not_true, Bool.false_eq_true, if_false, retryable] at h
            cases h
            refine Or.inr ⟨_, dup, rfl, rfl, ?_, fun free => retryable free.2.1⟩
            rw [dedupReply_positive]
            exact (and_iff_right hsame).symm

theorem upsertAgent_epoch (agent : AgentId) (now : Time) :
    (s.upsertAgent agent now).epochOf agent = s.epochOf agent := by
  rw [Store.epochOf, Store.epochOf, Store.upsertAgent]
  cases found : s.getAgent agent with
  | none =>
      rw [Store.getAgent, Table.get] at found ⊢
      rw [List.find?_append, found]
      simp
  | some a =>
      dsimp only
      have kept : (s.setAgent agent fun a =>
          { a with state := .WORKING, lastHeartbeat := now }).getAgent agent =
            (s.getAgent agent).map fun a => { a with state := .WORKING, lastHeartbeat := now } := by
        change Table.get Agent.agentId agent (Table.modify Agent.agentId agent _ s.agents) = _
        rw [Table.get_modify]
        · simp [Store.getAgent]
        · exact fun _ same => same
      rw [kept, found]
      rfl

theorem latestOrbitByRequest_congr {s₁ : Store} (orbits : s₁.orbits = s.orbits)
    (id : Option RequestId) : s₁.latestOrbitByRequest id = s.latestOrbitByRequest id := by
  cases id with
  | none => rfl
  | some id =>
      change Store.latestOf (s₁.orbitsOfRequest id) = Store.latestOf (s.orbitsOfRequest id)
      rw [Store.orbitsOfRequest, Store.orbitsOfRequest, orbits]

theorem ClaimArgs.Clears.congr {s₁ : Store} (orbits : s₁.orbits = s.orbits)
    (agents : s₁.agents = s.agents) :
    c.Clears s₁ ↔ c.Clears s := by
  have latest := latestOrbitByRequest_congr orbits c.requestId
  have intent : s₁.orbitByIntent c.intentKey = s.orbitByIntent c.intentKey := by
    rw [Store.orbitByIntent, Store.orbitByIntent, orbits]
  have epoch : s₁.epochOf c.agentId = s.epochOf c.agentId := by
    rw [Store.epochOf, Store.epochOf, Store.getAgent, Store.getAgent, agents]
  constructor
  · rintro ⟨alive, rows, intents⟩
    rw [checkAlive_congr agents] at alive
    rw [latest, epoch] at rows
    rw [intent] at intents
    exact ⟨alive, rows, intents⟩
  · rintro ⟨alive, rows, intents⟩
    refine ⟨?_, ?_, ?_⟩
    · rw [checkAlive_congr agents]
      exact alive
    · rw [latest, epoch]
      exact rows
    · rw [intent]
      exact intents

/-- A policy that decides about a request accepts its priority. -/
theorem accepts_of_decision {raw : List String} {mode : Mode} {priority q : ℤ}
    {enqueued : Option Time} {d : AdmissionDecision}
    (h : admissionDecision cfg s raw mode priority (some q) none (some cfg.policy.version) enqueued
      now = .ok d) : cfg.policy.acceptsBasePriority priority = true := by
  rw [admissionDecision, Outcome.bind_eq_ok] at h
  obtain ⟨request, built, h⟩ := h
  obtain ⟨v, hv, -, eq⟩ := build_eq_ok built
  cases hv
  have held : ∀ row ∈ s.heldOrbits.map Orbit.row, row.Readable := by
    intro row hrow
    obtain ⟨o, -, rfl⟩ := List.mem_map.mp hrow
    exact o.row_readable
  have pending : ∀ row ∈ s.pendingOrbits.map Orbit.row, row.Readable := by
    intro row hrow
    obtain ⟨o, -, rfl⟩ := List.mem_map.mp hrow
    exact o.row_readable
  rw [Store.decide, decideAdmission_spec held pending] at h
  cases hrank : request.rank cfg.policy now with
  | none =>
      rw [hrank] at h
      cases h
  | some rank =>
      obtain ⟨e, effective, -⟩ := rankKey_ticket hrank
      rw [eq] at effective
      rw [QueuePolicy.effectivePriority, if_neg (by simp [QueuePolicy.version])] at effective
      split at effective
      · rename_i accepts
        exact accepts
      · cases effective

/-- The preflight would grant the claim. -/
structure Decided (cfg : Cfg) (now : Time) (s : Store) (c : ClaimArgs) : Prop where
  grants : ∃ raw q d, normalizePathspec raw = .ok c.pathspec ∧ s.seq < q ∧
    admissionDecision cfg s raw c.mode c.priority (some q) none (some cfg.policy.version)
      (some now) now = .ok d ∧ d.grantable = true

theorem admissionDecision_congr {s₁ : Store} (orbits : s₁.orbits = s.orbits) {paths : List String}
    {mode : Mode} {priority : ℤ} {q : Option ℤ} {id : Option OrbitId}
    {version : Option PolicyVersion} {enqueued : Option Time} :
    admissionDecision cfg s₁ paths mode priority q id version enqueued now =
      admissionDecision cfg s paths mode priority q id version enqueued now := by
  have held : s₁.heldOrbits = s.heldOrbits := by
    rw [Store.heldOrbits, Store.heldOrbits, orbits]
  have pending : s₁.pendingOrbits = s.pendingOrbits := by
    rw [Store.pendingOrbits, Store.pendingOrbits, orbits]
  rw [admissionDecision, admissionDecision]
  unfold Store.decide
  rw [held, pending]

theorem Decided.grantable {s₁ : Store} (h : Decided cfg now s c) (drawn : Drawn s)
    (intents : s.Intents) (beside : Beside s s₁) {d : AdmissionDecision}
    (decision : admissionDecision cfg s₁.bumpUuid c.pathspec c.mode c.priority (some (s₁.seq + 1))
      (some s₁.uuid) (some cfg.policy.version) (some now) now = .ok d) : d.grantable = true := by
  obtain ⟨raw, q, d₀, normal, next, decision₀, grantable⟩ := h.grants
  have orbits : s₁.bumpUuid.orbits = s.orbits := beside.orbits
  refine (grantable_congr orbits intents normal (fun o ho => ?_) next ?_ decision₀
    decision).trans grantable
  · rw [beside.uuid]
    exact (drawn.fresh o ho).ne
  · rw [beside.seq]
    exact Int.lt_succ s.seq

/-- The decision goes by the rows. -/
theorem Decided.beside {s₁ : Store} (h : Decided cfg now s c) (beside : Beside s s₁) :
    Decided cfg now s₁ c := by
  obtain ⟨raw, q, d, normal, next, decision, grantable⟩ := h.grants
  refine ⟨raw, q, d, normal, beside.seq ▸ next, ?_, grantable⟩
  rw [← decision]
  exact admissionDecision_congr beside.orbits

theorem Decided.accepts (h : Decided cfg now s c) :
    cfg.policy.acceptsBasePriority c.priority = true := by
  obtain ⟨_, _, _, -, -, decision, -⟩ := h.grants
  exact accepts_of_decision decision

/-- A live row of the intent of a request whose last row is held is that row. -/
theorem intent_of_latest {o p : Orbit} {epoch : ℕ} (intents : s.Intents)
    (latest : s.latestOrbitByRequest c.requestId = some o)
    (same : sameRequest o c epoch = .ok true) (held : o.state = .HELD)
    (found : s.orbitByIntent c.intentKey = some p) :
    p.state = .HELD ∧ (c.requestId = none ∨ p.requestId = c.requestId) := by
  cases request : c.requestId with
  | none =>
      rw [request] at latest
      cases latest
  | some id =>
      rw [request] at latest
      have mem := (latestOf_spec latest).1
      simp only [Store.orbitsOfRequest, List.mem_filter, Bool.and_eq_true, decide_eq_true_eq] at mem
      obtain ⟨hp, key, live⟩ := orbitByIntent_spec found
      obtain ⟨kind, intent⟩ := intents.of_key hp key
      have asks := sameRequest_spec intents mem.1 mem.2.2 same
      have eq : p = o := intents.single p hp o mem.1 kind mem.2.2 live (by simp [Orbit.live, held])
        (intent.trans asks.symm)
      exact ⟨eq ▸ held, Or.inr (eq ▸ mem.2.1)⟩

/-- After its receipt the claim is answered as held exactly if the rows let it through. -/
theorem claimSwept_positive {r : Result} (drawn : Drawn s) (intents : s.Intents)
    (decided : Decided cfg now s c) (h : claimSwept cfg s c none now = .ok (s', r)) :
    r.reply.Positive ↔ c.Clears s := by
  rw [claimSwept] at h
  split at h
  · rename_i dead hdead
    cases h
    refine iff_of_false (Reply.not_positive fun st => ?_) fun clears => ?_
    · rw [Result.set, state_of_dead hdead]
      simp
    · rw [clears.alive] at hdead
      cases hdead
  rename_i alive
  have beside : Beside s (s.upsertAgent c.agentId now) := by
    rw [upsertAgent_eq]
    exact ⟨rfl, rfl, rfl, rfl⟩
  have intent : (s.upsertAgent c.agentId now).orbitByIntent c.intentKey =
      s.orbitByIntent c.intentKey := by
    rw [Store.orbitByIntent, Store.orbitByIntent, beside.orbits]
  have latest : (s.upsertAgent c.agentId now).latestOrbitByRequest c.requestId =
      s.latestOrbitByRequest c.requestId := latestOrbitByRequest_congr beside.orbits _
  have epoch : (((s.upsertAgent c.agentId now).getAgent c.agentId).map Agent.bailEpoch).getD 0 =
      s.epochOf c.agentId := upsertAgent_epoch c.agentId now
  dsimp only at h
  rw [Outcome.bind_eq_ok] at h
  obtain ⟨gen, hgen, h⟩ := h
  rw [epoch] at h hgen
  have generations := claimGeneration_cases hgen
  rw [latest] at generations
  rcases generations with ⟨g, rfl, free⟩ | ⟨reply, o, rfl, found, positive, stuck⟩
  · have rows (intents : ∀ o, s.orbitByIntent c.intentKey = some o →
        o.state = .HELD ∧ (c.requestId = none ∨ o.requestId = c.requestId)) : c.Clears s :=
      ⟨alive, fun o found => ⟨(free o found).1, Or.inr (free o found).2⟩, intents⟩
    dsimp only at h
    cases claimed : claimIntent (s.upsertAgent c.agentId now) c with
    | some reply =>
        rw [claimed] at h
        cases h
        rw [claimIntent, intent] at claimed
        cases found : s.orbitByIntent c.intentKey with
        | none =>
            rw [found] at claimed
            cases claimed
        | some dup =>
            rw [found] at claimed
            dsimp only at claimed
            split at claimed
            · cases claimed
            split at claimed
            · rename_i other
              cases claimed
              refine iff_of_false (Reply.not_positive (by simp [Reply.refuse, Result.set]))
                fun clears => ?_
              rcases (clears.intent dup found).2 with none | same
              · exact other.1 none
              · exact other.2 same
            · rename_i same
              cases claimed
              rw [not_and_or, not_not, not_not] at same
              refine dedupReply_positive.trans ⟨fun held => rows fun o ho => ?_, fun clears =>
                (clears.intent dup found).1⟩
              cases found.symm.trans ho
              exact ⟨held, same⟩
    | none =>
        rw [claimed] at h
        dsimp only at h
        rw [decided.accepts] at h
        simp only [Bool.not_true, Bool.false_eq_true, if_false] at h
        have apart := claimIntent_eq_none claimed
        rw [intent] at apart
        have clears : c.Clears s := by
          refine rows fun o found => absurd ?_ (apart o found)
          obtain ⟨mem, key, -⟩ := orbitByIntent_spec found
          exact congrArg IntentKey.agent (intents.of_key mem key).2
        rw [claimDecide, Outcome.bind_eq_ok] at h
        obtain ⟨d, decision, h⟩ := h
        rw [if_pos (decided.grantable drawn intents beside decision)] at h
        obtain ⟨o, -, -, -, state, named, -⟩ := claimGrant_left (beside.drawn drawn) rfl h
        exact iff_of_true ⟨state, by simp [named]⟩ clears
  · cases h
    refine positive.trans ⟨fun held => ?_, fun clears => ?_⟩
    · refine ⟨alive, fun p hp => ?_, fun p hp => intent_of_latest intents found held.1 held.2 hp⟩
      cases found.symm.trans hp
      exact ⟨held.1, Or.inl held.2⟩
    · obtain ⟨same, held | retryable⟩ := clears.latest o found
      · exact ⟨same, held⟩
      · exact absurd ⟨same, retryable⟩ stuck

/-! ## The receipt -/

/-- A claim that has no answer yet is granted exactly if the rows let it through. -/
theorem granted_iff_clears (enters : c.Enters s)
    (favours : ∀ prior, c.receipt s = some prior → c.Favours prior)
    (unanswered : ∀ prior, c.receipt s = some prior → prior.status ≠ .DONE) :
    c.Granted s ↔ c.Clears s :=
  ⟨fun granted => granted.rows unanswered, fun clears => ⟨enters, favours, fun _ => clears⟩⟩

theorem owned_iff (c : ClaimArgs) {id : RequestId} {agent : AgentId} :
    ((s.orbitByRequest id).any fun o => !c.idemArgs.isClaim || some agent ≠ some o.agentId) =
        false ↔ ∀ o, s.orbitByRequest id = some o → o.agentId = agent := by
  cases s.orbitByRequest id with
  | none => simp
  | some o =>
      have claims : c.idemArgs.isClaim = true := rfl
      simp only [Option.any_some, claims, Bool.not_true, Bool.false_or, decide_eq_false_iff_not,
        ne_eq, not_not, Option.some.injEq, forall_eq']
      exact eq_comm

/-- The entry answers a claim as held exactly if the store says so, or leaves it to the rows. -/
theorem enterIdem_positive {id : RequestId} {hit : Reply ⊕ Store} (request : c.requestId = some id)
    (task : ∀ id, c.taskId = some id → ∃ t, s.getTask id = some t ∧ t.state.admission = true)
    (h : enterIdem s id (some c.agentId) c.idemArgs = .ok hit) :
    (∃ reply, hit = .inl reply ∧ (reply.Positive ↔ c.Granted s)) ∨
      ∃ s₁, hit = .inr s₁ ∧ (c.Granted s ↔ c.Clears s) ∧
        ∀ prior, c.receipt s = some prior → prior.status ≠ .DONE := by
  have receipt : c.receipt s = s.getIdem id := by rw [ClaimArgs.receipt, request, Option.bind_some]
  rw [enterIdem] at h
  split at h
  · rename_i foreign
    cases h
    refine Or.inl ⟨_, rfl, iff_of_false (Reply.not_positive (by simp [Reply.refuse])) ?_⟩
    intro granted
    have owned := (owned_iff c).mpr fun o found => granted.owner id o request found
    rw [owned] at foreign
    cases foreign
  rename_i own
  have owner := (owned_iff c).mp (Bool.not_eq_true _ ▸ own)
  have enters : c.Enters s := by
    refine ⟨task, fun id' o asked found => owner o ?_⟩
    cases request.symm.trans asked
    exact found
  split at h
  · rename_i new
    cases h
    rw [← receipt] at new
    exact Or.inr ⟨_, rfl, granted_iff_clears enters (by simp [new]) (by simp [new]), by simp [new]⟩
  rename_i prior found
  rw [← receipt] at found
  split at h
  · rename_i other
    cases h
    refine Or.inl ⟨_, rfl, iff_of_false (Reply.not_positive (by simp [Reply.refuse])) ?_⟩
    intro granted
    have favours := granted.receipt prior found
    exact other.elim (absurd favours.agent) (absurd favours.args)
  rename_i same
  rw [not_or, not_not, not_not] at same
  split at h
  · rename_i done
    cases h
    refine Or.inl ⟨_, rfl, fun positive => ?_, fun granted => ?_⟩
    · refine ⟨enters, fun row hrow => ?_, fun unanswered => absurd done (unanswered prior found)⟩
      cases found.symm.trans hrow
      exact ⟨same.1, same.2, Or.inr ⟨done, positive.state, positive.orbitId⟩⟩
    · rcases (granted.receipt prior found).answer with retry | ⟨-, state, orbit⟩
      · rw [done] at retry
        cases retry
      · exact ⟨state, orbit⟩
  · rename_i retry
    have unanswered (row : IdemRow) (hrow : c.receipt s = some row) : row.status ≠ .DONE := by
      cases found.symm.trans hrow
      simp [retry]
    have clears : c.Granted s ↔ c.Clears s := by
      refine granted_iff_clears enters (fun row hrow => ?_) unanswered
      cases found.symm.trans hrow
      exact ⟨same.1, same.2, Or.inl retry⟩
    split at h
    · cases h
    · cases h
      exact Or.inr ⟨_, rfl, clears, unanswered⟩
  · rename_i inflight
    cases h
    refine Or.inl ⟨_, rfl, iff_of_false (Reply.not_positive (by simp [Reply.refuse])) ?_⟩
    intro granted
    rcases (granted.receipt prior found).answer with retry | ⟨done, -⟩
    · rw [inflight] at retry
      cases retry
    · rw [inflight] at done
      cases done

/-- A receipt that says that the queue was full does not name a row as held. -/
theorem granted_not_full (granted : c.Granted s) : replayTerminalClaimOverload s c = none := by
  rw [replayTerminalClaimOverload]
  cases found : c.requestId.bind s.getIdem with
  | none => rfl
  | some prior =>
      have favours := granted.receipt prior found
      dsimp only
      rcases favours.answer with retry | ⟨done, state, -⟩
      · simp [retry]
      · rw [if_neg (by simp [done, favours.agent, favours.args])]
        cases response : prior.response with
        | none => rfl
        | some reply =>
            rw [response, Option.getD_some] at state
            simp [state]

/-- A claim of a batch is answered as held exactly if the store says so. -/
theorem claimSection_positive {r : Reply} (drawn : Drawn s) (intents : s.Intents)
    (decided : (∀ prior, c.receipt s = some prior → prior.status ≠ .DONE) → Decided cfg now s c)
    (h : claimSection cfg now s c (some now) none = .ok (s', r)) :
    r.Positive ↔ c.Granted s := by
  rw [claimSection] at h
  split at h
  · rename_i reply full
    cases h
    refine iff_of_false (Reply.not_positive ?_) fun granted => ?_
    · rw [replayTerminalClaimOverload_state full]
      simp
    · rw [granted_not_full granted] at full
      cases full
  split at h
  · rename_i reply refused
    cases h
    refine iff_of_false (Reply.not_positive ?_) fun granted => ?_
    · rw [taskGate_state refused]
      simp
    · rw [taskGate_eq_none.mpr granted.task] at refused
      cases refused
  rename_i gate
  have task := taskGate_eq_none.mp gate
  rw [Outcome.bind_eq_ok] at h
  obtain ⟨⟨s₁, r₁⟩, h₁, h⟩ := h
  cases h
  unfold withIdem at h₁
  split at h₁
  · rename_i request
    have none : c.receipt s = none := by rw [ClaimArgs.receipt, request, Option.bind_none]
    have enters : c.Enters s := ⟨task, by simp [request]⟩
    rw [claimSwept_positive drawn intents (decided (by simp [none])) h₁]
    exact (granted_iff_clears enters (by simp [none]) (by simp [none])).symm
  rename_i id request
  rw [Outcome.bind_eq_ok] at h₁
  obtain ⟨hit, entered, h₁⟩ := h₁
  rcases enterIdem_positive request task entered with ⟨reply, rfl, answer⟩ |
    ⟨s₂, rfl, clears, unanswered⟩
  · cases h₁
    exact answer
  dsimp only at h₁
  rw [Outcome.bind_eq_ok] at h₁
  obtain ⟨⟨s₃, r₃⟩, h₃, h₁⟩ := h₁
  rw [Outcome.bind_eq_ok] at h₁
  obtain ⟨s₄, -, h₁⟩ := h₁
  cases h₁
  obtain ⟨eq, -⟩ := enterIdem_eq entered
  have beside : Beside s s₂ := by
    rw [eq]
    exact ⟨rfl, rfl, rfl, rfl⟩
  have agents : s₂.agents = s.agents := by rw [eq]
  have decided := (decided unanswered).beside beside
  rw [claimSwept_positive (beside.drawn drawn) (beside.intents intents) decided h₃,
    ClaimArgs.Clears.congr beside.orbits agents]
  exact clears.symm

/-! ## The members -/

/-- The rows of a request with one owner: the one the request finds first has it. -/
theorem owner_congr {id : RequestId} {agent : AgentId} (owners : s'.owners id = s.owners id) :
    (∀ o, s'.orbitByRequest id = some o → o.agentId = agent) ↔
      ∀ o, s.orbitByRequest id = some o → o.agentId = agent := by
  let owner (o : Orbit) : ℕ × AgentId := (o.requestGeneration, o.agentId)
  let later (best : Option (ℕ × AgentId)) (o : ℕ × AgentId) : Option (ℕ × AgentId) :=
    match best with
    | none => some o
    | some b => if b.1 ≤ o.1 then some o else some b
  have first (rows : List Orbit) :
      (Store.latestOf rows).map owner = (rows.map owner).foldl later none := by
    rw [List.foldl_map, Store.latestOf]
    refine (List.foldl_hom (Option.map owner) fun best o => ?_).symm
    cases best with
    | none => rfl
    | some b =>
        by_cases le : b.requestGeneration ≤ o.requestGeneration <;> simp [later, owner, le]
  have same : (s'.orbitByRequest id).map owner = (s.orbitByRequest id).map owner := by
    rw [Store.orbitByRequest, Store.orbitByRequest, first, first, List.map_reverse,
      List.map_reverse]
    exact congrArg (fun l => l.reverse.foldl later none) owners
  have reads (s : Store) : (∀ o, s.orbitByRequest id = some o → o.agentId = agent) ↔
      ∀ p, (s.orbitByRequest id).map owner = some p → p.2 = agent := by
    cases s.orbitByRequest id <;> simp [owner]
  rw [reads s', reads s, same]

namespace BeginArgs

variable (b : BeginArgs) {spec : Spec}

/-- The claim of the member is answered as held. -/
def Granted (cfg : Cfg) (s : Store) (spec : Spec) : Prop :=
  ∃ c, (b.claimArgs spec).validate cfg = .ok c ∧ c.Granted s

/-- The member is held under its key, or the preflight would grant it with this ticket. -/
def ClearAt (cfg : Cfg) (now : Time) (s : Store) (spec : Spec) (k : ℕ) : Prop :=
  match b.ownIntent s spec with
  | some dup => dup.state = .HELD
  | none => ∃ d, admissionDecision cfg s spec.paths spec.mode b.priority (some (s.seq + k)) none
      (some cfg.policy.version) (some now) now = .ok d ∧ d.grantable = true

/-- What the preflight asks of the store. -/
structure Clear (cfg : Cfg) (now : Time) (s : Store) (legacy : Bool) : Prop where
  resumes : legacy = true → b.legacyResumeLive cfg s = true
  members : ∀ m ∈ b.specs.zipIdx 1, b.ClearAt cfg now s m.1 m.2

end BeginArgs

variable {b : BeginArgs} {spec : Spec}

theorem beginPreflight_iff {specs : List Spec} {k : ℕ} {claims : List Acquired} :
    (∃ held, beginPreflight cfg now s b specs k claims = .ok (.inr held)) ↔
      ∀ m ∈ specs.zipIdx k, b.ClearAt cfg now s m.1 m.2 := by
  induction specs generalizing k claims with
  | nil => simp [beginPreflight]
  | cons spec specs ih =>
      have rest (claims : List Acquired) :
          (∃ held, beginPreflight cfg now s b specs ((k : ℤ) + 1) claims = .ok (.inr held)) ↔
            ∀ m ∈ specs.zipIdx (k + 1), b.ClearAt cfg now s m.1 m.2 := by
        rw [← Nat.cast_succ]
        exact ih
      rw [List.zipIdx_cons, List.forall_mem_cons, beginPreflight, BeginArgs.ClearAt]
      cases own : b.ownIntent s spec with
      | some dup =>
          dsimp only
          by_cases held : dup.state = .HELD
          · rw [if_neg (not_not.mpr held)]
            exact (rest _).trans (and_iff_right held).symm
          · rw [if_pos held]
            simp [held]
      | none =>
          dsimp only
          cases decision : admissionDecision cfg s spec.paths spec.mode b.priority
            (some (s.seq + k)) none (some cfg.policy.version) (some now) now with
          | error fault => simp [Outcome.bind_eq_ok]
          | ok d =>
              have bound {α : Type} (f : AdmissionDecision → Except Fault α) :
                  (Except.ok d >>= f) = f d := rfl
              rw [bound]
              by_cases grantable : d.grantable = true
              · rw [if_pos grantable]
                exact (rest _).trans (and_iff_right ⟨d, rfl, grantable⟩).symm
              · rw [if_neg grantable]
                refine iff_of_false ?_ ?_
                · rintro ⟨held, h⟩
                  rw [Outcome.bind_eq_ok] at h
                  obtain ⟨_, -, h⟩ := h
                  cases h
                · rintro ⟨⟨d', same, grantable'⟩, -⟩
                  cases same
                  exact grantable grantable'

theorem BeginArgs.Clear.member {legacy : Bool} (h : b.Clear cfg now s legacy)
    (hspec : spec ∈ b.specs) : ∃ k, 0 < k ∧ b.ClearAt cfg now s spec k := by
  rw [← List.zipIdx_map_fst 1 b.specs] at hspec
  obtain ⟨m, hm, rfl⟩ := List.mem_map.mp hspec
  exact ⟨m.2, List.le_snd_of_mem_zipIdx hm, h.members m hm⟩

/-- The preflight that would grant a member decides about its claim. -/
theorem BeginArgs.Clear.decided {legacy : Bool} {c : ClaimArgs} (h : b.Clear cfg now s legacy)
    (hspec : spec ∈ b.specs) (own : b.ownIntent s spec = none)
    (valid : (b.claimArgs spec).validate cfg = .ok c) : Decided cfg now s c := by
  obtain ⟨k, positive, clear⟩ := h.member hspec
  rw [BeginArgs.ClearAt, own] at clear
  obtain ⟨d, decision, grantable⟩ := clear
  obtain ⟨paths, normal, rfl⟩ := ClaimArgs.validate_eq valid
  refine ⟨spec.paths, s.seq + k, d, normal, ?_, decision, grantable⟩
  omega

/-- The claim of a member is answered as held exactly if the store says so. -/
theorem claim_positive {r : Reply} (drawn : Drawn s) (intents : s.Intents)
    (decided : ∀ c, (b.claimArgs spec).validate cfg = .ok c →
      (∀ prior, c.receipt s = some prior → prior.status ≠ .DONE) → Decided cfg now s c)
    (h : claim cfg now s (b.claimArgs spec) (some now) = .ok (s', r)) :
    r.Positive ↔ b.Granted cfg s spec := by
  rw [claim] at h
  split at h
  · cases h
  split at h
  · rename_i reply invalid
    cases h
    refine iff_of_false (Reply.not_positive ?_) ?_
    · rw [ClaimArgs.validate_refused invalid]
      simp
    · rintro ⟨c, valid, -⟩
      cases invalid.symm.trans valid
  · rename_i c valid
    refine (claimSection_positive drawn intents (decided c valid) h).trans
      ⟨fun granted => ⟨c, valid, granted⟩, ?_⟩
    rintro ⟨c', valid', granted⟩
    cases valid.symm.trans valid'
    exact granted

/-- A request that was answered is answered as before after the claim of another member. -/
theorem granted_congr (ok : s.Ok) (ok' : s'.Ok) {mode : Mode} {request : Option RequestId}
    (spares : Spares mode request s s') (writes : mode ≠ .read)
    (apart : ∀ id, b.rid spec.suffix = some id → request ≠ none ∧ request ≠ some id)
    (answered : b.AnsweredHeld cfg s spec) : b.Granted cfg s' spec ↔ b.Granted cfg s spec := by
  obtain ⟨c, id, reply, valid, answer, -⟩ := answered
  have asked : b.rid spec.suffix = some id :=
    (ClaimArgs.validate_request valid).symm.trans answer.request
  obtain ⟨asks, other⟩ := apart id asked
  obtain ⟨prior, found, done, -⟩ := answer.row
  have same : s'.getIdem id = s.getIdem id := by
    obtain ⟨mem, key⟩ := ok.getIdem.mp found
    rw [found]
    refine ok'.getIdem.mpr ⟨(spares.requests prior ?_).mpr mem, key⟩
    rw [key]
    exact other
  have receipt (s : Store) : c.receipt s = s.getIdem id := by
    rw [ClaimArgs.receipt, answer.request, Option.bind_some]
  have goes {s s' : Store} (tasks : s'.tasks = s.tasks) (owners : s'.owners id = s.owners id)
      (same : s'.getIdem id = s.getIdem id) (found : s.getIdem id = some prior)
      (granted : c.Granted s') : c.Granted s := by
    refine ⟨⟨fun task htask => ?_, fun id' o hid => ?_⟩, fun row hrow => ?_, fun unanswered => ?_⟩
    · have row := granted.task task htask
      rwa [Store.getTask, tasks] at row
    · cases answer.request.symm.trans hid
      exact (owner_congr owners).mp (fun o => granted.owner id o answer.request) o
    · refine granted.receipt row ?_
      rw [receipt] at hrow ⊢
      exact same.trans hrow
    · exact absurd done (unanswered prior ((receipt s).trans found))
  have tasks := spares.tasks writes
  have owners := spares.owners id asks other
  constructor
  · rintro ⟨c', valid', granted⟩
    cases valid.symm.trans valid'
    exact ⟨c, valid, goes tasks owners same found granted⟩
  · rintro ⟨c', valid', granted⟩
    cases valid.symm.trans valid'
    exact ⟨c, valid, goes tasks.symm owners.symm same.symm (same.trans found) granted⟩

end Omd
