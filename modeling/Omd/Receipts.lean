import Omd.Batches

/-!
# The receipts of the claims

A claim that is answered as held names the row that is held.  The answer is kept under its
request, and whatever becomes of the row, a row with its identifier is one of the intent.
-/

namespace Omd

open Lib

variable {cfg : Cfg} {now : Time} {c : Scope} {E : TaskId → Prop} {s s' : Store}
  {Q : Orbit → Prop} {id : OrbitId}

/-! ## Rows that are known -/

/-- The identifier was drawn, and the row that has it, while there is one, is as stated. -/
structure Store.Knows (s : Store) (Q : Orbit → Prop) (id : OrbitId) : Prop where
  drawn : id < s.uuid
  row : ∀ o ∈ s.orbits, o.orbitId = id → Q o

/-- What the columns say that stay for life. -/
def Lasting (Q : Orbit → Prop) : Prop := ∀ o o', o.SameRow o' → Q o → Q o'

theorem Store.Knows.micro (lasting : Lasting Q) (h : s.Knows Q id) (ok : s.Ok)
    (step : Micro c E s s') : s'.Knows Q id where
  drawn := h.drawn.trans_le step.uuid
  row := by
    intro o' ho' same
    rcases step.row_back ok ho' with ⟨o, ho, row, -⟩ | ⟨-, new, -⟩
    · exact lasting o o' row (h.row o ho (row.orbitId.symm.trans same))
    · exact absurd (same.symm.trans new) h.drawn.ne

theorem Store.Knows.micros (lasting : Lasting Q) (h : s.Knows Q id) (ok : s.Ok)
    (run : Micros c E s s') : s'.Knows Q id :=
  (Micros.invariant (I := fun s => s.Knows Q id) (fun _ _ ok ih step => ih.micro lasting ok step)
    run ok h).2

/-- What lasts stays known through a critical section. -/
theorem Store.Knows.moves (lasting : Lasting Q) (h : s.Knows Q id) (ok : s.Ok)
    (run : Moves c s s') : s'.Knows Q id := by
  refine (Moves.invariant (I := fun s => s.Knows Q id) (fun _ _ ok₁ ih move => ?_) run ok h).2
  exact move.invariant (I := fun s => s.Knows Q id)
    (fun _ _ _ _ _ ok₂ ih step => ih.micro lasting ok₂ step) ok₁ ih

/-- A row of the table is known by itself. -/
theorem Store.Ok.knows (ok : s.Ok) {o : Orbit} (ho : o ∈ s.orbits) (h : Q o) :
    s.Knows Q o.orbitId where
  drawn := ok.fresh o ho
  row := by
    intro p hp same
    rw [ok.orbit_eq hp ho same]
    exact h

theorem Store.Knows.mono {P : Orbit → Prop} (h : s.Knows Q id) (weaker : ∀ o, Q o → P o) :
    s.Knows P id :=
  ⟨h.drawn, fun o ho same => weaker o (h.row o ho same)⟩

theorem Store.Knows.of_orbits (h : s.Knows Q id) (orbits : s'.orbits = s.orbits)
    (uuid : s'.uuid = s.uuid) : s'.Knows Q id :=
  ⟨uuid ▸ h.drawn, orbits ▸ h.row⟩

/-! ## Receipts -/

/-- A row of the intent that a claim asks for. -/
structure ClaimArgs.Asks (a : ClaimArgs) (o : Orbit) : Prop where
  kind : o.kind = .orbit
  intent : o.intent = a.intentKey

theorem ClaimArgs.asks_lasting (a : ClaimArgs) : Lasting a.Asks := by
  intro o o' row h
  exact ⟨row.kind.trans h.kind, row.intent.trans h.intent⟩

/-- A reply that says held names a row of the intent of its claim. -/
def Store.Names (s : Store) (a : ClaimArgs) (r : Reply) : Prop :=
  r.state = some (.orbit .HELD) → ∃ id, r.orbitId = some id ∧ s.Knows a.Asks id

/-- The claims that were answered as held name rows of their intents. -/
def Store.Receipts (s : Store) : Prop :=
  ∀ row ∈ s.idempotency, ∀ a r, row.argHash = ClaimArgs.idemArgs a → row.response = some r →
    s.Names a r

theorem Store.Names.micro {a : ClaimArgs} {r : Reply} (h : s.Names a r) (ok : s.Ok)
    (step : Micro c E s s') : s'.Names a r := by
  intro held
  obtain ⟨id, named, knows⟩ := h held
  exact ⟨id, named, knows.micro a.asks_lasting ok step⟩

/-- What a scope answers to claims names rows. -/
def Scope.Truthful (c : Scope) (s : Store) : Prop :=
  ∀ id a r, c.may (.answer id (ClaimArgs.idemArgs a) r) → s.Names a r

/-- An answer after a change is an answer before it, or is given by it. -/
theorem IdemChange.response {rows : List IdemRow} (h : IdemChange c s rows) {row : IdemRow}
    (hrow : row ∈ rows) {r : Reply} (answer : row.response = some r) :
    (∃ row₀ ∈ s.idempotency, row₀.argHash = row.argHash ∧ row₀.response = some r) ∨
      c.may (.answer row.requestId row.argHash r) := by
  cases h with
  | reserve id agent args new rows =>
      rw [rows, List.mem_append, List.mem_singleton] at hrow
      rcases hrow with hrow | rfl
      · exact Or.inl ⟨row, hrow, rfl, answer⟩
      · cases answer
  | update p f step rows =>
      rw [rows, List.mem_map] at hrow
      obtain ⟨row₀, hrow₀, rfl⟩ := hrow
      by_cases hit : p row₀ = true
      · rw [if_pos hit] at answer ⊢
        cases step row₀ hrow₀ hit with
        | finish reply may inflight row =>
            rw [row] at answer ⊢
            cases answer
            exact Or.inr may
        | bind _ _ _ _ _ row | takeover _ _ _ row =>
            rw [row] at answer ⊢
            exact Or.inl ⟨row₀, hrow₀, rfl, answer⟩
        | retry _ _ row | reopen _ row =>
            rw [row] at answer
            cases answer
      · rw [if_neg hit] at answer ⊢
        exact Or.inl ⟨row₀, hrow₀, rfl, answer⟩
  | drop p step rows =>
      rw [rows, List.mem_filter] at hrow
      exact Or.inl ⟨row, hrow.1, rfl, answer⟩

/-- A change that answers truthfully keeps the receipts. -/
theorem Store.Receipts.micro (h : s.Receipts) (ok : s.Ok) (truthful : c.Truthful s)
    (step : Micro c E s s') : s'.Receipts := by
  intro row hrow a r args answer
  refine Store.Names.micro ?_ ok step
  have kept (same : s'.idempotency = s.idempotency) : s.Names a r :=
    h row (same ▸ hrow) a r args answer
  cases step with
  | request change frame =>
      rcases change.response hrow answer with ⟨row₀, hrow₀, same, answer₀⟩ | may
      · exact h row₀ hrow₀ a r (same.trans args) answer₀
      · exact truthful _ a r (args ▸ may)
  | frame frame | enroll _ _ _ _ frame | agent _ _ _ _ frame | orbit _ _ _ _ _ _ frame
  | insert _ _ _ _ _ _ _ _ frame | reject _ _ _ _ frame | summary _ _ _ frame | task _ _ _ frame
  | declare _ _ frame | publish _ _ _ frame | waiters _ frame
  | slots _ _ _ _ frame | flags _ frame | arm _ _ _ _ _ _ _ _ frame | trip _ _ _ frame
  | stamp _ frame | archiveTasks _ _ _ _ frame | archiveOrbits _ _ _ frame =>
      exact kept frame.idempotency

/-- A run of changes whose answers name rows keeps the receipts. -/
theorem Store.Receipts.micros (h : s.Receipts) (ok : s.Ok) (truthful : c.Truthful s)
    (run : Micros c E s s') : s'.Receipts := by
  refine (Micros.invariant (I := fun s => s.Receipts ∧ c.Truthful s)
    (fun _ _ ok₁ ih step => ⟨ih.1.micro ok₁ ih.2 step, ?_⟩) run ok ⟨h, truthful⟩).2.1
  exact fun id a r may => (ih.2 id a r may).micro ok₁ step

/-- A section that answers no claim keeps the receipts. -/
theorem Store.Receipts.moves (h : s.Receipts) (ok : s.Ok)
    (silent : ∀ id a r, ¬ c.may (.answer id (ClaimArgs.idemArgs a) r)) (run : Moves c s s') :
    s'.Receipts := by
  refine (Moves.invariant (I := Store.Receipts) (fun _ _ ok₁ ih move => ?_) run ok h).2
  refine move.invariant (fun c' _ _ _ within ok₂ ih step => ih.micro ok₂ ?_ step) ok₁ ih
  intro id a r may
  exact absurd may (within.forbids (silent id a r) (by simp))

/-! ## The answers of a claim -/

theorem Dedups.names {a : ClaimArgs} {r : Reply} (ok : s.Ok) (h : Dedups s a r) : s.Names a r := by
  intro held
  cases h with
  | row dup mem kind same reply =>
      subst reply
      exact ⟨dup.orbitId, rfl, ok.knows mem ⟨kind, same⟩⟩
  | refused state => exact absurd held (state _)

theorem Store.Names.of_orbits {a : ClaimArgs} {r : Reply} (h : s.Names a r)
    (orbits : s'.orbits = s.orbits) (uuid : s'.uuid = s.uuid) : s'.Names a r := by
  intro held
  obtain ⟨id, named, knows⟩ := h held
  exact ⟨id, named, knows.of_orbits orbits uuid⟩

theorem Store.Names.congr {a a' : ClaimArgs} {r : Reply} (h : s.Names a r)
    (same : a.idemArgs = a'.idemArgs) : s.Names a' r := by
  have key : a.intentKey = a'.intentKey := by
    obtain ⟨agent, paths, mode, task, -⟩ := IdemArgs.claim.inj same
    rw [ClaimArgs.intentKey, ClaimArgs.intentKey, agent, paths, mode, task]
  intro held
  obtain ⟨id, named, knows⟩ := h held
  exact ⟨id, named, knows.mono fun o asks => ⟨asks.kind, asks.intent.trans key⟩⟩

theorem Store.Names.of_state {a : ClaimArgs} {r : Reply} (h : ∀ st, r.state ≠ some (.orbit st)) :
    s.Names a r := fun held => absurd held (h _)

theorem grantRow_knows {a : ClaimArgs} {k : Ticket} (ok : s.Ok) (_ : k.orbitId = s.uuid)
    (h : grantRow cfg s.bumpUuid a k = .ok s') : s'.Knows a.Asks s.uuid := by
  rw [grantRow, Outcome.bind_eq_ok] at h
  obtain ⟨s₁, h₁, h⟩ := h
  cases h
  have store := (assertAdmissionProjection_spec h₁).store
  subst store
  refine ⟨Nat.lt_succ_self _, fun o ho same => ?_⟩
  rcases List.mem_append.mp ho with ho | ho
  · exact absurd same (ok.fresh o ho).ne
  · rw [List.mem_singleton.mp ho]
    exact ⟨rfl, rfl⟩

theorem claimGrant_names {a : ClaimArgs} {generation epoch : ℕ} {d : AdmissionDecision}
    {r : Result} (ok : s.Ok) (request : Admissible c s a generation)
    (decision : admissionDecision c.cfg s a.pathspec a.mode a.priority (some (s.seq + 1))
      (some s.uuid) (some c.cfg.policy.version) (some c.now) c.now = .ok d)
    (grantable : d.grantable = true)
    (h : claimGrant c.cfg s.bumpUuid a (s.ticket generation epoch c.now) = .ok (s', r)) :
    s'.Names a r.reply := by
  rw [claimGrant, Outcome.bind_eq_ok] at h
  obtain ⟨s₁, h₁, h⟩ := h
  dsimp only at h
  rw [Outcome.bind_eq_ok] at h
  obtain ⟨s₂, h₂, h⟩ := h
  cases h
  have grant := grantRow_keeps (E := nobody) request decision grantable h₁ ok
  have ok₁ := ok.micros grant.1
  have deny := denyReservationCycles_keeps (c := c) (E := nobody) h₂ ok₁
  have gen : s₁.integrationGen ≤ s₂.integrationGen := (Micros.integrationGen deny.1).ge
  have read := syncRead_does (c := c) (E := nobody) (a := a) gen (ok₁.micros deny.1)
  have row := (grantRow_knows ok rfl h₁).micros a.asks_lasting ok₁ deny.1
  exact fun _ => ⟨s.uuid, rfl, row.micros a.asks_lasting (ok₁.micros deny.1) read⟩

/-- The answer of a decision names the row that it inserted. -/
theorem claimDecide_names {a : ClaimArgs} {generation epoch : ℕ} {rollover : Bool} {r : Result}
    (ok : s.Ok) (request : Admissible c s a generation)
    (h : claimDecide c.cfg s a generation epoch rollover c.now = .ok (s', r)) :
    s'.Names a r.reply := by
  rw [claimDecide, Outcome.bind_eq_ok] at h
  obtain ⟨d, decision, h⟩ := h
  split at h
  · rename_i grantable
    exact claimGrant_names ok request decision grantable h
  split at h
  · rw [claimOverload, Outcome.bind_eq_ok] at h
    obtain ⟨s₁, -, h⟩ := h
    cases h
    exact .of_state (by simp [Reply.reject])
  · obtain ⟨o, waits, reply, -⟩ := claimQueue_left ok.drawn rfl h
    intro held
    rw [held, Option.some.injEq, ReplyState.orbit.injEq] at reply
    rw [← reply] at waits
    rcases waits with waits | waits <;> cases waits

/-- A claim that swept names the row it says is held. -/
theorem claimSwept_names {a : ClaimArgs} {rollover : Option ℕ} {r : Result}
    (agents : c.may .agents) (admission : c.may .admission)
    (requests : ∀ id, a.requestId = some id → c.may (.name id) ∨ s.orbitsOfRequest id ≠ [])
    (paths : normalizePathspec a.pathspec = .ok a.pathspec) (gate : s.Eligible a.taskId)
    (rolled : ∀ g, rollover = some g → ∀ o, s.latestOrbitByRequest a.requestId = some o →
      o.live = false ∧ o.taskId = a.taskId) (ok : s.Ok) (intents : s.Intents)
    (h : claimSwept c.cfg s a rollover c.now = .ok (s', r)) : s'.Names a r.reply := by
  rw [claimSwept] at h
  split at h
  · rename_i dead hdead
    cases h
    refine .of_state fun st => ?_
    rw [Result.set, state_of_dead hdead]
    simp
  rename_i halive
  have alive := ok.alive halive
  have enroll : Keeps c nobody s (s.upsertAgent a.agentId c.now) :=
    upsertAgent_keeps agents alive c.now
  have ok₁ := ok.micros (enroll ok).1
  have intents₁ : (s.upsertAgent a.agentId c.now).Intents :=
    intents.moves ok (enroll.takes ok)
  dsimp only at h
  rw [Outcome.bind_eq_ok] at h
  obtain ⟨gen, hgen, h⟩ := h
  cases gen with
  | inl reply =>
      cases h
      exact (claimGeneration_dedups intents₁ hgen).names ok₁
  | inr generation =>
      dsimp only at h
      split at h
      · rename_i reply hreply
        cases h
        exact (claimIntent_dedups intents₁ hreply).names ok₁
      rename_i unclaimed
      split at h
      · cases h
        exact .of_state (by simp [Reply.reject, Result.set])
      · rename_i priority
        refine claimDecide_names ok₁ ⟨admission, by simpa using priority, paths,
          alive.upsertAgent _ _, ?_, fun id hid => ⟨?_, ?_⟩, claimGeneration_made hgen,
          claimIntent_eq_none unclaimed⟩ h
        · rw [Store.Eligible, upsertAgent_tasks]
          exact gate
        · rw [Store.orbitsOfRequest, upsertAgent_orbits]
          exact requests id hid
        · refine claimGeneration_next (fun g hg o ho => rolled g hg o ?_) hgen hid
          rwa [latestOrbitByRequest_of_orbits (upsertAgent_orbits _ _)] at ho

/-! ## The requests of the claims -/

/-- A claim that was answered already is answered by its receipt. -/
theorem enterIdem_names {request : RequestId} {agent : Option AgentId} {a : ClaimArgs}
    {reply : Reply} (receipts : s.Receipts)
    (h : enterIdem s request agent a.idemArgs = .ok (.inl reply)) : s.Names a reply := by
  rw [enterIdem] at h
  split at h
  · cases h
    exact .of_state (by simp [Reply.refuse])
  split at h
  · cases h
  rename_i prior found
  split at h
  · cases h
    exact .of_state (by simp [Reply.refuse])
  rename_i same
  rw [not_or, not_not, not_not] at same
  split at h
  · cases h
    cases response : prior.response with
    | none => exact .of_state (by simp)
    | some r => exact receipts prior (Table.mem_of_get found) a r same.2 response
  · split at h <;> cases h
  · cases h
    exact .of_state (by simp [Reply.refuse])

/-- The wrapper keeps the receipts when its body does, and answers a claim by its row. -/
theorem withIdem_receipts {now : Time} {requestId : Option RequestId} {agent : Option AgentId}
    {args : IdemArgs} {body : Store → Except Fault (Store × Result)} {r : Result} (ok : s.Ok)
    (receipts : s.Receipts)
    (hbody : ∀ s₁ s₂, Apart s s₁ → s₁.Ok → s₁.Receipts → body s₁ = .ok (s₂, r) →
      s₂.Ok ∧ s₂.Receipts ∧ ∀ a, args = ClaimArgs.idemArgs a → s₂.Names a r.reply)
    (h : withIdem now s requestId agent args body = .ok (s', r)) :
    s'.Receipts ∧ ∀ a, args = ClaimArgs.idemArgs a → s'.Names a r.reply := by
  unfold withIdem at h
  split at h
  · exact (hbody s s' (.refl s) ok receipts h).2
  rename_i id
  rw [Outcome.bind_eq_ok] at h
  obtain ⟨hit, henter, h⟩ := h
  cases hit with
  | inl reply =>
      cases h
      refine ⟨receipts, fun a same => ?_⟩
      subst same
      exact enterIdem_names receipts henter
  | inr s₁ =>
      rw [Outcome.bind_eq_ok] at h
      obtain ⟨⟨s₂, r₂⟩, h₂, h⟩ := h
      rw [Outcome.bind_eq_ok] at h
      obtain ⟨s₃, h₃, h⟩ := h
      cases h
      have enter : Requested (.plain {} now) s s₁ := enterIdem_requested henter
      have ok₁ := ok.moves (enter.takes ok)
      have receipts₁ : s₁.Receipts := receipts.moves ok (fun _ _ _ may => may) (enter.takes ok)
      obtain ⟨ok₂, receipts₂, names⟩ := hbody s₁ s₂ enter.apart ok₁ receipts₁ h₂
      have exited := exitIdem_eq h₃
      refine ⟨?_, fun a same => ?_⟩
      · -- the one answer that the exit may give is the reply of the body
        let c : Scope := ⟨{}, now, fun d => d = .answer id args r₂.reply⟩
        have exit : Requested c s₂ s' := exitIdem_requested (fun _ _ => rfl) h₃
        refine receipts₂.micros (c := c) ok₂ ?_ (exit.keeps nobody ok₂).1
        intro id' a reply may
        obtain ⟨-, same, rfl⟩ := Deed.answer.inj may
        exact names a same.symm
      · rw [exited]
        exact (names a same).of_orbits rfl rfl

/-! ## The claims -/

/-- Everything but the answer to a claim. -/
def Deed.Unreceipted (d : Deed) : Prop := ∀ id a r, d ≠ .answer id (ClaimArgs.idemArgs a) r

theorem Deed.Unreceipted.collecting : Collecting Deed.Unreceipted :=
  ⟨by simp [Unreceipted], by simp [Unreceipted]⟩

theorem Store.Receipts.sweep (h : s.Receipts) (ok : s.Ok)
    (run : Moves ⟨cfg, now, Deed.Unreceipted⟩ s s') : s'.Receipts :=
  h.moves ok (fun id a r (may : Deed.Unreceipted _) => may id a r rfl) run

theorem sweepInline_unreceipted (h : sweepInline cfg now s = .ok s') :
    Takes ⟨cfg, now, Deed.Unreceipted⟩ s s' :=
  sweepInline_takes (c := ⟨cfg, now, Deed.Unreceipted⟩) (by simp [Deed.Unreceipted])
    Deed.Unreceipted.collecting (by simp [Deed.Unreceipted]) h

theorem claimSection_receipts {a : ClaimArgs} {observedAt : Option Time} {rollover : Option ℕ}
    {r : Reply} (ok : s.Ok) (intents : s.Intents) (receipts : s.Receipts)
    (clock : ∀ t, observedAt = some t → t = now)
    (rolled : ∀ g, rollover = some g → observedAt ≠ none ∧
      ∀ o, s.latestOrbitByRequest a.requestId = some o → o.live = false ∧ o.taskId = a.taskId)
    (paths : normalizePathspec a.pathspec = .ok a.pathspec)
    (h : claimSection cfg now s a observedAt rollover = .ok (s', r)) :
    s'.Receipts ∧ s'.Names a r := by
  rw [claimSection] at h
  split at h
  · rename_i reply full
    cases h
    refine ⟨receipts, .of_state fun st => ?_⟩
    rw [replayTerminalClaimOverload_state full]
    simp
  split at h
  · rename_i reply refused
    cases h
    refine ⟨receipts, .of_state fun st => ?_⟩
    rw [taskGate_state refused]
    simp
  rename_i hgate
  have gate := eligible_of_gate ok hgate
  rw [Outcome.bind_eq_ok] at h
  obtain ⟨⟨s₁, r₁⟩, h₁, h⟩ := h
  cases h
  let c : Scope := ⟨cfg, now, Deed.Unreceipted⟩
  have agents : c.may .agents := by simp [c, Deed.Unreceipted]
  have admission : c.may .admission := by simp [c, Deed.Unreceipted]
  have requests {s : Store} (id : RequestId) (_ : a.requestId = some id) :
      c.may (.name id) ∨ s.orbitsOfRequest id ≠ [] := Or.inl (by simp [c, Deed.Unreceipted])
  have swept {s₂ s₃ : Store} {r₃ : Result} (ok₂ : s₂.Ok) (intents₂ : s₂.Intents)
      (receipts₂ : s₂.Receipts) (gate₂ : s₂.Eligible a.taskId)
      (rolled₂ : ∀ g, rollover = some g → ∀ o, s₂.latestOrbitByRequest a.requestId = some o →
        o.live = false ∧ o.taskId = a.taskId)
      (h : claimSwept cfg s₂ a rollover now = .ok (s₃, r₃)) :
      s₃.Ok ∧ s₃.Receipts ∧ s₃.Names a r₃.reply := by
    have run : Moves c s₂ s₃ :=
      claimSwept_takes (c := c) agents admission requests paths gate₂ rolled₂ h ok₂
    exact ⟨ok₂.moves run, receipts₂.sweep ok₂ run,
      claimSwept_names (c := c) agents admission requests paths gate₂ rolled₂ ok₂ intents₂ h⟩
  have left := withIdem_receipts ok receipts (fun s₂ s₃ apart ok₂ receipts₂ h => ?_) h₁
  · exact ⟨left.1, left.2 a rfl⟩
  have gate₂ : s₂.Eligible a.taskId := by
    rw [Store.Eligible, apart.tasks]
    exact gate
  have intents₂ : s₂.Intents := by
    refine Beside.intents ⟨apart.orbits, ?_, ?_, ?_⟩ intents <;> rw [apart]
  split at h
  · rename_i t
    cases clock t rfl
    obtain ⟨ok₃, receipts₃, names⟩ := swept ok₂ intents₂ receipts₂ gate₂
      (fun g hg o ho => (rolled g hg).2 o (by
        rwa [latestOrbitByRequest_of_orbits apart.orbits] at ho)) h
    exact ⟨ok₃, receipts₃, fun a' same => names.congr same⟩
  · rw [Outcome.bind_eq_ok] at h
    obtain ⟨s₄, h₄, h⟩ := h
    have sweep : Moves c s₂ s₄ := sweepInline_unreceipted h₄ ok₂
    obtain ⟨ok₃, receipts₃, names⟩ := swept (ok₂.moves sweep) (intents₂.moves ok₂ sweep)
      (receipts₂.sweep ok₂ sweep) (sweepInline_eligible ok₂ h₄ gate₂)
      (fun g hg => absurd rfl (rolled g hg).1) h
    exact ⟨ok₃, receipts₃, fun a' same => names.congr same⟩

/-- A claim keeps the receipts. -/
theorem claim_receipts {a : ClaimArgs} {observedAt : Option Time} {rollover : Option ℕ}
    {r : Reply} (ok : s.Ok) (intents : s.Intents) (receipts : s.Receipts)
    (clock : ∀ t, observedAt = some t → t = now)
    (rolled : ∀ g, rollover = some g → observedAt ≠ none ∧
      ∀ o, s.latestOrbitByRequest a.requestId = some o → o.live = false ∧ o.taskId = a.taskId)
    (h : claim cfg now s a observedAt rollover = .ok (s', r)) :
    s'.Receipts ∧ (r.state = some (.orbit .HELD) → ∃ a', a.validate cfg = .ok a' ∧
      s'.Names a' r) := by
  rw [claim] at h
  split at h
  · cases h
  split at h
  · rename_i reply invalid
    cases h
    refine ⟨receipts, fun held => ?_⟩
    rw [ClaimArgs.validate_refused invalid] at held
    cases held
  · rename_i a' valid
    obtain ⟨receipts', names⟩ := claimSection_receipts ok intents receipts clock
      (by rw [ClaimArgs.validate_request valid, ClaimArgs.validate_task valid]; exact rolled)
      (ClaimArgs.validate_paths valid) h
    exact ⟨receipts', fun _ => ⟨a', valid, names⟩⟩

theorem rolloverSwept_receipts {prior : OrbitId} {agent : AgentId} {expected epoch : ℕ}
    {r : Result} (ok : s.Ok) (intents : s.Intents) (receipts : s.Receipts)
    (h : rolloverSwept cfg now s prior agent expected epoch = .ok (s', r)) :
    s'.Ok ∧ s'.Receipts := by
  have run : Moves ⟨cfg, now, fun _ => True⟩ s s' :=
    rolloverSwept_takes (c := ⟨cfg, now, fun _ => True⟩) trivial trivial (fun _ _ _ _ _ => trivial)
      (fun _ _ _ _ _ _ _ _ _ => trivial) h ok
  refine ⟨ok.moves run, ?_⟩
  rw [rolloverSwept] at h
  split at h
  · cases h
    exact receipts
  rename_i o request hgate
  dsimp only at h
  rw [Outcome.bind_eq_ok] at h
  obtain ⟨⟨s₁, r₁⟩, h₁, h⟩ := h
  have forget : Moves ⟨cfg, now, Deed.Unreceipted⟩ s (s.clearIdem request) :=
    (clearIdem_requested (by simp [Deed.Unreceipted])).takes ok
  have latest := rolloverGate_latest ok hgate
  obtain ⟨-, -, rolls, -⟩ := rolloverGate_right hgate
  have claimed : s₁.Receipts := by
    refine (claim_receipts (ok.moves forget) (intents.moves ok forget) (receipts.sweep ok forget)
      (by simp) (fun _ _ => ⟨by simp, fun o' ho' => ?_⟩) h₁).1
    cases latest.symm.trans ho'
    exact ⟨Orbit.rolloverable_live rolls, rfl⟩
  dsimp only at h
  split at h
  · cases h
    exact claimed
  split at h
  · cases h
  · cases h
    exact claimed

/-- A rollover keeps the receipts. -/
theorem rolloverClaim_receipts {prior : OrbitId} {agent : AgentId} {expected epoch : ℕ}
    {requestId : RequestId} {r : Reply} (ok : s.Ok) (intents : s.Intents) (receipts : s.Receipts)
    (h : rolloverClaim cfg now s prior agent expected epoch requestId = .ok (s', r)) :
    s'.Receipts := by
  rw [rolloverClaim] at h
  split at h
  · cases h
    exact receipts
  split at h
  · cases h
    exact receipts
  split at h
  · cases h
    exact receipts
  split at h
  · cases h
    exact receipts
  split at h
  · cases h
    exact receipts
  rw [Outcome.bind_eq_ok] at h
  obtain ⟨⟨s₁, r₁⟩, h₁, h⟩ := h
  cases h
  refine (withIdem_receipts ok receipts (fun s₂ s₃ apart ok₂ receipts₂ h => ?_) h₁).1
  rw [Outcome.bind_eq_ok] at h
  obtain ⟨s₄, h₄, h⟩ := h
  have sweep : Moves ⟨cfg, now, Deed.Unreceipted⟩ s₂ s₄ := sweepInline_unreceipted h₄ ok₂
  have intents₂ : s₂.Intents := by
    refine Beside.intents ⟨apart.orbits, ?_, ?_, ?_⟩ intents <;> rw [apart]
  obtain ⟨ok₃, receipts₃⟩ := rolloverSwept_receipts (ok₂.moves sweep) (intents₂.moves ok₂ sweep)
    (receipts₂.sweep ok₂ sweep) h
  exact ⟨ok₃, receipts₃, fun a same => by cases same⟩

end Omd
