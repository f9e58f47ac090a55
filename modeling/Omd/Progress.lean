import Omd.News
import Omd.Standstill

/-!
# The sweep goes through

Every verb reconciles first, and every write of a reconciliation goes through the admission machine
and enqueues a notification, so that a row that the machine refuses, or an event that the outbox has
already, would make every verb fail from then on.  No reachable state has such a row.  A sweep of a
reachable state returns, at any time, and its reconciliation leaves nothing to do.
-/

namespace Omd

open Lib Lib.Machine

variable {cfg : Cfg} {now : Time} {c : Scope} {E : TaskId → Prop} {s s₁ s' : Store} {o o' : Orbit}
  {agent : AgentId}

/-! ## The summaries -/

/-- The summaries of the reclaims: an orbit that one names has ended, and the agent that one names
has not been reclaimed more often. -/
structure Store.Summed (s : Store) : Prop where
  ended : ∀ r ∈ s.outbox, r.transition = .AGENT_RECLAIMED → ∀ o ∈ s.orbits,
    r.orbitId = some o.orbitId → o.live = false
  known : ∀ r ∈ s.outbox, r.transition = .AGENT_RECLAIMED → r.orbitId = none →
    ∃ a ∈ s.agents, r.requestId = RequestId.reclaim a.agentId ∧ r.requestGeneration ≤ a.bailEpoch

/-- An agent stays, and its epoch does not fall. -/
theorem Micro.agent_forth (h : Micro c E s s') (ok : s.Ok) {a : Agent} (ha : a ∈ s.agents) :
    ∃ a' ∈ s'.agents, a'.agentId = a.agentId ∧ a.bailEpoch ≤ a'.bailEpoch := by
  cases h with
  | enroll _ b _ _ frame =>
      exact ⟨a, frame.agents ▸ List.mem_append_left _ ha, rfl, le_rfl⟩
  | agent _ id f step frame =>
      rw [frame.agents]
      by_cases same : a.agentId = id
      · have one := step a (ok.getAgent.mpr ⟨ha, same⟩)
        exact ⟨f a, Table.mem_modify.mpr (Or.inr ⟨a, ha, same, rfl⟩), one.id, one.epoch⟩
      · exact ⟨a, Table.mem_modify.mpr (Or.inl ⟨ha, same⟩), rfl, le_rfl⟩
  | frame frame | orbit _ _ _ _ _ _ frame | insert _ _ _ _ _ _ _ _ frame | reject _ _ _ _ frame
  | summary _ _ _ frame | task _ _ _ frame | declare _ _ frame | publish _ _ _ frame
  | request _ frame | waiters _ frame | slots _ _ _ _ frame | flags _ frame
  | arm _ _ _ _ _ _ _ _ frame | trip _ _ _ frame | stamp _ frame | archiveTasks _ _ _ _ frame
  | archiveOrbits _ _ _ frame => exact ⟨a, frame.agents ▸ ha, rfl, le_rfl⟩

theorem RequestId.reclaim_inj {a a' : AgentId} (h : reclaim a = reclaim a') : a = a' :=
  (String.append_right_inj _).mp h

/-- A summary is an old one, or it is about an orbit that has ended or an agent as it is. -/
theorem Micro.summaries (h : Micro c E s s') {r : OutboxRow} (hr : r ∈ s'.outbox)
    (event : r.transition = .AGENT_RECLAIMED) : r ∈ s.outbox ∨
      (∃ o ∈ s.orbits, o.state.terminal = true ∧ r = o.news .AGENT_RECLAIMED) ∧
          s'.orbits = s.orbits ∨
        ∃ a ∈ s.agents, r = ⟨.AGENT_RECLAIMED, RequestId.reclaim a.agentId, a.bailEpoch, none⟩ := by
  cases h with
  | orbit id f news step announced known frame =>
      rw [frame.outbox] at hr
      rcases List.mem_append.mp hr with hr | hr
      · exact Or.inl hr
      · cases found : s.getOrbit id with
        | none =>
            rw [known found] at hr
            cases hr
        | some o =>
            cases announced o found with
            | silent => cases hr
            | event _ _ step =>
                rw [List.mem_singleton.mp hr] at event
                exact absurd event (not_reclaimed_of_step step)
  | insert o news row introduced id drawn ticket line frame =>
      rw [frame.outbox] at hr
      rcases List.mem_append.mp hr with hr | hr
      · exact Or.inl hr
      · cases introduced with
        | silent => cases hr
        | event _ _ step =>
            rw [List.mem_singleton.mp hr] at event
            exact absurd event (not_reclaimed_of_step step)
  | reject r₁ rejected id drawn frame =>
      rw [frame.outbox] at hr
      rcases List.mem_append.mp hr with hr | hr
      · exact Or.inl hr
      · rw [List.mem_singleton.mp hr, rejected] at event
        cases event
  | summary r₁ _ subject frame =>
      rw [frame.outbox] at hr
      rcases List.mem_append.mp hr with hr | hr
      · exact Or.inl hr
      · rw [List.mem_singleton.mp hr]
        exact Or.inr (subject.imp (fun about => ⟨about, frame.orbits⟩) id)
  | frame frame | enroll _ _ _ _ frame | agent _ _ _ _ frame | task _ _ _ frame
  | declare _ _ frame | publish _ _ _ frame | request _ frame | waiters _ frame
  | slots _ _ _ _ frame | flags _ frame | arm _ _ _ _ _ _ _ _ frame | trip _ _ _ frame
  | stamp _ frame | archiveTasks _ _ _ _ frame | archiveOrbits _ _ _ frame =>
      exact Or.inl (frame.outbox ▸ hr)

theorem Store.Summed.micro (h : s.Summed) (ok : s.Ok) (posted : s.Posted)
    (step : Micro c E s s') : s'.Summed where
  ended := by
    intro r hr event o' ho' about
    rcases step.summaries hr event with old | ⟨⟨o, ho, terminal, rfl⟩, rows⟩ | ⟨a, -, rfl⟩
    · rcases step.row_back ok ho' with ⟨o, ho, row, lived⟩ | ⟨-, new, -⟩
      · rw [row.orbitId] at about
        have ended := h.ended r old event o ho about
        by_contra lives
        rw [Bool.not_eq_false] at lives
        rw [lived lives] at ended
        cases ended
      · rw [new] at about
        exact absurd (posted.drawn r old _ about) (lt_irrefl _)
    · have same : o = o' := ok.orbit_eq ho (rows ▸ ho') (Option.some.inj about)
      rw [← same]
      exact Orbit.live_of_terminal terminal
    · cases about
  known := by
    intro r hr event unnamed
    have known : ∃ a ∈ s.agents,
        r.requestId = RequestId.reclaim a.agentId ∧ r.requestGeneration ≤ a.bailEpoch := by
      rcases step.summaries hr event with old | ⟨⟨o, -, -, rfl⟩, -⟩ | ⟨a, ha, rfl⟩
      · exact h.known r old event unnamed
      · cases unnamed
      · exact ⟨a, ha, rfl, le_rfl⟩
    obtain ⟨a, ha, request, epoch⟩ := known
    obtain ⟨a', ha', same, grows⟩ := step.agent_forth ok ha
    exact ⟨a', ha', by rw [request, same], epoch.trans grows⟩

/-! ## What every state has -/

/-- What a sweep rests on. -/
structure Store.Sound (s : Store) : Prop where
  ok : s.Ok
  intents : s.Intents
  first : -1 ≤ s.seq
  tickets : s.Tickets
  posted : s.Posted
  summed : s.Summed

theorem Store.Sound.micro (h : s.Sound) (step : Micro c E s s') : s'.Sound where
  ok := h.ok.micro step
  intents := h.intents.micro h.ok step
  first := h.first.trans step.seq
  tickets := h.tickets.micro h.first h.intents h.ok step
  posted := h.posted.micro h.ok step
  summed := h.summed.micro h.ok h.posted step

theorem Store.Sound.micros (h : s.Sound) (run : Micros c E s s') : s'.Sound := by
  induction run with
  | refl => exact h
  | tail _ step ih => exact ih.micro step

theorem Store.Sound.moves (h : s.Sound) (run : Moves c s s') : s'.Sound := by
  induction run with
  | refl => exact h
  | tail _ move ih =>
      obtain ⟨_, _, -, run⟩ := move.micros
      exact ih.micros run

theorem ReachableBy.sound {σ : Sys} {P : Sys → Env × Action → Prop} (h : ReachableBy cfg P σ) :
    σ.store.Sound :=
  Sys.Ok.empty.run_invariant (I := Store.Sound) (fun _ _ _ _ _ ih step => ih.micro step) h
    ⟨Sys.Ok.empty.store, .empty, le_rfl, .empty, .empty,
      ⟨fun r hr => (by cases hr), fun r hr => (by cases hr)⟩⟩

/-! ## The writes -/

/-- No summary is posted. -/
def Store.Unsummed (s s' : Store) : Prop :=
  ∀ r ∈ s'.outbox, r.transition = .AGENT_RECLAIMED → r ∈ s.outbox

theorem Store.Unsummed.of_outbox (h : s'.outbox = s.outbox) : s.Unsummed s' :=
  fun _ hr _ => h ▸ hr

theorem Store.Unsummed.trans (h : s.Unsummed s₁) (h' : s₁.Unsummed s') : s.Unsummed s' :=
  fun r hr event => h r (h' r hr event) event

theorem Wrote.unsummed (h : Wrote c E s o s') : s.Unsummed s' := by
  cases h with
  | nothing frame => exact .of_outbox frame.outbox
  | row f news _ announced frame =>
      intro r hr event
      rw [frame.outbox] at hr
      rcases List.mem_append.mp hr with hr | hr
      · exact hr
      · cases announced with
        | silent => cases hr
        | event _ _ step =>
            rw [List.mem_singleton.mp hr] at event
            exact absurd event (not_reclaimed_of_step step)

/-- A loop over rows goes through where each round does that writes its own row. -/
theorem Store.Sound.rows {f : Store → Orbit → Except Fault Store} {xs : List Orbit} (h : s.Sound)
    (distinct : Table.Distinct Orbit.orbitId xs) (mem : ∀ o ∈ xs, o ∈ s.orbits)
    (round : ∀ o ∈ xs, ∀ s₁, s₁.Sound → o ∈ s₁.orbits →
      ∃ s₂, f s₁ o = .ok s₂ ∧ Wrote c E s₁ o s₂) :
    ∃ s', xs.foldlM f s = .ok s' ∧ s'.Sound ∧ s.Unsummed s' := by
  induction xs generalizing s with
  | nil => exact ⟨s, rfl, h, .of_outbox rfl⟩
  | cons o xs ih =>
      obtain ⟨first, rest⟩ := List.nodup_cons.mp distinct
      have ho := mem o (List.mem_cons_self ..)
      obtain ⟨s₁, write, wrote⟩ := round o (List.mem_cons_self ..) s h ho
      have mem₁ : ∀ r ∈ xs, r ∈ s₁.orbits := by
        intro r hr
        refine wrote.others (mem r (List.mem_cons_of_mem _ hr)) fun id => first ?_
        rw [← id]
        exact List.mem_map_of_mem hr
      obtain ⟨s', loop, sound, unsummed⟩ := ih (h.micros (wrote.micros h.ok ho)) rest mem₁
        fun r hr => round r (List.mem_cons_of_mem _ hr)
      refine ⟨s', ?_, sound, wrote.unsummed.trans unsummed⟩
      rw [List.foldlM_cons, write]
      exact loop

/-- A change of a path orbit that the machine allows is written. -/
theorem Store.Sound.asserts (h : s.Sound) (ho : o ∈ s.orbits) (kind : o.kind = .orbit)
    {e : AdmissionEvent} {st : SemanticState} (step : semanticStep o.state.semantic e = some st) :
    ∃ id s₁, admissionIdentity o = .ok id ∧
      assertAdmissionProjection s o.state.semantic e id true (projectLegacy st) = .ok s₁ := by
  obtain ⟨digest, written⟩ := Option.ne_none_iff_exists'.mp (h.tickets.digest o ho kind)
  have identity : admissionIdentity o =
      .ok ⟨o.requestId.getD (RequestId.internal o.orbitId), o.requestGeneration, o.orbitId⟩ := by
    rw [admissionIdentity, written]
  obtain ⟨s₁, asserted⟩ := h.posted.asserts ho kind identity step rfl
  exact ⟨_, s₁, identity, asserted⟩

theorem expireOrbit_total (h : s.Sound) (ho : o ∈ s.orbits) (due : o.isDue now = true) :
    ∃ s', expireOrbit now s o = .ok s' := by
  obtain ⟨kind, held, -, overdue⟩ := isDue_iff.mp due
  obtain ⟨id, s₁, identity, asserted⟩ := h.asserts ho kind (e := .LEASE_EXPIRED) (by rw [held]; rfl)
  have reduced : reduceOrbitLifecycle s o .LEASE_EXPIRED (reached o.expiresAt now) = .ok s₁ := by
    rw [reduceOrbitLifecycle, overdue, identity]
    exact asserted
  rw [expireOrbit, reduced]
  exact ⟨_, rfl⟩

theorem timeoutOrbit_total (h : s.Sound) (ho : o ∈ s.orbits) (pending : o.isPending = true)
    (overdue : reached o.waitDeadline now = true) : ∃ s', timeoutOrbit now s o = .ok s' := by
  obtain ⟨state, kind⟩ := isPending_iff.mp pending
  obtain ⟨id, s₁, identity, asserted⟩ := h.asserts ho kind (e := .WAIT_TIMEOUT) (by rw [state]; rfl)
  rw [state] at asserted
  have asserted : assertAdmissionProjection s .PENDING .WAIT_TIMEOUT id true (some .DENIED) =
      .ok s₁ := asserted
  rw [timeoutOrbit, identity, Outcome.ok_bind, overdue, asserted]
  exact ⟨_, rfl⟩

/-! ## The decisions -/

theorem accepts_of_ranked (ranked : rankObservation cfg o now ≠ none) :
    cfg.policy.acceptsBasePriority o.priority o.policyVersion = true := by
  rw [rankObservation, QueuePolicy.effectivePriority] at ranked
  split_ifs at ranked <;> first | assumption | exact absurd rfl ranked

/-- The priority of a row whose policy is known is an admission priority. -/
theorem priority_bounds {policy : QueuePolicy} {base : ℤ} {version : Option PolicyVersion}
    (h : policy.acceptsBasePriority base version = true) :
    minAdmissionPriority ≤ base ∧ base ≤ maxAdmissionPriority := by
  rw [QueuePolicy.acceptsBasePriority] at h
  split at h
  · assumption
  · cases h

/-- A queued row of a known policy is decided. -/
theorem Store.Sound.decides (h : s.Sound) (ho : o ∈ s.orbits) (pending : o.isPending = true)
    (ranked : rankObservation cfg o now ≠ none) : ∃ request d,
      AdmissionRequest.build o.pathspec o.mode o.priority o.queueSeq (some o.orbitId)
        o.policyVersion o.enqueuedAt = .ok request ∧ s.decide cfg request now = .ok d := by
  obtain ⟨state, kind⟩ := isPending_iff.mp pending
  obtain ⟨t, ticket, positive⟩ := h.tickets.drawn o ho kind
  obtain ⟨v, version⟩ := Option.ne_none_iff_exists'.mp (h.tickets.version o ho kind)
  obtain ⟨low, high⟩ := priority_bounds (accepts_of_ranked ranked)
  obtain ⟨e, observed⟩ := Option.ne_none_iff_exists'.mp ranked
  rw [rankObservation, state] at observed
  have priority : cfg.policy.effectivePriority o.priority o.policyVersion o.enqueuedAt now =
      some e := by simpa using observed
  have built : AdmissionRequest.build o.pathspec o.mode o.priority o.queueSeq (some o.orbitId)
      o.policyVersion o.enqueuedAt =
        .ok ⟨o.pathspec, o.mode, o.priority, t, some o.orbitId, v, o.enqueuedAt⟩ := by
    rw [ticket, version, AdmissionRequest.build, if_neg (by omega)]
    rw [if_neg (not_lt.mpr positive), h.intents.paths o ho kind, Outcome.ok_bind]
  have readable (rows : List Orbit) : ∀ row ∈ rows.map Orbit.row, row.Readable := by
    intro row hrow
    obtain ⟨r, -, rfl⟩ := List.mem_map.mp hrow
    exact r.row_readable
  have rank : AdmissionRequest.rank ⟨o.pathspec, o.mode, o.priority, t, some o.orbitId, v,
      o.enqueuedAt⟩ cfg.policy now = some (toLex (-e, t)) := by
    rw [AdmissionRequest.rank, QueuePolicy.rankKey]
    dsimp only
    rw [if_neg (not_lt.mpr positive), ← version, effectivePriority_asks priority]
  have decided : ∃ d, s.decide cfg ⟨o.pathspec, o.mode, o.priority, t, some o.orbitId, v,
      o.enqueuedAt⟩ now = .ok d := by
    rw [Store.decide, decideAdmission_spec (readable _) (readable _), rank]
    exact ⟨_, rfl⟩
  obtain ⟨d, decided⟩ := decided
  exact ⟨_, d, built, decided⟩

theorem admissionDecisionOf_total (h : s.Sound) (ho : o ∈ s.orbits) (pending : o.isPending = true)
    (ranked : rankObservation cfg o now ≠ none) : ∃ d, admissionDecisionOf cfg s o now = .ok d := by
  obtain ⟨request, d, built, decided⟩ := h.decides ho pending ranked
  obtain ⟨v, version⟩ :=
    Option.ne_none_iff_exists'.mp (h.tickets.version o ho (isPending_iff.mp pending).2)
  rw [version] at built
  exact ⟨d, by rw [admissionDecisionOf, admissionDecision, version, Option.getD_some, built,
    Outcome.ok_bind, decided]⟩

theorem promoteOrbit_total (cfg : Cfg) (now : Time) (h : s.Sound) (ho : o ∈ s.orbits)
    (pending : o.isPending = true) : ∃ s', promoteOrbit cfg now s o = .ok s' := by
  obtain ⟨state, kind⟩ := isPending_iff.mp pending
  rw [promoteOrbit]
  split_ifs with overdue stale unknown
  · exact ⟨s, rfl⟩
  · exact ⟨s, rfl⟩
  · exact ⟨s, rfl⟩
  obtain ⟨d, decision⟩ := admissionDecisionOf_total h ho pending unknown
  rw [decision, Outcome.ok_bind]
  split_ifs with grantable
  · have bumped : s.bumpFence.Sound :=
      h.micro (c := ⟨cfg, now, fun _ => False⟩) (E := nobody) (.frame (frame_bumpFence s))
    obtain ⟨id, s₁, identity, asserted⟩ :=
      bumped.asserts ho kind (e := .PROMOTION_GRANTED) (by rw [state]; rfl)
    rw [state] at asserted
    have asserted : assertAdmissionProjection s.bumpFence .PENDING .PROMOTION_GRANTED id true
        (some .HELD) = .ok s₁ := asserted
    rw [grantPromotion, identity, Outcome.ok_bind, asserted]
    exact ⟨_, rfl⟩
  · obtain ⟨id, s₁, identity, asserted⟩ :=
      h.asserts ho kind (e := .PROMOTION_BLOCKED) (by rw [state]; rfl)
    rw [state] at asserted
    have asserted : assertAdmissionProjection s .PENDING .PROMOTION_BLOCKED id true
        (some .PENDING) = .ok s₁ := asserted
    rw [blockPromotion, identity, Outcome.ok_bind, asserted]
    exact ⟨_, rfl⟩

theorem denyVictim_total (reason : TerminalReason) (h : s.Sound) (ho : o ∈ s.orbits)
    (pending : o.isPending = true) (ranked : rankObservation cfg o now ≠ none) :
    ∃ s', denyVictim cfg now reason s o = .ok s' := by
  obtain ⟨state, kind⟩ := isPending_iff.mp pending
  obtain ⟨d, decision⟩ := admissionDecisionOf_total h ho pending ranked
  obtain ⟨id, s₁, identity, asserted⟩ :=
    h.asserts ho kind (e := .PROMOTION_DENIED) (by rw [state]; rfl)
  rw [state] at asserted
  have asserted : assertAdmissionProjection s .PENDING .PROMOTION_DENIED id true (some .DENIED) =
      .ok s₁ := asserted
  rw [denyVictim, decision, Outcome.ok_bind, identity, Outcome.ok_bind, asserted]
  exact ⟨_, rfl⟩

/-! ## The circles -/

theorem waitFor_total (cfg : Cfg) (now : Time) (h : s.Sound) :
    ∃ waits, waitFor cfg s now = .ok waits := by
  have rows : ∃ lists, s.pendingOrbits.mapM (waitsOf cfg s now) = .ok lists := by
    refine Outcome.mapM_ok fun o mem => ?_
    obtain ⟨ho, pending⟩ := mem_pendingOrbits.mp mem
    rw [waitsOf]
    cases ranked : rankObservation cfg o now with
    | none => exact ⟨[], rfl⟩
    | some e =>
        obtain ⟨request, d, built, decided⟩ := h.decides ho pending (by rw [ranked]; simp)
        dsimp only
        rw [built, Outcome.ok_bind, decided]
        exact ⟨_, rfl⟩
  obtain ⟨lists, rows⟩ := rows
  exact ⟨lists.flatten, by rw [waitFor, rows]; rfl⟩

/-- The row of a wait is queued, and its policy is known. -/
theorem waitFor_row {waits : List Wait} (h : waitFor cfg s now = .ok waits) {w : Wait}
    (hw : w ∈ waits) : ∃ p ∈ s.pendingOrbits, w.orbitId = p.orbitId ∧
      rankObservation cfg p now ≠ none := by
  rw [waitFor, Outcome.bind_eq_ok] at h
  obtain ⟨lists, hlists, h⟩ := h
  cases h
  obtain ⟨l, hl, hw⟩ := List.mem_flatten.mp hw
  obtain ⟨p, hp, row⟩ := Outcome.exists_of_mapM_ok_mem hlists l hl
  refine ⟨p, hp, ?_⟩
  rw [waitsOf] at row
  split at row
  · cases row
    cases hw
  · rename_i ranked
    rw [Outcome.bind_eq_ok] at row
    obtain ⟨request, -, row⟩ := row
    rw [Outcome.bind_eq_ok] at row
    obtain ⟨d, -, row⟩ := row
    cases row
    obtain ⟨i, -, wait⟩ := List.mem_filterMap.mp hw
    split at wait
    · cases wait
    · split at wait
      · cases wait
        exact ⟨rfl, by rw [ranked]; simp⟩
      · cases wait

/-- The queued rows that assert a circle are of known policies. -/
theorem cycleSources_row {waits : List Wait} {cycle : List AgentId} (ok : s.Ok)
    (hwaits : waitFor cfg s now = .ok waits) (ho : o ∈ cycleSources s waits cycle) :
    o ∈ s.orbits ∧ o.isPending = true ∧ rankObservation cfg o now ≠ none := by
  rw [cycleSources, List.mem_filter, List.mem_filterMap] at ho
  obtain ⟨⟨id, hid, found⟩, -⟩ := ho
  obtain ⟨w, hw, rfl⟩ := List.mem_map.mp (List.mem_dedup.mp hid)
  obtain ⟨p, hp, same, ranked⟩ := waitFor_row hwaits (List.mem_filter.mp hw).1
  obtain ⟨mem, pending⟩ := mem_pendingOrbits.mp hp
  obtain ⟨mem', id⟩ := ok.getOrbit.mp found
  cases ok.orbit_eq mem' mem (id.trans same)
  exact ⟨mem, pending, ranked⟩

theorem victimOf_isSome {os : List Orbit} (ne : os ≠ []) : ∃ v, victimOf os = some v := by
  cases os with
  | nil => exact absurd rfl ne
  | cons o os =>
      rw [victimOf]
      split
      · exact ⟨o, rfl⟩
      · dsimp only
        split_ifs <;> exact ⟨_, rfl⟩

/-- Every circle of waits has a row that can be denied. -/
theorem cycleSources_ne_nil {waits : List Wait} {cycle : List AgentId} (ok : s.Ok)
    (hwaits : waitFor cfg s now = .ok waits) (walk : Digraph.ClosedWalk (waitEdges waits) cycle) :
    cycleSources s waits cycle ≠ [] := by
  obtain ⟨a, mid, rfl, chain⟩ := walk
  -- the first step of the walk is a wait of a queued row
  have step : ∃ b, Digraph.Edge (waitEdges waits) a b ∧
      (a, b) ∈ (a :: (mid ++ [a])).zip (mid ++ [a]) := by
    cases mid with
    | nil => exact ⟨a, (List.isChain_cons_cons.mp chain).1, List.mem_cons_self ..⟩
    | cons b mid => exact ⟨b, (List.isChain_cons_cons.mp chain).1, List.mem_cons_self ..⟩
  obtain ⟨b, edge, pair⟩ := step
  obtain ⟨w, hw, same⟩ := List.mem_map.mp edge
  obtain ⟨p, hp, id, -⟩ := waitFor_row hwaits hw
  obtain ⟨mem, pending⟩ := mem_pendingOrbits.mp hp
  refine List.ne_nil_of_mem (a := p) ?_
  rw [cycleSources, List.mem_filter, List.mem_filterMap]
  refine ⟨⟨w.orbitId, List.mem_dedup.mpr (List.mem_map.mpr ⟨w, ?_, rfl⟩), ?_⟩, ?_⟩
  · rw [List.mem_filter, same]
    exact ⟨hw, decide_eq_true pair⟩
  · rw [id]
    exact ok.getOrbit.mpr ⟨mem, rfl⟩
  · exact decide_eq_true (isPending_iff.mp pending).1

/-- A denial makes the queue shorter. -/
theorem Store.Turns.pending_lt (h : s.Turns o .DENIED s') (ok : s.Ok) (ok' : s'.Ok)
    (ho : o ∈ s.orbits) (pending : o.isPending = true) :
    s'.pendingOrbits.length < s.pendingOrbits.length := by
  have drops := h.drops ok ho
  have sub : ∀ r ∈ o :: s'.pendingOrbits, r ∈ s.pendingOrbits := by
    intro r hr
    rcases List.mem_cons.mp hr with rfl | hr
    · exact mem_pendingOrbits.mpr ⟨ho, pending⟩
    · obtain ⟨mem, queued⟩ := mem_pendingOrbits.mp hr
      exact mem_pendingOrbits.mpr ⟨drops.pending r mem queued, queued⟩
  have gone : o ∉ s'.pendingOrbits := by
    intro mem
    obtain ⟨o', -, denied, rows⟩ := h.rows
    rcases (rows o).mp (mem_pendingOrbits.mp mem).1 with ⟨-, other⟩ | same
    · exact other rfl
    · rw [Orbit.isPending, same, denied] at pending
      cases pending
  have nodup : (o :: s'.pendingOrbits).Nodup :=
    List.nodup_cons.mpr ⟨gone, ok'.distinct_pendingOrbits.of_map⟩
  exact (List.subperm_of_subset nodup sub).length_le

theorem denyCyclesLoop_total {reason : TerminalReason} {fuel : ℕ} (h : s.Sound)
    (enough : s.pendingOrbits.length < fuel) :
    ∃ s', denyCyclesLoop cfg now reason fuel s = .ok s' := by
  induction fuel generalizing s with
  | zero => omega
  | succ fuel ih =>
      obtain ⟨waits, hwaits⟩ := waitFor_total cfg now h
      rw [denyCyclesLoop, hwaits, Outcome.ok_bind]
      cases found : Digraph.findCycle (waitEdges waits) sortAgents with
      | none => exact ⟨s, rfl⟩
      | some cycle =>
          have walk := Digraph.findCycle_some mem_sortAgents found
          obtain ⟨victim, chosen⟩ := victimOf_isSome (cycleSources_ne_nil h.ok hwaits walk)
          obtain ⟨ho, pending, ranked⟩ := cycleSources_row h.ok hwaits (victimOf_mem chosen)
          obtain ⟨s₁, denied⟩ := denyVictim_total reason h ho pending ranked
          have wrote : Wrote ⟨cfg, now, fun _ => False⟩ nobody s victim s₁ :=
            denyVictim_wrote (c := ⟨cfg, now, fun _ => False⟩) pending denied
          have sound₁ := h.micros (wrote.micros h.ok ho)
          have shorter := (denyVictim_turns h.ok ho denied).pending_lt h.ok sound₁.ok ho pending
          obtain ⟨s', rest⟩ := ih sound₁ (by omega)
          refine ⟨s', ?_⟩
          dsimp only
          rw [chosen]
          dsimp only
          rw [denied, Outcome.ok_bind, rest]

/-- A settlement goes through. -/
theorem settle_total (cfg : Cfg) (now : Time) (h : s.Sound) : ∃ s', settle cfg now s = .ok s' := by
  let c : Scope := ⟨cfg, now, fun _ => False⟩
  have due (o : Orbit) : o ∈ s.duePendingOrbits now ↔
      o ∈ s.orbits ∧ o.isPending = true ∧ reached o.waitDeadline now = true := by
    simp [Store.duePendingOrbits]
  obtain ⟨s₁, timeout, sound₁, -⟩ : ∃ s₁, timeoutPending now s = .ok s₁ ∧ s₁.Sound ∧
      s.Unsummed s₁ := by
    refine h.rows (c := c) (E := nobody) (distinct_insertionSort (h.ok.orbitIds.filter _))
      (fun o ho => ((due o).mp ho).1) fun o ho s₁ sound₁ ho₁ => ?_
    obtain ⟨-, pending, overdue⟩ := (due o).mp ho
    obtain ⟨s₂, round⟩ := timeoutOrbit_total sound₁ ho₁ pending overdue
    exact ⟨s₂, round, timeoutOrbit_wrote (c := c) pending round⟩
  obtain ⟨s₂, deny⟩ : ∃ s₂, denyReservationCycles cfg now s₁ = .ok s₂ :=
    denyCyclesLoop_total sound₁ (Nat.lt_succ_self _)
  have sound₂ : s₂.Sound :=
    sound₁.micros (denyReservationCycles_keeps (c := c) (E := nobody) deny sound₁.ok).1
  obtain ⟨s', promote, -⟩ : ∃ s', promotePending cfg now s₂ = .ok s' ∧ s'.Sound ∧
      s₂.Unsummed s' := by
    refine sound₂.rows (c := c) (E := nobody)
      (distinct_insertionSort sound₂.ok.distinct_pendingOrbits)
      (fun o ho => (mem_orderedPending.mp ho).1) fun o ho s₃ sound₃ ho₃ => ?_
    obtain ⟨-, pending⟩ := mem_orderedPending.mp ho
    obtain ⟨s₄, round⟩ := promoteOrbit_total cfg now sound₃ ho₃ pending
    exact ⟨s₄, round, promoteOrbit_wrote (c := c) pending round⟩
  exact ⟨s', by rw [settle, timeout, Outcome.ok_bind, deny, Outcome.ok_bind, promote]⟩

/-! ## The reclaim -/

theorem expireDue_total (now : Time) (h : s.Sound) : ∃ s', expireDue now s = .ok s' ∧ s'.Sound := by
  let c : Scope := ⟨{}, now, fun _ => False⟩
  obtain ⟨s', expire, sound, -⟩ : ∃ s', expireDue now s = .ok s' ∧ s'.Sound ∧ s.Unsummed s' := by
    refine h.rows (c := c) (E := nobody) (h.ok.orbitIds.filter _)
      (fun o ho => (List.mem_filter.mp ho).1) fun o ho s₁ sound₁ ho₁ => ?_
    have due : o.isDue now = true := (List.mem_filter.mp ho).2
    obtain ⟨s₂, round⟩ := expireOrbit_total sound₁ ho₁ due
    exact ⟨s₂, round, expireOrbit_wrote (c := c) due round⟩
  exact ⟨s', expire, sound⟩

/-- A loop that always goes through and leaves the outbox as it is. -/
theorem foldlM_outbox {α : Type} {f : Store → α → Except Fault Store} (xs : List α) (s : Store)
    (round : ∀ s x, ∃ s', f s x = .ok s' ∧ s'.outbox = s.outbox) :
    ∃ s', xs.foldlM f s = .ok s' ∧ s'.outbox = s.outbox :=
  Outcome.foldlM_ok (P := fun s' : Store => s'.outbox = s.outbox) rfl fun x _ s₁ same => by
    obtain ⟨s₂, step, same'⟩ := round s₁ x
    exact ⟨s₂, step, same'.trans same⟩

theorem reclaimSideLeases_total (now : Time) (agent : AgentId) (s : Store) :
    ∃ s', reclaimSideLeases now agent s = .ok s' ∧ s'.outbox = s.outbox := by
  have held (s : Store) (o : Orbit) : ∃ s', expireHeld now s o = .ok s' ∧ s'.outbox = s.outbox :=
    ⟨_, rfl, rfl⟩
  have flag (s : Store) (o : Orbit) :
      ∃ s', reclaimFlagLease now s o = .ok s' ∧ s'.outbox = s.outbox := by
    obtain ⟨s', expired, same⟩ := held (breakEphemeralFlagsForLease s o.orbitId) o
    refine ⟨s', expired, same.trans ?_⟩
    exact (frame_breakEphemeralFlagsForLease s o.orbitId).outbox
  obtain ⟨s₁, tokens, same₁⟩ := foldlM_outbox (s.heldOfKindBy .merge_token agent) s held
  obtain ⟨s₂, flags, same₂⟩ := foldlM_outbox (s₁.heldOfKindBy .flag_ephemeral agent) s₁ flag
  obtain ⟨s₃, permits, same₃⟩ := foldlM_outbox (s₂.heldOfKindBy .sem_permit agent) s₂ held
  refine ⟨s₃.cancelSemWaiters agent, ?_, same₃.trans (same₂.trans same₁)⟩
  rw [reclaimSideLeases, tokens, Outcome.ok_bind, flags, Outcome.ok_bind, permits, Outcome.ok_bind]

theorem reclaimOrbit_total (now : Time) (h : s.Sound) (ho : o ∈ s.orbits) (kind : o.kind = .orbit)
    (live : o.live = true) : ∃ s', reclaimOrbit now s o = .ok s' := by
  rw [Orbit.live, Bool.or_eq_true, decide_eq_true_eq, decide_eq_true_eq] at live
  rcases live with state | state
  · obtain ⟨id, s₁, identity, asserted⟩ :=
      h.asserts ho kind (e := .LEASE_OWNER_RECLAIMED) (by rw [state]; rfl)
    have reduced : reduceOrbitLifecycle s o .LEASE_OWNER_RECLAIMED = .ok s₁ := by
      rw [reduceOrbitLifecycle, identity]
      exact asserted
    rw [reclaimOrbit, state]
    simp only [if_true]
    rw [reduced]
    exact ⟨_, rfl⟩
  · obtain ⟨id, s₁, identity, asserted⟩ :=
      h.asserts ho kind (e := .WAIT_OWNER_RECLAIMED) (by rw [state]; rfl)
    have reduced : reduceOrbitLifecycle s o .WAIT_OWNER_RECLAIMED = .ok s₁ := by
      rw [reduceOrbitLifecycle, identity]
      exact asserted
    rw [reclaimOrbit, state]
    simp only [reduceCtorEq, if_false]
    rw [reduced]
    exact ⟨_, rfl⟩

theorem barrierEvalAll_total (now : Time) (ids : List BarrierId) (s : Store) :
    ∃ s', barrierEvalAll now ids s = .ok s' := by
  have broken (s : Store) {b : Barrier} (armed : b.state = .ARMED) (reason : String) :
      ∃ s', breakBarrier s b reason = .ok s' := by
    rw [breakBarrier, armed, if_neg (by decide)]
    exact ⟨_, rfl⟩
  have live (s : Store) {b : Barrier} (armed : b.state = .ARMED) :
      ∃ r, barrierEvalLive now false s b = .ok r := by
    rw [barrierEvalLive]
    dsimp only
    split_ifs with overdue trips
    · obtain ⟨s', done⟩ := broken s armed "timeout"
      exact ⟨_, by rw [done]; rfl⟩
    · cases trips.1
    · exact ⟨_, rfl⟩
  have one (s : Store) (id : BarrierId) : ∃ r, barrierEval now s id = .ok r := by
    rw [barrierEval]
    split
    · exact ⟨_, rfl⟩
    · rename_i b found
      dsimp only
      split_ifs with other alive shrinks
      · exact ⟨_, rfl⟩
      · exact live s (not_not.mp other)
      · exact live _ (not_not.mp other)
      · obtain ⟨s', done⟩ := broken s (not_not.mp other) "participant_dead"
        exact ⟨_, by rw [done]; rfl⟩
  obtain ⟨s', loop, -⟩ : ∃ s', barrierEvalAll now ids s = .ok s' ∧ True := by
    refine Outcome.foldlM_ok (P := fun _ => True) trivial fun id _ s₁ _ => ?_
    obtain ⟨r, done⟩ := one s₁ id
    exact ⟨r.1, by rw [done]; rfl, trivial⟩
  exact ⟨s', loop⟩

theorem reclaimTasks_total (cfg : Cfg) (now : Time) (agent : AgentId) (s : Store) :
    ∃ s', reclaimTasks cfg now agent s = .ok s' ∧ s'.outbox = s.outbox := by
  have one (s : Store) (t : Task) : ∃ s', reclaimTask cfg s t = .ok s' ∧ s'.outbox = s.outbox := by
    rw [reclaimTask]
    split_ifs with busy
    · have aborted : advanceTask t.state .abort = .ok .ABORTED := by
        cases state : t.state <;> rw [state] at busy <;> first | rfl | cases busy
      have advanced : ∃ state, reclaimedState cfg t = .ok state := by
        rw [reclaimedState, aborted, Outcome.ok_bind]
        split_ifs <;> exact ⟨_, rfl⟩
      obtain ⟨state, advanced⟩ := advanced
      rw [advanced]
      exact ⟨_, rfl, rfl⟩
    · exact ⟨s, rfl, rfl⟩
  obtain ⟨s₁, loop, same⟩ := foldlM_outbox (s.tasksForAgent agent) s one
  obtain ⟨s', evaluated⟩ := barrierEvalAll_total now
    ((s.tasksForAgent agent).flatMap fun t =>
      (s.barriersWithTask t.taskId).map Barrier.barrierId).dedup s₁
  refine ⟨s', ?_, (frame_barrierEvalAll evaluated).outbox.trans same⟩
  rw [reclaimTasks, loop, Outcome.ok_bind, evaluated]

/-- The summary of a reclaim is posted when the outbox has none of this reclaim. -/
theorem enqueueAgentReclaimed_total {final : Option Orbit}
    (freed : ∀ o, final = some o → o.news .AGENT_RECLAIMED ∉ s.outbox)
    (epoch : ∀ r ∈ s.outbox, r.transition = .AGENT_RECLAIMED → r.orbitId = none →
      r.requestId = RequestId.reclaim agent →
        r.requestGeneration < ((s.getAgent agent).map Agent.bailEpoch).getD 0) :
    ∃ s', enqueueAgentReclaimed s agent final = .ok s' := by
  cases final with
  | some o =>
      have new : (⟨.AGENT_RECLAIMED, o.requestId.getD (RequestId.internal o.orbitId),
          o.requestGeneration,
          some o.orbitId⟩ : OutboxRow) ∉ s.outbox := freed o rfl
      rw [enqueueAgentReclaimed, Store.enqueueOutbox, if_neg new]
      exact ⟨_, rfl⟩
  | none =>
      have new : (⟨.AGENT_RECLAIMED, RequestId.reclaim agent,
          ((s.getAgent agent).map Agent.bailEpoch).getD 0, none⟩ : OutboxRow) ∉ s.outbox :=
        fun posted => lt_irrefl _ (epoch _ posted rfl rfl rfl)
      rw [enqueueAgentReclaimed, Store.enqueueOutbox, if_neg new]
      exact ⟨_, rfl⟩

theorem getAgent_written {f : Agent → Agent} (key : ∀ r, (f r).agentId = r.agentId) {a : Agent}
    (h : s.getAgent agent = some a) : (s.setAgent agent f).getAgent agent = some (f a) := by
  refine (Table.get_modify (fun r same => (key r).trans same) _).trans ?_
  rw [show Table.get Agent.agentId agent s.agents = some a from h]
  simp

/-- The agent of a reclaim has a new epoch. -/
theorem getAgent_leaving (state : AgentState) {a : Agent} (h : s.getAgent agent = some a) :
    ((s.setAgentState agent state).bumpBailEpoch agent).getAgent agent =
      some { a with state := state, bailEpoch := a.bailEpoch + 1 } :=
  getAgent_written (f := fun r => { r with bailEpoch := r.bailEpoch + 1 }) (fun _ => rfl)
    (getAgent_written (f := fun r => { r with state := state }) (fun _ => rfl) h)

theorem reclaimAgentCore_total (cfg : Cfg) (now : Time) (h : s.Sound) (voluntary : Bool)
    (agent : AgentId) : ∃ r, reclaimAgentCore cfg now voluntary s agent = .ok r := by
  let c : Scope := ⟨cfg, now, fun _ => True⟩
  have may : c.reclaims agent := Or.inl trivial
  rw [reclaimAgentCore]
  cases registered : s.getAgent agent with
  | none => exact ⟨_, rfl⟩
  | some a =>
  dsimp only
  by_cases retired : a.state = .RETIRED
  · rw [if_pos retired]
    exact ⟨_, rfl⟩
  rw [if_neg retired]
  obtain ⟨ha, named⟩ := h.ok.getAgent.mp registered
  -- the agent leaves, under a new epoch
  obtain ⟨state, hstate, leaving⟩ : ∃ state, (if voluntary then AgentState.BAILING else .ZOMBIE) =
      state ∧ state ≠ .RETIRED := ⟨_, rfl, by split <;> simp⟩
  rw [hstate]
  obtain ⟨s₀, hs₀⟩ : ∃ s₀, (s.setAgentState agent state).bumpBailEpoch agent = s₀ := ⟨_, rfl⟩
  have current := getAgent_leaving state registered
  rw [hs₀] at current ⊢
  have sound₀ : s₀.Sound := by
    rw [← hs₀]
    refine h.micros (((setAgentState_keeps (c := c) (E := nobody) trivial fun b hb id => ?_).trans
      (bumpBailEpoch_keeps trivial agent)) h.ok).1
    rw [h.ok.agentIds.eq hb ha (id.trans named.symm)]
    exact ⟨retired, fun ends => absurd ends leaving⟩
  have outbox₀ : s₀.outbox = s.outbox := by
    rw [← hs₀]
    rfl
  -- what it holds ends
  obtain ⟨s₁, side, outbox₁⟩ := reclaimSideLeases_total now agent s₀
  have freed := reclaimSideLeases_spec (c := c) (E := fun _ => True) may (fun _ _ _ _ => trivial)
    side sound₀.ok
  have sound₁ := sound₀.micros freed.run
  have own (o : Orbit) : o ∈ s₁.orbitsOwnedByAgent agent ↔
      o ∈ s₁.orbits ∧ o.agentId = agent ∧ o.kind = .orbit ∧ o.live = true := by
    simp only [Store.orbitsOwnedByAgent, Orbit.live, List.mem_filter, Bool.and_eq_true,
      decide_eq_true_eq, and_assoc]
  obtain ⟨s₂, orbits, sound₂, unsummed⟩ : ∃ s₂,
      (s₁.orbitsOwnedByAgent agent).foldlM (reclaimOrbit now) s₁ = .ok s₂ ∧ s₂.Sound ∧
        s₁.Unsummed s₂ := by
    refine sound₁.rows (c := c) (E := fun _ => True) (sound₁.ok.orbitIds.filter _)
      (fun o ho => ((own o).mp ho).1) fun o ho s₂ sound₂ ho₂ => ?_
    obtain ⟨-, owner, kind, live⟩ := (own o).mp ho
    obtain ⟨s₃, round⟩ := reclaimOrbit_total now sound₂ ho₂ kind live
    exact ⟨s₃, round, (reclaimOrbit_spec (c := c) (owner ▸ may) (Or.inl trivial) kind live sound₂.ok
      ho₂ round).1⟩
  have loop := (reclaimOrbits_spec (c := c) (E := fun _ => True) may (Or.inl trivial) orbits
    sound₁.ok (show s₁.Freed agent [] by simp [Store.Freed]) (by simp)).1
  obtain ⟨s₃, tasks, outbox₃⟩ := reclaimTasks_total cfg now agent s₂
  have done := reclaimTasks_spec (c := c) (E := fun _ => True) may (fun _ _ _ => trivial) tasks
    sound₂.ok
  -- no summary was posted on the way
  have outbox : ∀ r ∈ (s₃.setAgentState agent .RETIRED).outbox, r.transition = .AGENT_RECLAIMED →
      r ∈ s₁.outbox := by
    intro r hr event
    change r ∈ s₃.outbox at hr
    rw [outbox₃] at hr
    exact unsummed r hr event
  obtain ⟨s₄, summary⟩ : ∃ s₄, enqueueAgentReclaimed (s₃.setAgentState agent .RETIRED) agent
      (((s₁.orbitsOwnedByAgent agent).map Orbit.orbitId).getLast?.bind
        (s₃.setAgentState agent .RETIRED).getOrbit) = .ok s₄ := by
    refine enqueueAgentReclaimed_total (fun o final posted => ?_)
      fun r hr event unnamed request => ?_
    · -- the orbit it names was live until this reclaim
      rw [Option.bind_eq_some_iff] at final
      obtain ⟨id, last, found⟩ := final
      obtain ⟨x, hx, rfl⟩ := List.mem_map.mp (List.mem_of_getLast? last)
      obtain ⟨mem, -, -, live⟩ := (own x).mp hx
      have same : o.orbitId = x.orbitId := Table.key_of_get found
      have ended := sound₁.summed.ended _ (outbox _ posted rfl) rfl x mem (congrArg some same)
      rw [live] at ended
      cases ended
    · -- the summaries of this agent are of earlier epochs
      have old : r ∈ s.outbox := outbox₀ ▸ outbox₁ ▸ outbox r hr event
      obtain ⟨b, hb, request', epoch⟩ := h.summed.known r old event unnamed
      rw [request] at request'
      have same : agent = b.agentId := RequestId.reclaim_inj request'
      rw [h.ok.agentIds.eq hb ha (same.symm.trans named.symm)] at epoch
      have agents : s₃.agents = s₀.agents :=
        done.agents.trans (loop.agents.trans freed.agents)
      have found : s₃.getAgent agent =
          some { a with state := state, bailEpoch := a.bailEpoch + 1 } := by
        rw [Store.getAgent, agents]
        exact current
      have row : (s₃.setAgentState agent .RETIRED).getAgent agent = _ :=
        getAgent_written (f := fun r => { r with state := .RETIRED }) (fun _ => rfl) found
      rw [row]
      exact Nat.lt_succ_of_le epoch
  rw [side, Outcome.ok_bind, orbits, Outcome.ok_bind, tasks, Outcome.ok_bind, summary]
  exact ⟨_, rfl⟩

theorem reclaimZombies_total (cfg : Cfg) (now : Time) (h : s.Sound) :
    ∃ s', reclaimZombies cfg now s = .ok s' ∧ s'.Sound := by
  let c : Scope := ⟨cfg, now, fun _ => True⟩
  rw [reclaimZombies]
  cases cfg.agentTtl with
  | none => exact ⟨s, rfl, h⟩
  | some ttl =>
      refine Outcome.foldlM_ok (P := Store.Sound) h fun a _ s₁ sound₁ => ?_
      rw [reclaimZombie]
      split_ifs
      · exact ⟨s₁, rfl, sound₁⟩
      · obtain ⟨⟨s₂, r⟩, reclaimed⟩ :=
          reclaimAgentCore_total cfg now sound₁ false a.agentId
        have takes : Takes c s₁ s₂ := reclaimAgentCore_takes trivial (Or.inl trivial) reclaimed
        exact ⟨s₂, by rw [reclaimed]; rfl, sound₁.moves (takes sound₁.ok)⟩

/-- A reconciliation goes through. -/
theorem reconcileAdmission_total (cfg : Cfg) (now : Time) (h : s.Sound) :
    ∃ s', reconcileAdmission cfg now s = .ok s' ∧ s'.Settled cfg now ∧ s'.Sound := by
  obtain ⟨s₁, expire, sound₁⟩ := expireDue_total now h
  obtain ⟨s₂, zombies, sound₂⟩ := reclaimZombies_total cfg now sound₁
  obtain ⟨s', settled⟩ := settle_total cfg now sound₂
  refine ⟨s', ?_, settle_settled sound₂.ok sound₂.tickets settled, ?_⟩
  · rw [reconcileAdmission, expire, Outcome.ok_bind, zombies, Outcome.ok_bind, settled]
  · let c : Scope := ⟨cfg, now, fun _ => False⟩
    exact sound₂.micros (settle_keeps (c := c) (E := nobody) settled sound₂.ok).1

theorem sweepSide_total (cfg : Cfg) (now : Time) (s : Store) :
    ∃ s', sweepSide cfg now s = .ok s' := by
  have flag (s : Store) (o : Orbit) : ∃ s', sweepFlagLease s o = .ok s' ∧ s'.outbox = s.outbox :=
    ⟨_, rfl, (frame_breakEphemeralFlagsForLease s o.orbitId).outbox⟩
  have permit (s : Store) (o : Orbit) : ∃ s', expireHeld now s o = .ok s' ∧ s'.outbox = s.outbox :=
    ⟨_, rfl, rfl⟩
  obtain ⟨s₁, flags, -⟩ := foldlM_outbox (s.dueOfKind .flag_ephemeral now) s flag
  obtain ⟨s₂, lapsed, -⟩ := foldlM_outbox (s₁.dueOfKind .sem_permit now) s₁ permit
  have permits : ∃ s₃, sweepPermits cfg now s₁ = .ok s₃ := by
    rw [sweepPermits, lapsed]
    exact ⟨_, rfl⟩
  obtain ⟨s₃, permits⟩ := permits
  obtain ⟨s₄, armed⟩ := barrierEvalAll_total now
    ((s₃.barriers.filter fun b => b.state = .ARMED).map Barrier.barrierId) s₃
  rw [sweepSide, flags, Outcome.ok_bind, permits, Outcome.ok_bind]
  dsimp only
  rw [armed]
  exact ⟨_, rfl⟩

/-! ## Reachable states -/

/-- In every reachable state a reconciliation returns, whatever the time is.  It leaves no queued
row that is overdue, none that could be promoted, and nobody who waits for himself; and settling
once more at that time grants and ends nothing. -/
theorem reconcile_standstill {σ : Sys} (reach : Reachable cfg σ) (now : Time) :
    ∃ s', reconcileAdmission cfg now σ.store = .ok s' ∧ s'.Settled cfg now ∧
      ∃ s'', settle cfg now s' = .ok s'' ∧ s'.SameRows s'' ∧ s''.line = s'.line ∧
        s''.agents = s'.agents := by
  obtain ⟨s', reconciled, settled, sound⟩ :=
    reconcileAdmission_total cfg now (ReachableBy.sound reach)
  obtain ⟨s'', again⟩ := settle_total cfg now sound
  exact ⟨s', reconciled, settled, s'', again, settled.again sound.ok again⟩

/-- Two writers wait for a third, who holds its lease. -/
theorem reconcile_standstill_writers : ∃ σ s', Reachable {} σ ∧ σ.store.pendingOrbits.length = 2 ∧
    reconcileAdmission {} 4 σ.store = .ok s' ∧ s'.Settled {} 4 := by
  obtain ⟨σ, reach, two⟩ : ∃ σ, Reachable {} σ ∧ σ.store.pendingOrbits.length = 2 :=
    exists_reachable threeWriters (by decide +kernel)
  obtain ⟨s', reconciled, settled, -⟩ := reconcile_standstill reach 4
  exact ⟨σ, s', reach, two, reconciled, settled⟩

/-- In every reachable state a sweep returns, whatever the time is: no row that it ends is refused
by a machine, no notification is in the outbox already, and no circle of waits outlasts its
denials. -/
theorem sweep_returns {σ : Sys} (reach : Reachable cfg σ) (env : Env) :
    ∃ σ', step cfg env σ (.call .sweep) = .ok σ' := by
  obtain ⟨s₁, reconciled, -, -⟩ :=
    reconcileAdmission_total cfg env.now (ReachableBy.sound reach)
  obtain ⟨s₂, side⟩ := sweepSide_total cfg env.now s₁
  refine ⟨{ σ with store := s₂ }, ?_⟩
  rw [step, Verb.run, sweepInline, reconciled, Outcome.ok_bind, side]
  rfl

/-- The writers are silent, so that all of them are reclaimed. -/
theorem sweep_returns_writers : ∃ σ σ', Reachable {} σ ∧ σ.store.pendingOrbits.length = 2 ∧
    step {} { now := 1000, instanceId := "c" } σ (.call .sweep) = .ok σ' := by
  obtain ⟨σ, reach, two⟩ : ∃ σ, Reachable {} σ ∧ σ.store.pendingOrbits.length = 2 :=
    exists_reachable threeWriters (by decide +kernel)
  obtain ⟨σ', swept⟩ := sweep_returns reach { now := 1000, instanceId := "c" }
  exact ⟨σ, σ', reach, two, swept⟩

end Omd
