import Omd.Intents

/-!
# The members of a batch

The members of a batch are claimed one after the other in the transaction of one sweep.  A claim
there answers by the row of its request or of its intent, adds a held row, or adds a row that
waits or was denied; a reservation cycle that it closes denies rows that wait, and the other rows
stay.  The preflight asks what the claims will ask, so that it queues the member that cannot be
granted.
-/

namespace Omd

open Lib

variable {cfg : Cfg} {now : Time} {s s' : Store}

/-! ## Rows that are held -/

/-- The rows that are held are the same. -/
def Store.SameHeld (s s' : Store) : Prop :=
  ∀ o : Orbit, o.state = .HELD → (o ∈ s'.orbits ↔ o ∈ s.orbits)

/-- The same rows are held. -/
theorem Store.SameHeld.of_orbits (h : s'.orbits = s.orbits) : s.SameHeld s' := by
  intro o _
  rw [h]

/-- The candidates of a denial are queued rows. -/
theorem waits_of_cycleSources {waits : List Wait} {cycle : List AgentId} {o : Orbit}
    (h : o ∈ cycleSources s waits cycle) : o ∈ s.orbits ∧ o.state = .PENDING := by
  rw [cycleSources, List.mem_filter, List.mem_filterMap] at h
  obtain ⟨⟨id, -, found⟩, state⟩ := h
  exact ⟨Table.mem_of_get found, of_decide_eq_true state⟩

/-- The row is the same, or it waited and is denied. -/
structure Orbit.AtMostDenied (o o' : Orbit) : Prop where
  row : o.SameRow o'
  state : o' = o ∨ o.state = .PENDING ∧ o'.state = .DENIED

@[refl] theorem Orbit.AtMostDenied.refl (o : Orbit) : o.AtMostDenied o := ⟨.refl o, Or.inl rfl⟩

theorem Orbit.AtMostDenied.trans {o o₁ o' : Orbit} (h : o.AtMostDenied o₁)
    (h' : o₁.AtMostDenied o') : o.AtMostDenied o' where
  row := h.row.trans h'.row
  state := by
    rcases h.state with rfl | ⟨waits, denied⟩
    · exact h'.state
    rcases h'.state with rfl | ⟨waits', -⟩
    · exact Or.inr ⟨waits, denied⟩
    · rw [denied] at waits'
      cases waits'

/-- The tables after denials: rows that waited are denied, the others are the same. -/
structure Denies (s s' : Store) : Prop where
  idempotency : s'.idempotency = s.idempotency
  tasks : s'.tasks = s.tasks
  rows : ∃ f : Orbit → Orbit, s'.orbits = s.orbits.map f ∧ ∀ o ∈ s.orbits, o.AtMostDenied (f o)

namespace Denies

theorem refl (s : Store) : Denies s s :=
  ⟨rfl, rfl, id, (List.map_id _).symm, fun o _ => .refl o⟩

theorem trans {s₁ : Store} (h : Denies s s₁) (h' : Denies s₁ s') : Denies s s' where
  idempotency := h'.idempotency.trans h.idempotency
  tasks := h'.tasks.trans h.tasks
  rows := by
    obtain ⟨f, rows, denied⟩ := h.rows
    obtain ⟨g, rows', denied'⟩ := h'.rows
    refine ⟨g ∘ f, ?_, fun o ho => (denied o ho).trans (denied' (f o) ?_)⟩
    · rw [rows', rows, List.map_map]
    · rw [rows]
      exact List.mem_map_of_mem ho

theorem ids (h : Denies s s') : s'.orbits.map Orbit.orbitId = s.orbits.map Orbit.orbitId := by
  obtain ⟨f, rows, denied⟩ := h.rows
  rw [rows, List.map_map]
  exact List.map_congr_left fun o ho => (denied o ho).row.orbitId

theorem held (h : Denies s s') : s.SameHeld s' := by
  obtain ⟨f, rows, denied⟩ := h.rows
  intro o held
  rw [rows, List.mem_map]
  constructor
  · rintro ⟨p, hp, rfl⟩
    rcases (denied p hp).state with same | ⟨-, denied⟩
    · rwa [same]
    · rw [held] at denied
      cases denied
  · intro ho
    refine ⟨o, ho, (denied o ho).state.resolve_right fun waits => ?_⟩
    rw [held] at waits
    cases waits.1

end Denies

/-- A denial ends one row that waits. -/
theorem denyVictim_same {reason : TerminalReason} {victim : Orbit}
    (ids : Table.Distinct Orbit.orbitId s.orbits) (mem : victim ∈ s.orbits)
    (pending : victim.state = .PENDING) (h : denyVictim cfg now reason s victim = .ok s') :
    Denies s s' := by
  rw [denyVictim, Outcome.bind_eq_ok] at h
  obtain ⟨decision, -, h⟩ := h
  rw [Outcome.bind_eq_ok] at h
  obtain ⟨id, -, h⟩ := h
  rw [Outcome.bind_eq_ok] at h
  obtain ⟨s₁, h₁, h⟩ := h
  rw [Outcome.bind_eq_ok] at h
  obtain ⟨state, denied, h⟩ := h
  cases h
  cases denied
  have store := (assertAdmissionProjection_spec h₁).store
  subst store
  refine ⟨rfl, rfl, _, rfl, fun o ho => ?_⟩
  by_cases hit : o.orbitId = victim.orbitId
  · rw [if_pos hit]
    exact ⟨rfl, Or.inr ⟨ids.eq ho mem hit ▸ pending, rfl⟩⟩
  · rw [if_neg hit]

/-- The denials end rows that wait, and no others. -/
theorem denyCyclesLoop_same {reason : TerminalReason} {fuel : ℕ}
    (ids : Table.Distinct Orbit.orbitId s.orbits)
    (h : denyCyclesLoop cfg now reason fuel s = .ok s') : Denies s s' := by
  induction fuel generalizing s with
  | zero => cases h
  | succ fuel ih =>
      rw [denyCyclesLoop, Outcome.bind_eq_ok] at h
      obtain ⟨waits, hwaits, h⟩ := h
      split at h
      · cases h
        exact .refl _
      · split at h
        · cases h
        · rename_i victim hvictim
          rw [Outcome.bind_eq_ok] at h
          obtain ⟨s₁, h₁, h⟩ := h
          obtain ⟨mem, pending⟩ := waits_of_cycleSources (victimOf_mem hvictim)
          have first := denyVictim_same ids mem pending h₁
          have ids₁ : Table.Distinct Orbit.orbitId s₁.orbits := by
            rw [Table.Distinct, first.ids]
            exact ids
          exact first.trans (ih ids₁ h)

/-! ## The decision -/

theorem build_eq_ok {pathspec : List String} {mode : Mode} {priority q : ℤ}
    {id : Option OrbitId} {version : Option PolicyVersion} {enqueued : Option Time}
    {request : AdmissionRequest}
    (h : AdmissionRequest.build pathspec mode priority (some q) id version enqueued =
      .ok request) :
    ∃ v, version = some v ∧ normalizePathspec pathspec = .ok request.pathspec ∧
      request = ⟨request.pathspec, mode, priority, q, id, v, enqueued⟩ := by
  unfold AdmissionRequest.build at h
  split at h
  · cases h
  dsimp only at h
  split at h
  · cases h
  cases version with
  | none => cases h
  | some v =>
      dsimp only at h
      rw [Outcome.bind_eq_ok] at h
      obtain ⟨paths, normal, h⟩ := h
      cases h
      exact ⟨v, rfl, normal, rfl⟩

theorem rankKey_ticket {policy : QueuePolicy} {base t : ℤ} {version : Option PolicyVersion}
    {enqueued : Option Time} {allow : Bool} {r : Rank}
    (h : policy.rankKey base (some t) version enqueued now allow = some r) :
    ∃ e, policy.effectivePriority base version enqueued now allow = some e ∧
      r = toLex (-e, t) := by
  rw [QueuePolicy.rankKey] at h
  split at h
  · cases h
  · split at h
    · cases h
    · rename_i e effective
      cases h
      exact ⟨e, effective, rfl⟩

/-- A ticket that was drawn outranks the next ones alike. -/
theorem pendingOutranks_congr {policy : QueuePolicy} {e q q' : ℤ} {row : Row}
    (drawn : ∀ t, row.queueSeq = some t → t < q ∧ t < q') :
    pendingOutranks policy (toLex (e, q)) now row =
      pendingOutranks policy (toLex (e, q')) now row := by
  rw [pendingOutranks, pendingOutranks]
  cases ticket : row.queueSeq with
  | none => rfl
  | some t =>
      cases row.policyVersion with
      | none => rfl
      | some v =>
          obtain ⟨lt, lt'⟩ := drawn t ticket
          dsimp only
          cases key : policy.rankKey row.priority (some t) (some v) row.enqueuedAt now with
          | none => rfl
          | some r =>
              obtain ⟨e', -, rfl⟩ := rankKey_ticket key
              simp [Prod.Lex.toLex_lt_toLex, lt, lt']

/-- A request is granted with one of the next tickets as with the other. -/
theorem grantable_congr {s₁ : Store} (orbits : s₁.orbits = s.orbits) (intents : s.Intents)
    {raw paths : List String} (normal : normalizePathspec raw = .ok paths) {mode : Mode}
    {priority q q' : ℤ} {id : OrbitId} (fresh : ∀ o ∈ s.orbits, o.orbitId ≠ id)
    (next : s.seq < q) (next' : s.seq < q') {version : Option PolicyVersion}
    {enqueued : Option Time} {d d' : AdmissionDecision}
    (h : admissionDecision cfg s raw mode priority (some q) none version enqueued now = .ok d)
    (h' : admissionDecision cfg s₁ paths mode priority (some q') (some id) version enqueued now =
      .ok d') : d'.grantable = d.grantable := by
  rw [admissionDecision, Outcome.bind_eq_ok] at h h'
  obtain ⟨request, built, h⟩ := h
  obtain ⟨request', built', h'⟩ := h'
  obtain ⟨v, hv, paths₁, eq⟩ := build_eq_ok built
  obtain ⟨v', hv', paths₂, eq'⟩ := build_eq_ok built'
  cases hv
  cases hv'
  have same : request.pathspec = request'.pathspec := by
    rw [normal] at paths₁
    rw [normalizePathspec_idem normal] at paths₂
    exact Except.ok.inj (paths₁.symm.trans paths₂)
  have rows (s : Store) : (∀ row ∈ s.heldOrbits.map Orbit.row, row.Readable) ∧
      ∀ row ∈ s.pendingOrbits.map Orbit.row, row.Readable := by
    constructor <;> intro row hrow <;> obtain ⟨o, -, rfl⟩ := List.mem_map.mp hrow <;>
      exact o.row_readable
  rw [Store.decide, decideAdmission_spec (rows s).1 (rows s).2] at h
  rw [Store.decide, decideAdmission_spec (rows s₁).1 (rows s₁).2] at h'
  have held : s₁.heldOrbits = s.heldOrbits := by
    rw [Store.heldOrbits, Store.heldOrbits, orbits]
  have pending : s₁.pendingOrbits = s.pendingOrbits := by
    rw [Store.pendingOrbits, Store.pendingOrbits, orbits]
  rw [held, pending] at h'
  cases hrank : request.rank cfg.policy now with
  | none =>
      rw [hrank] at h
      cases h
  | some rank =>
      cases hrank' : request'.rank cfg.policy now with
      | none =>
          rw [hrank'] at h'
          cases h'
      | some rank' =>
          rw [hrank] at h
          rw [hrank'] at h'
          cases h
          cases h'
          obtain ⟨e, effective, rfl⟩ := rankKey_ticket hrank
          obtain ⟨e', effective', rfl⟩ := rankKey_ticket hrank'
          rw [eq] at effective
          rw [eq'] at effective'
          cases effective.symm.trans effective'
          have blocked : ∀ o ∈ s.orbits,
              request'.heldBlocked o.row = request.heldBlocked o.row := by
            intro o ho
            rw [AdmissionRequest.heldBlocked, AdmissionRequest.heldBlocked, eq, eq', same]
            have known : some o.orbitId ≠ some id := fun h => fresh o ho (Option.some.inj h)
            simp [Orbit.row, known]
          have waiting : ∀ o ∈ s.orbits, o.kind = .orbit →
              request'.pendingBlocked cfg.policy (toLex (-e, request'.queueSeq)) now o.row =
                request.pendingBlocked cfg.policy (toLex (-e, request.queueSeq)) now o.row := by
            intro o ho kind
            rw [AdmissionRequest.pendingBlocked, AdmissionRequest.pendingBlocked, blocked o ho]
            congr 1
            refine pendingOutranks_congr fun t ticket => ?_
            have le := intents.ticket o ho kind t ticket
            rw [eq, eq']
            exact ⟨lt_of_le_of_lt le next', lt_of_le_of_lt le next⟩
          have heldIds : (s.heldOrbits.map Orbit.row).filter request'.heldBlocked =
              (s.heldOrbits.map Orbit.row).filter request.heldBlocked := by
            refine List.filter_congr fun row hrow => ?_
            obtain ⟨o, ho, rfl⟩ := List.mem_map.mp hrow
            exact blocked o (mem_heldOrbits.mp ho).1
          have pendingIds : (s.pendingOrbits.map Orbit.row).filter
                (request'.pendingBlocked cfg.policy (toLex (-e, request'.queueSeq)) now) =
              (s.pendingOrbits.map Orbit.row).filter
                (request.pendingBlocked cfg.policy (toLex (-e, request.queueSeq)) now) := by
            refine List.filter_congr fun row hrow => ?_
            obtain ⟨o, ho, rfl⟩ := List.mem_map.mp hrow
            obtain ⟨mem, pending⟩ := mem_pendingOrbits.mp ho
            exact waiting o mem (isPending_iff.mp pending).2
          rw [AdmissionDecision.grantable, AdmissionDecision.grantable,
            AdmissionDecision.blockerIds, AdmissionDecision.blockerIds]
          dsimp only
          rw [heldIds, pendingIds]

/-! ## A claim without a sweep -/

/-- What a claim that does not sweep does to the rows, and its reply. -/
inductive ClaimLeft (cfg : Cfg) (now : Time) (s s' : Store) (a : ClaimArgs) (r : Reply) : Prop
  | known (dup : Orbit) (mem : dup ∈ s.orbits) (kind : dup.kind = .orbit)
      (same : dup.intent = a.intentKey) (reply : r.state = some (.orbit dup.state))
      (orbits : s'.orbits = s.orbits) (fence : s'.fence = s.fence)
      (named : r.orbitId = some dup.orbitId)
  | refused (reply : r.state ≠ some (.orbit .HELD)) (orbits : s'.orbits = s.orbits)
      (fence : s'.fence = s.fence)
  | granted (o : Orbit) (kind : o.kind = .orbit) (same : o.intent = a.intentKey)
      (held : o.state = .HELD) (reply : r.state = some (.orbit .HELD))
      (free : ∀ p, s.orbitByIntent a.intentKey = some p → p.agentId ≠ a.agentId)
      (decided : ∃ s₁ d, s₁.orbits = s.orbits ∧ admissionDecision cfg s₁ a.pathspec a.mode
        a.priority (some (s.seq + 1)) (some s.uuid) (some cfg.policy.version) (some now) now =
          .ok d ∧ d.grantable = true)
      (rows : ∀ p : Orbit, p.state = .HELD → (p ∈ s'.orbits ↔ p ∈ s.orbits ∨ p = o))
      (named : r.orbitId = some o.orbitId)
  | queued (o : Orbit) (waits : o.state = .PENDING ∨ o.state = .DENIED)
      (reply : r.state = some (.orbit o.state)) (orbits : s'.orbits = s.orbits ++ [o])
      (fence : s'.fence = s.fence)

theorem upsertAgent_eq (id : AgentId) :
    s.upsertAgent id now = { s with agents := (s.upsertAgent id now).agents } := by
  rw [Store.upsertAgent]
  split <;> rfl

/-- A row of the same request has the intent of the claim. -/
theorem sameRequest_spec {dup : Orbit} {a : ClaimArgs} {epoch : ℕ} (intents : s.Intents)
    (mem : dup ∈ s.orbits) (kind : dup.kind = .orbit) (h : sameRequest dup a epoch = .ok true) :
    dup.intent = a.intentKey := by
  rw [sameRequest] at h
  split at h
  · cases h
  · rename_i same
    rw [not_or, not_not, not_not] at same
    rw [intents.paths dup mem kind] at h
    have h : (dup.pathspec = a.pathspec && dup.taskId = a.taskId && dup.priority = a.priority &&
      dup.requestedTtl.getD 600 = a.ttl && dup.bailEpoch = epoch && dup.reason = a.reason) = true :=
        Except.ok.inj h
    simp only [Bool.and_eq_true, decide_eq_true_eq] at h
    rw [Orbit.intent, ClaimArgs.intentKey, same.1, same.2, h.1.1.1.1.1, h.1.1.1.1.2]

/-- The reply is about a row of the intent that is there already, or refuses. -/
inductive Dedups (s : Store) (a : ClaimArgs) (r : Reply) : Prop
  | row (dup : Orbit) (mem : dup ∈ s.orbits) (kind : dup.kind = .orbit)
      (same : dup.intent = a.intentKey) (reply : r = dedupReply dup)
  | refused (state : ∀ st, r.state ≠ some (.orbit st))

/-- An answer from the last row of a request is about that row. -/
theorem claimGeneration_dedups {a : ClaimArgs} {rollover : Option ℕ} {epoch : ℕ} {r : Reply}
    (intents : s.Intents) (h : claimGeneration s a rollover epoch = .ok (.inl r)) :
    Dedups s a r := by
  unfold claimGeneration at h
  split at h
  · cases h
  · split at h <;> cases h
  · cases h
  rename_i dup latest
  rw [Outcome.bind_eq_ok] at h
  obtain ⟨same, hsame, h⟩ := h
  split at h
  · cases h
    exact .refused (by simp [Reply.refuse])
  rename_i agrees
  split at h
  · split at h
    · cases h
      exact .refused (by simp [Reply.reject])
    · cases h
  · cases h
    have row : dup ∈ s.orbits ∧ dup.kind = .orbit := by
      cases request : a.requestId with
      | none =>
          rw [request] at latest
          cases latest
      | some id =>
          rw [request] at latest
          have mem := (latestOf_spec latest).1
          simp only [Store.orbitsOfRequest, List.mem_filter, Bool.and_eq_true,
            decide_eq_true_eq] at mem
          exact ⟨mem.1, mem.2.2⟩
    have agrees : same = true := by simpa using agrees
    subst agrees
    exact .row dup row.1 row.2 (sameRequest_spec intents row.1 row.2 hsame) rfl

/-- An answer from a live row of the intent is about that row. -/
theorem claimIntent_dedups {a : ClaimArgs} {r : Reply} (intents : s.Intents)
    (h : claimIntent s a = some r) : Dedups s a r := by
  rw [claimIntent] at h
  split at h
  · cases h
  rename_i dup found
  obtain ⟨mem, key, -⟩ := orbitByIntent_spec found
  obtain ⟨kind, same⟩ := intents.of_key mem key
  split at h
  · cases h
  split at h
  · cases h
    exact .refused (by simp [Reply.refuse])
  · cases h
    exact .row dup mem kind same rfl

theorem Dedups.left {a : ClaimArgs} {r : Reply} (h : Dedups s a r) : ClaimLeft cfg now s s a r := by
  cases h with
  | row dup mem kind same reply =>
      subst reply
      exact .known dup mem kind same rfl rfl rfl rfl
  | refused state => exact .refused (state _) rfl rfl

theorem syncRead_eq {a : ClaimArgs} {gen : ℕ} :
    syncRead s a gen = { s with tasks := (syncRead s a gen).tasks } := by
  rw [syncRead]
  split
  · split
    · rfl
    · split
      · rfl
      · split <;> rfl
  · rfl

/-- Only a read syncs the reads of its task. -/
theorem syncRead_tasks {a : ClaimArgs} {gen : ℕ} (mode : a.mode ≠ .read) :
    (syncRead s a gen).tasks = s.tasks := by
  rw [syncRead]
  split
  · rename_i read _
    exact absurd read mode
  · rfl

/-- The keys of the rows are distinct, and the next one is new. -/
structure Drawn (s : Store) : Prop where
  ids : Table.Distinct Orbit.orbitId s.orbits
  fresh : ∀ o ∈ s.orbits, o.orbitId < s.uuid

theorem Store.Ok.drawn (ok : s.Ok) : Drawn s := ⟨ok.orbitIds, ok.fresh⟩

/-- The owners of the rows of a request, by generation. -/
def Store.owners (s : Store) (id : RequestId) : List (ℕ × AgentId) :=
  (s.orbitsOfRequest id).map fun o => (o.requestGeneration, o.agentId)

theorem Store.owners_of_orbits (h : s'.orbits = s.orbits) (id : RequestId) :
    s'.owners id = s.owners id := by
  rw [Store.owners, Store.owners, Store.orbitsOfRequest, Store.orbitsOfRequest, h]

theorem Denies.owners (h : Denies s s') (id : RequestId) : s'.owners id = s.owners id := by
  obtain ⟨f, rows, denied⟩ := h.rows
  have asked : ∀ o ∈ s.orbits,
      (decide ((f o).requestId = some id) && decide ((f o).kind = .orbit)) =
      (decide (o.requestId = some id) && decide (o.kind = .orbit)) := by
    intro o ho
    rw [(denied o ho).row.requestId, (denied o ho).row.kind]
  rw [Store.owners, Store.owners, Store.orbitsOfRequest, Store.orbitsOfRequest, rows,
    List.filter_map, List.map_map]
  refine (congrArg _ (List.filter_congr asked)).trans (List.map_congr_left fun o ho => ?_)
  have row := (denied o (List.mem_of_mem_filter ho)).row
  exact Prod.ext row.requestGeneration row.agentId

theorem Store.owners_append {o : Orbit} {id : RequestId} (h : s'.orbits = s.orbits ++ [o])
    (other : o.requestId ≠ some id) : s'.owners id = s.owners id := by
  rw [Store.owners, Store.owners, Store.orbitsOfRequest, Store.orbitsOfRequest, h]
  simp [other]

/-- What a claim leaves: the rows that do not wait, and what is not of its request. -/
structure Spares (mode : Mode) (request : Option RequestId) (s s' : Store) : Prop where
  rows : ∀ o ∈ s.orbits, ∃ o' ∈ s'.orbits, o.AtMostDenied o'
  tasks : mode ≠ .read → s'.tasks = s.tasks
  owners : ∀ id, request ≠ none → request ≠ some id → s'.owners id = s.owners id
  requests : ∀ row : IdemRow, request ≠ some row.requestId →
    (row ∈ s'.idempotency ↔ row ∈ s.idempotency)

namespace Spares

variable {mode : Mode} {request : Option RequestId}

theorem of_orbits (orbits : s'.orbits = s.orbits) (tasks : s'.tasks = s.tasks)
    (requests : ∀ row : IdemRow, request ≠ some row.requestId →
      (row ∈ s'.idempotency ↔ row ∈ s.idempotency)) : Spares mode request s s' where
  rows := fun o ho => ⟨o, orbits ▸ ho, .refl o⟩
  tasks := fun _ => tasks
  owners := fun id _ _ => Store.owners_of_orbits orbits id
  requests := requests

@[refl] theorem refl (s : Store) : Spares mode request s s := .of_orbits rfl rfl fun _ _ => .rfl

theorem trans {s₁ : Store} (h : Spares mode request s s₁) (h' : Spares mode request s₁ s') :
    Spares mode request s s' where
  rows := by
    intro o ho
    obtain ⟨o₁, ho₁, step⟩ := h.rows o ho
    obtain ⟨o', ho', step'⟩ := h'.rows o₁ ho₁
    exact ⟨o', ho', step.trans step'⟩
  tasks := fun mode => (h'.tasks mode).trans (h.tasks mode)
  owners := fun id asked other => (h'.owners id asked other).trans (h.owners id asked other)
  requests := fun row other => (h'.requests row other).trans (h.requests row other)

end Spares

theorem ClaimArgs.row_other {a : ClaimArgs} {k : Ticket} {id : RequestId}
    (asked : a.requestId ≠ none) (other : a.requestId ≠ some id) :
    some (a.semanticRequest k) ≠ some id := by
  rw [ClaimArgs.semanticRequest]
  cases request : a.requestId with
  | none => exact absurd request asked
  | some own => exact fun same => other (request.trans same)

theorem claimGrant_left {a : ClaimArgs} {k : Ticket} {r : Result} (drawn : Drawn s)
    (ticket : k.orbitId = s.uuid) (h : claimGrant cfg s.bumpUuid a k = .ok (s', r)) :
    ∃ o : Orbit, o.kind = .orbit ∧ o.intent = a.intentKey ∧ o.state = .HELD ∧
      r.reply.state = some (.orbit .HELD) ∧ r.reply.orbitId = some o.orbitId ∧
      (∀ p : Orbit, p.state = .HELD → (p ∈ s'.orbits ↔ p ∈ s.orbits ∨ p = o)) ∧
      Spares a.mode a.requestId s s' := by
  rw [claimGrant, Outcome.bind_eq_ok] at h
  obtain ⟨s₂, h₂, h⟩ := h
  dsimp only at h
  rw [Outcome.bind_eq_ok] at h
  obtain ⟨s₃, h₃, h⟩ := h
  cases h
  rw [grantRow, Outcome.bind_eq_ok] at h₂
  obtain ⟨s₄, h₄, h₂⟩ := h₂
  cases h₂
  have store := (assertAdmissionProjection_spec h₄).store
  subst store
  have ids : Table.Distinct Orbit.orbitId (s.orbits ++
      [a.heldRow cfg k (s.bumpUuid.bumpSeq.bumpFence).fence s.integrationGen]) :=
    drawn.ids.append fun p hp => by
      change p.orbitId ≠ k.orbitId
      rw [ticket]
      exact (drawn.fresh p hp).ne
  have denies := denyCyclesLoop_same ids h₃
  refine ⟨a.heldRow cfg k (s.bumpUuid.bumpSeq.bumpFence).fence s.integrationGen, rfl, rfl, rfl, rfl,
    rfl, fun p held => ?_, fun p hp => ?_, fun mode => ?_, fun id asked other => ?_, ?_⟩
  · rw [syncRead_eq]
    refine (denies.held p held).trans ?_
    exact List.mem_append.trans (or_congr_right List.mem_singleton)
  · rw [syncRead_eq]
    obtain ⟨f, rows, denied⟩ := denies.rows
    have mem := List.mem_append_left [a.heldRow cfg k (s.bumpUuid.bumpSeq.bumpFence).fence
      s.integrationGen] hp
    exact ⟨f p, rows ▸ List.mem_map_of_mem mem, denied p mem⟩
  · rw [syncRead_tasks mode]
    exact denies.tasks
  · rw [syncRead_eq]
    exact (denies.owners id).trans (Store.owners_append rfl (a.row_other asked other))
  · rw [syncRead_eq]
    intro row _
    exact iff_of_eq (congrArg (row ∈ ·) denies.idempotency)

/-- A row that a claim adds is of its request. -/
theorem spares_append {a : ClaimArgs} {k : Ticket} {o : Orbit}
    (orbits : s'.orbits = s.orbits ++ [o])
    (request : o.requestId = some (a.semanticRequest k)) (tasks : s'.tasks = s.tasks)
    (idempotency : s'.idempotency = s.idempotency) : Spares a.mode a.requestId s s' where
  rows := fun p hp => ⟨p, orbits ▸ List.mem_append_left _ hp, .refl p⟩
  tasks := fun _ => tasks
  owners := fun _ asked other => Store.owners_append orbits (request ▸ a.row_other asked other)
  requests := fun row _ => iff_of_eq (congrArg (row ∈ ·) idempotency)

/-- A claim that queues leaves one row more, which waits or was denied. -/
theorem claimQueue_left {a : ClaimArgs} {k : Ticket} {d : AdmissionDecision} {r : Result}
    (drawn : Drawn s) (ticket : k.orbitId = s.uuid)
    (h : claimQueue cfg s.bumpUuid a k d = .ok (s', r)) :
    ∃ o : Orbit, (o.state = .PENDING ∨ o.state = .DENIED) ∧
      r.reply.state = some (.orbit o.state) ∧ s'.orbits = s.orbits ++ [o] ∧
      s'.fence = s.fence ∧ Spares a.mode a.requestId s s' := by
  rw [claimQueue, Outcome.bind_eq_ok] at h
  obtain ⟨s₂, h₂, h⟩ := h
  rw [Outcome.bind_eq_ok] at h
  obtain ⟨cycle, -, h⟩ := h
  rw [queueRow, Outcome.bind_eq_ok] at h₂
  obtain ⟨s₃, h₃, h₂⟩ := h₂
  cases h₂
  have store := (assertAdmissionProjection_spec h₃).store
  subst store
  split at h
  · rw [Outcome.bind_eq_ok] at h
    obtain ⟨s₄, h₄, h⟩ := h
    cases h
    rw [denyQueued, Outcome.bind_eq_ok] at h₄
    obtain ⟨s₅, h₅, h₄⟩ := h₄
    rw [Outcome.bind_eq_ok] at h₄
    obtain ⟨state, denied, h₄⟩ := h₄
    cases h₄
    cases denied
    have store := (assertAdmissionProjection_spec h₅).store
    subst store
    -- the row that is denied is the one that was added
    have rows : Table.modify Orbit.orbitId k.orbitId (fun r => { r with
        state := .DENIED
        decisionType := some .PROMOTION_DENIED
        terminalReason := some .reservation_cycle }) (s.orbits ++ [a.pendingRow cfg k d]) =
        s.orbits ++ [{ a.pendingRow cfg k d with
          state := .DENIED
          decisionType := some .PROMOTION_DENIED
          terminalReason := some .reservation_cycle }] := by
      rw [Table.modify, List.map_append]
      refine congrArg₂ (· ++ ·)
        ((List.map_congr_left fun p hp => if_neg ?_).trans (List.map_id _)) ?_
      · rw [ticket]
        exact (drawn.fresh p hp).ne
      · exact congrArg (fun o => [o]) (if_pos rfl)
    exact ⟨_, Or.inr rfl, rfl, rows, rfl, spares_append rows rfl rfl rfl⟩
  · cases h
    exact ⟨a.pendingRow cfg k d, Or.inl rfl, rfl, rfl, rfl, spares_append rfl rfl rfl rfl⟩

/-- The decision adds at most the row of the claim. -/
theorem claimDecide_left {a : ClaimArgs} {generation epoch : ℕ} {r : Result} (drawn : Drawn s)
    (free : ∀ p, s.orbitByIntent a.intentKey = some p → p.agentId ≠ a.agentId)
    (h : claimDecide cfg s a generation epoch false now = .ok (s', r)) :
    ClaimLeft cfg now s s' a r.reply ∧ Spares a.mode a.requestId s s' := by
  rw [claimDecide, Outcome.bind_eq_ok] at h
  obtain ⟨d, hd, h⟩ := h
  split at h
  · rename_i grantable
    obtain ⟨o, kind, same, held, reply, named, rows, spares⟩ := claimGrant_left drawn rfl h
    refine ⟨?_, spares⟩
    exact .granted o kind same held reply free ⟨s.bumpUuid, d, rfl, hd, grantable⟩ rows named
  · split at h
    · rw [claimOverload, Outcome.bind_eq_ok] at h
      obtain ⟨s₁, h₁, h⟩ := h
      cases h
      have store := (assertAdmissionProjection_spec h₁).store
      subst store
      exact ⟨.refused (by simp [Reply.reject]) rfl rfl, .of_orbits rfl rfl fun _ _ => .rfl⟩
    · obtain ⟨o, waits, reply, orbits, fence, spares⟩ := claimQueue_left drawn rfl h
      exact ⟨.queued o waits reply orbits fence, spares⟩

/-- The rows and the counters are the same. -/
structure Beside (s s₁ : Store) : Prop where
  orbits : s₁.orbits = s.orbits
  fence : s₁.fence = s.fence
  seq : s₁.seq = s.seq
  uuid : s₁.uuid = s.uuid

theorem Beside.drawn {s₁ : Store} (h : Beside s s₁) (drawn : Drawn s) : Drawn s₁ := by
  refine ⟨?_, fun o ho => ?_⟩
  · rw [h.orbits]
    exact drawn.ids
  · rw [h.uuid]
    exact drawn.fresh o (h.orbits ▸ ho)

theorem Beside.intents {s₁ : Store} (h : Beside s s₁) (intents : s.Intents) : s₁.Intents := by
  refine ⟨?_, ?_, ?_, ?_, ?_⟩ <;> rw [h.orbits]
  · exact intents.intent
  · exact intents.paths
  · exact intents.other
  · exact intents.single
  · rw [h.seq]
    exact intents.ticket

theorem Beside.left {s₁ : Store} {a : ClaimArgs} {r : Reply} (h : Beside s s₁)
    (left : ClaimLeft cfg now s₁ s' a r) : ClaimLeft cfg now s s' a r := by
  cases left with
  | known dup mem kind same reply orbits fence named =>
      exact .known dup (h.orbits ▸ mem) kind same reply (orbits.trans h.orbits)
        (fence.trans h.fence) named
  | refused reply orbits fence =>
      exact .refused reply (orbits.trans h.orbits) (fence.trans h.fence)
  | granted o kind same held reply free decided rows named =>
      rw [h.orbits] at rows
      rw [Store.orbitByIntent, h.orbits] at free
      rw [h.orbits, h.seq, h.uuid] at decided
      exact .granted o kind same held reply free decided rows named
  | queued o waits reply orbits fence =>
      exact .queued o waits reply (orbits.trans (by rw [h.orbits])) (fence.trans h.fence)

theorem ClaimLeft.exit {a : ClaimArgs} {r : Reply} (left : ClaimLeft cfg now s s' a r)
    (idempotency : List IdemRow) :
    ClaimLeft cfg now s { s' with idempotency := idempotency } a r := by
  cases left with
  | known dup mem kind same reply orbits fence named =>
      exact .known dup mem kind same reply orbits fence named
  | refused reply orbits fence => exact .refused reply orbits fence
  | granted o kind same held reply free decided rows named =>
      exact .granted o kind same held reply free decided rows named
  | queued o waits reply orbits fence => exact .queued o waits reply orbits fence

/-- After its sweep a claim adds at most its own row. -/
theorem claimSwept_left {a : ClaimArgs} {r : Result} (drawn : Drawn s) (intents : s.Intents)
    (h : claimSwept cfg s a none now = .ok (s', r)) :
    ClaimLeft cfg now s s' a r.reply ∧ Spares a.mode a.requestId s s' := by
  rw [claimSwept] at h
  split at h
  · rename_i dead hdead
    cases h
    refine ⟨.refused ?_ rfl rfl, .refl s⟩
    rw [Result.set, state_of_dead hdead]
    simp
  have beside : Beside s (s.upsertAgent a.agentId now) := by
    rw [upsertAgent_eq]
    exact ⟨rfl, rfl, rfl, rfl⟩
  have spares : Spares a.mode a.requestId s (s.upsertAgent a.agentId now) := by
    rw [upsertAgent_eq]
    exact .of_orbits rfl rfl fun _ _ => .rfl
  dsimp only at h
  rw [Outcome.bind_eq_ok] at h
  obtain ⟨gen, hgen, h⟩ := h
  cases gen with
  | inl reply =>
      cases h
      exact ⟨beside.left (claimGeneration_dedups (beside.intents intents) hgen).left, spares⟩
  | inr generation =>
      dsimp only at h
      split at h
      · rename_i reply hreply
        cases h
        exact ⟨beside.left (claimIntent_dedups (beside.intents intents) hreply).left, spares⟩
      · rename_i unclaimed
        split at h
        · cases h
          exact ⟨beside.left (.refused (by simp [Reply.reject, Result.set]) rfl rfl), spares⟩
        · obtain ⟨left, rest⟩ := claimDecide_left (beside.drawn drawn)
            (claimIntent_eq_none unclaimed) h
          exact ⟨beside.left left, spares.trans rest⟩

/-! ## The requests of the claims -/

/-- The requests but one are the same. -/
def RequestsBut (id : RequestId) (s s' : Store) : Prop :=
  ∀ r : IdemRow, r.requestId ≠ id → (r ∈ s'.idempotency ↔ r ∈ s.idempotency)

section Requests

variable {id : RequestId} {agent : Option AgentId} {args : IdemArgs}

theorem updateIdem_but {p : IdemRow → Bool} {f : IdemRow → IdemRow}
    (only : ∀ r, p r = true → r.requestId = id ∧ (f r).requestId = id)
    (h : s.updateIdem p f = some s') : RequestsBut id s s' := by
  rw [Store.updateIdem] at h
  split at h
  · cases h
    intro r other
    rw [List.mem_map]
    constructor
    · rintro ⟨r₀, hr₀, rfl⟩
      by_cases hp : p r₀ = true
      · rw [if_pos hp] at other
        exact absurd (only r₀ hp).2 other
      · rw [if_neg hp]
        exact hr₀
    · intro hr
      refine ⟨r, hr, if_neg fun hp => ?_⟩
      exact other (only r hp).1
  · cases h

/-- A request that is let through writes its own row of the requests. -/
theorem enterIdem_eq (h : enterIdem s id agent args = .ok (.inr s')) :
    s' = { s with idempotency := s'.idempotency } ∧ RequestsBut id s s' := by
  rw [enterIdem] at h
  split at h
  · cases h
  split at h
  · rename_i new
    cases h
    rw [Store.beginIdem, new]
    refine ⟨rfl, fun r other => ?_⟩
    dsimp only
    rw [List.mem_append, List.mem_singleton]
    refine or_iff_left fun same => other ?_
    rw [same]
  split at h
  · cases h
  split at h
  · cases h
  · split at h
    · cases h
    · rename_i reopened
      cases h
      refine ⟨?_, updateIdem_but (fun r hr => ?_) reopened⟩
      · rw [Store.reopenIdemExact, Store.updateIdem] at reopened
        split at reopened
        · cases reopened
          rfl
        · cases reopened
      · have same := (idemExact_iff.mp hr).1
        exact ⟨same, same⟩
  · cases h

/-- The answer writes the row of its request only. -/
theorem exitIdem_but {result : Result} (h : exitIdem now s id agent args result = .ok s') :
    RequestsBut id s s' := by
  rw [exitIdem] at h
  split at h
  · cases h
    exact fun _ _ => Iff.rfl
  split at h
  · split at h
    · cases h
    · rename_i finished
      cases h
      refine updateIdem_but (fun r hr => ?_) finished
      have same := (idemExact_iff.mp hr).1
      exact ⟨same, same⟩
  · cases h
    intro r other
    rw [Store.clearIdemExact, Store.deleteIdem, List.mem_filter]
    refine and_iff_left_of_imp fun _ => ?_
    cases hit : Store.idemExact id agent args .INFLIGHT r with
    | false => rfl
    | true => exact absurd (idemExact_iff.mp hit).1 other

end Requests

theorem ClaimArgs.validate_eq {a c : ClaimArgs} (h : a.validate cfg = .ok c) :
    ∃ paths, normalizePathspec a.pathspec = .ok paths ∧ c = { a with pathspec := paths } := by
  rw [ClaimArgs.validate] at h
  split at h
  · cases h
  split at h
  · cases h
  split at h
  · cases h
  rename_i paths normal
  split at h
  · cases h
  split at h
  · cases h
  · cases h
    exact ⟨paths, normal, rfl⟩

/-- The request of a claim was answered, by this reply. -/
structure Answered (s : Store) (c : ClaimArgs) (id : RequestId) (reply : Reply) : Prop where
  request : c.requestId = some id
  row : ∃ prior, s.getIdem id = some prior ∧ prior.status = .DONE ∧
    prior.agentId = some c.agentId ∧ prior.argHash = c.idemArgs ∧ prior.response.getD {} = reply

/-- A claim that does not validate is rejected. -/
theorem ClaimArgs.validate_refused {a : ClaimArgs} {reply : Reply}
    (h : a.validate cfg = .error reply) : reply.state = some .REJECTED := by
  rw [ClaimArgs.validate] at h
  split at h
  · cases h
    rfl
  split at h
  · cases h
    rfl
  split at h
  · cases h
    rfl
  split at h
  · cases h
    rfl
  split at h
  · cases h
    rfl
  · cases h

theorem replayTerminalClaimOverload_state {c : ClaimArgs} {reply : Reply}
    (h : replayTerminalClaimOverload s c = some reply) : reply.state = some .REJECTED := by
  rw [replayTerminalClaimOverload] at h
  split at h
  · cases h
  split at h
  · cases h
  split at h
  · cases h
  · split at h
    · rename_i full
      cases h
      exact full.1
    · cases h

theorem taskGate_state {task : Option TaskId} {reply : Reply} (h : taskGate s task = some reply) :
    reply.state = some .REJECTED := by
  unfold taskGate at h
  split at h
  · cases h
  split at h
  · cases h
    rfl
  · split at h
    · cases h
    · cases h
      rfl

/-- A claim for a task that may not be admitted is rejected. -/
theorem claim_ineligible {a : ClaimArgs} {id : TaskId} {t : Task} {observed : Option Time}
    {r : Reply} (row : s.getTask id = some t) (refused : t.state.admission = false)
    (task : a.taskId = some id) (h : claim cfg now s a observed = .ok (s', r)) :
    s' = s ∧ r.state = some .REJECTED := by
  rw [claim] at h
  split at h
  · cases h
  split at h
  · rename_i reply invalid
    cases h
    exact ⟨rfl, ClaimArgs.validate_refused invalid⟩
  rename_i c valid
  obtain ⟨paths, -, rfl⟩ := ClaimArgs.validate_eq valid
  rw [claimSection] at h
  split at h
  · rename_i reply full
    cases h
    exact ⟨rfl, replayTerminalClaimOverload_state full⟩
  · have gate : taskGate s a.taskId = some (.reject "task_not_admission_eligible") := by
      rw [task]
      simp [taskGate, row, refused]
    dsimp only at h
    rw [gate] at h
    cases h
    exact ⟨rfl, rfl⟩

/-- A request that is not new is answered again, or refused. -/
theorem enterIdem_answers {c : ClaimArgs} {id : RequestId} {reply : Reply}
    (request : c.requestId = some id)
    (h : enterIdem s id (some c.agentId) c.idemArgs = .ok (.inl reply)) :
    reply.state = none ∨ ∃ answer, Answered s c id answer ∧ reply.state = answer.state ∧
      reply.orbitId = answer.orbitId := by
  rw [enterIdem] at h
  split at h
  · cases h
    exact Or.inl rfl
  split at h
  · cases h
  rename_i prior found
  split at h
  · cases h
    exact Or.inl rfl
  rename_i same
  rw [not_or, not_not, not_not] at same
  split at h
  · rename_i done
    cases h
    exact Or.inr ⟨_, ⟨request, prior, found, done, same.1, same.2, rfl⟩, rfl, rfl⟩
  · split at h <;> cases h
  · cases h
    exact Or.inl rfl

/-- What a claim of a batch does, and that it touches its own request only. -/
theorem claimSection_left {c : ClaimArgs} {r : Reply} (drawn : Drawn s) (intents : s.Intents)
    (h : claimSection cfg now s c (some now) none = .ok (s', r)) :
    ((s' = s ∧ ∃ id reply, Answered s c id reply ∧ r.state = reply.state ∧
        r.orbitId = reply.orbitId) ∨
      ClaimLeft cfg now s s' c r) ∧ Spares c.mode c.requestId s s' := by
  rw [claimSection] at h
  split at h
  · rename_i reply full
    cases h
    refine ⟨Or.inr (.refused ?_ rfl rfl), .refl s⟩
    rw [replayTerminalClaimOverload_state full]
    decide
  split at h
  · rename_i reply refused
    cases h
    refine ⟨Or.inr (.refused ?_ rfl rfl), .refl s⟩
    rw [taskGate_state refused]
    decide
  rw [Outcome.bind_eq_ok] at h
  obtain ⟨⟨s₁, r₁⟩, h₁, h⟩ := h
  cases h
  unfold withIdem at h₁
  split at h₁
  · obtain ⟨left, spares⟩ := claimSwept_left drawn intents h₁
    exact ⟨Or.inr left, spares⟩
  rename_i id request
  rw [Outcome.bind_eq_ok] at h₁
  obtain ⟨hit, entered, h₁⟩ := h₁
  cases hit with
  | inl reply =>
      cases h₁
      refine ⟨?_, .refl s⟩
      rcases enterIdem_answers request entered with none | ⟨answer, answered, same⟩
      · refine Or.inr (.refused ?_ rfl rfl)
        rw [Result.set, none]
        simp
      · exact Or.inl ⟨rfl, id, answer, answered, same⟩
  | inr s₂ =>
      dsimp only at h₁
      rw [Outcome.bind_eq_ok] at h₁
      obtain ⟨⟨s₃, r₃⟩, h₃, h₁⟩ := h₁
      rw [Outcome.bind_eq_ok] at h₁
      obtain ⟨s₄, h₄, h₁⟩ := h₁
      cases h₁
      obtain ⟨eq, but⟩ := enterIdem_eq entered
      have beside : Beside s s₂ := by
        rw [eq]
        exact ⟨rfl, rfl, rfl, rfl⟩
      obtain ⟨left, body⟩ := claimSwept_left (beside.drawn drawn) (beside.intents intents) h₃
      have exited := exitIdem_eq h₄
      have apart {row : IdemRow} (other : c.requestId ≠ some row.requestId) : row.requestId ≠ id :=
        fun same => other (by rw [request, same])
      have enters : Spares c.mode c.requestId s s₂ := by
        refine .of_orbits beside.orbits ?_ fun row other => but row (apart other)
        rw [eq]
      refine ⟨Or.inr ?_, (enters.trans body).trans (.of_orbits ?_ ?_ fun row other =>
        exitIdem_but h₄ row (apart other))⟩
      · rw [exited]
        exact (beside.left left).exit _
      · rw [exited]
      · rw [exited]

/-! ## The members -/

namespace BeginArgs

variable (b : BeginArgs)

/-- A row of a member: of the agent, the task, the mode and the paths. -/
structure Member (spec : Spec) (o : Orbit) : Prop where
  kind : o.kind = .orbit
  agent : o.agentId = b.agentId
  task : o.taskId = some b.taskId
  mode : o.mode = spec.mode
  paths : ∀ p, p ∈ o.pathspec ↔ p ∈ spec.paths

/-- The agent holds the member for the task. -/
def Holds (s : Store) (spec : Spec) : Prop := ∃ o ∈ s.orbits, b.Member spec o ∧ o.state = .HELD

/-- The member waits. -/
def Waits (s : Store) (spec : Spec) : Prop :=
  ∃ o ∈ s.orbits, b.Member spec o ∧ o.state = .PENDING

/-- The request of the member was answered that it is held. -/
def AnsweredHeld (cfg : Cfg) (s : Store) (spec : Spec) : Prop :=
  ∃ c id reply, (b.claimArgs spec).validate cfg = .ok c ∧ Answered s c id reply ∧
    reply.state = some (.orbit .HELD)

end BeginArgs

variable {b : BeginArgs} {spec : Spec} {o p : Orbit}

theorem member_of_claim {c : ClaimArgs} (valid : (b.claimArgs spec).validate cfg = .ok c)
    (kind : o.kind = .orbit) (same : o.intent = c.intentKey) : b.Member spec o := by
  obtain ⟨paths, normal, rfl⟩ := ClaimArgs.validate_eq valid
  have eq := IntentKey.mk.inj same
  refine ⟨kind, eq.1, eq.2.2.2, eq.2.2.1, fun p => ?_⟩
  rw [show o.pathspec = paths from eq.2.1]
  exact normalizePathspec_mem normal p

/-- The row that begin finds for a member has its intent. -/
theorem member_of_ownIntent (intents : s.Intents) (h : b.ownIntent s spec = some o) :
    o ∈ s.orbits ∧ b.Member spec o := by
  rw [BeginArgs.ownIntent, Option.filter_eq_some_iff] at h
  obtain ⟨mem, key, -⟩ := orbitByIntent_spec h.1
  obtain ⟨kind, same⟩ := intents.of_key mem key
  have eq := IntentKey.mk.inj same
  refine ⟨mem, kind, eq.1, eq.2.2.2, eq.2.2.1, fun p => ?_⟩
  rw [show o.pathspec = spec.paths.insertionSort (· ≤ ·) from eq.2.1]
  exact List.mem_insertionSort _

/-- One row of a member lives. -/
theorem BeginArgs.Member.eq (intents : s.Intents) (ho : o ∈ s.orbits) (hp : p ∈ s.orbits)
    (member : b.Member spec o) (member' : b.Member spec p) (live : o.live = true)
    (live' : p.live = true) : o = p := by
  have paths : o.pathspec = p.pathspec := by
    obtain ⟨sorted, nodup⟩ := normalizePathspec_sorted (intents.paths o ho member.kind)
    obtain ⟨sorted', nodup'⟩ := normalizePathspec_sorted (intents.paths p hp member'.kind)
    have perm : o.pathspec.Perm p.pathspec := (List.perm_ext_iff_of_nodup nodup nodup').mpr
      fun q => (member.paths q).trans (member'.paths q).symm
    exact perm.eq_of_pairwise (fun q r _ _ => le_antisymm) sorted sorted'
  refine intents.single o ho p hp member.kind member'.kind live live' ?_
  rw [Orbit.intent, Orbit.intent, member.agent, member'.agent, member.task, member'.task,
    member.mode, member'.mode, paths]

/-- A member that is held is not waited for. -/
theorem not_waits_of_holds (intents : s.Intents) (holds : b.Holds s spec) : ¬ b.Waits s spec := by
  obtain ⟨o, ho, member, held⟩ := holds
  rintro ⟨p, hp, member', waits⟩
  have same := member.eq intents ho hp member' (by rw [Orbit.live, held]; rfl)
    (by rw [Orbit.live, waits]; rfl)
  rw [same, waits] at held
  cases held

/-! ## The batch -/

/-- The claim of a member that the preflight found blocked adds no held row. -/
theorem claim_of_blocked {raw : ℤ} {d : AdmissionDecision} {r : Reply} (ok : s.Ok)
    (intents : s.Intents) (next : s.seq < raw)
    (decision : admissionDecision cfg s spec.paths spec.mode b.priority (some raw) none
      (some cfg.policy.version) (some now) now = .ok d) (blocked : d.grantable = false)
    (h : claim cfg now s (b.claimArgs spec) (some now) = .ok (s', r)) :
    s.SameHeld s' ∧ s'.fence = s.fence ∧ (s'.orbits = s.orbits ∨
      ∃ o, (o.state = .PENDING ∨ o.state = .DENIED) ∧ s'.orbits = s.orbits ++ [o]) := by
  have same (h : s'.orbits = s.orbits) (fence : s'.fence = s.fence) :
      s.SameHeld s' ∧ s'.fence = s.fence ∧ (s'.orbits = s.orbits ∨
        ∃ o, (o.state = .PENDING ∨ o.state = .DENIED) ∧ s'.orbits = s.orbits ++ [o]) :=
    ⟨.of_orbits h, fence, Or.inl h⟩
  rw [claim] at h
  split at h
  · cases h
  split at h
  · cases h
    exact same rfl rfl
  rename_i c valid
  rcases (claimSection_left ok.drawn intents h).1 with ⟨rfl, _⟩ | left
  · exact same rfl rfl
  cases left with
  | known _ _ _ _ _ orbits fence => exact same orbits fence
  | refused _ orbits fence => exact same orbits fence
  | granted o kind intent held reply free decided rows =>
      obtain ⟨paths, normal, rfl⟩ := ClaimArgs.validate_eq valid
      obtain ⟨s₁, d', orbits, decision', grantable⟩ := decided
      have agrees := grantable_congr orbits intents normal (fun o ho => (ok.fresh o ho).ne) next
        (Int.lt_succ s.seq) decision decision'
      rw [grantable, blocked] at agrees
      cases agrees
  | queued o waits reply orbits fence =>
      refine ⟨fun p held => ?_, fence, Or.inr ⟨o, waits, orbits⟩⟩
      rw [orbits, List.mem_append, List.mem_singleton]
      refine or_iff_left fun eq => ?_
      rw [eq] at held
      rw [held] at waits
      rcases waits with waits | waits <;> cases waits

theorem beginPreflight_stops {specs : List Spec} {offset : ℤ} {claims : List Acquired} {r : Reply}
    (ok : s.Ok) (intents : s.Intents) (next : 0 < offset)
    (h : beginPreflight cfg now s b specs offset claims = .ok (.inl (s', r))) :
    r.ok = some false ∧ s.SameHeld s' ∧ s'.fence = s.fence ∧ (s'.orbits = s.orbits ∨
      ∃ o, (o.state = .PENDING ∨ o.state = .DENIED) ∧ s'.orbits = s.orbits ++ [o]) := by
  induction specs generalizing offset claims with
  | nil => cases h
  | cons spec specs ih =>
      rw [beginPreflight] at h
      split at h
      · split at h
        · cases h
          exact ⟨rfl, .of_orbits rfl, rfl, Or.inl rfl⟩
        · exact ih (by omega) h
      · rw [Outcome.bind_eq_ok] at h
        obtain ⟨d, decision, h⟩ := h
        split at h
        · exact ih (by omega) h
        · rename_i blocked
          rw [Outcome.bind_eq_ok] at h
          obtain ⟨⟨s₁, r₁⟩, h₁, h⟩ := h
          cases h
          exact ⟨rfl, claim_of_blocked ok intents (by omega) decision (by simpa using blocked) h₁⟩

/-- A preflight that passes finds the members that the agent has already held. -/
theorem beginPreflight_passes {specs : List Spec} {offset : ℤ} {claims held : List Acquired}
    (h : beginPreflight cfg now s b specs offset claims = .ok (.inr held)) :
    (∀ spec ∈ specs, ∀ dup, b.ownIntent s spec = some dup → dup.state = .HELD) ∧
      ∀ mode, (held.any fun c => c.mode = mode) = true ↔
        (claims.any fun c => c.mode = mode) = true ∨
          ∃ spec ∈ specs, spec.mode = mode ∧ b.ownIntent s spec ≠ none := by
  induction specs generalizing offset claims with
  | nil =>
      cases h
      simp
  | cons spec specs ih =>
      rw [beginPreflight] at h
      split at h
      · rename_i dup own
        split at h
        · cases h
        · rename_i holds
          rw [not_not] at holds
          obtain ⟨all, modes⟩ := ih h
          constructor
          · intro spec' hspec' dup' own'
            rcases List.mem_cons.mp hspec' with rfl | hspec'
            · rw [own] at own'
              cases own'
              exact holds
            · exact all spec' hspec' dup' own'
          · intro mode
            rw [modes mode, List.any_append]
            simp [own, or_assoc]
      · rename_i own
        rw [Outcome.bind_eq_ok] at h
        obtain ⟨d, -, h⟩ := h
        split at h
        · obtain ⟨all, modes⟩ := ih h
          constructor
          · intro spec' hspec' dup' own'
            rcases List.mem_cons.mp hspec' with rfl | hspec'
            · rw [own] at own'
              cases own'
            · exact all spec' hspec' dup' own'
          · intro mode
            rw [modes mode]
            simp [own]
        · rw [Outcome.bind_eq_ok] at h
          obtain ⟨_, _, h⟩ := h
          cases h

/-- A request that was answered changes nothing. -/
theorem claimSection_answered {c : ClaimArgs} {id : RequestId} {reply r : Reply}
    (answered : Answered s c id reply)
    (h : claimSection cfg now s c (some now) none = .ok (s', r)) : s' = s := by
  rw [claimSection] at h
  split at h
  · cases h
    rfl
  split at h
  · cases h
    rfl
  rw [Outcome.bind_eq_ok] at h
  obtain ⟨⟨s₁, r₁⟩, h₁, h⟩ := h
  cases h
  refine withIdem_replayed (fun new => ?_) h₁
  obtain ⟨s₂, entered⟩ := new id answered.request
  obtain ⟨prior, found, done, agent, args, -⟩ := answered.row
  rw [enterIdem] at entered
  split at entered
  · cases entered
  rw [found] at entered
  dsimp only at entered
  rw [if_neg (by rw [agent, args]; simp), done] at entered
  cases entered

/-- What a claim of a batch does that is answered as held. -/
structure ClaimHeld (cfg : Cfg) (b : BeginArgs) (spec : Spec) (s s' : Store) : Prop where
  forth : ∀ o ∈ s.orbits, o.state = .HELD → o ∈ s'.orbits
  back : ∀ o ∈ s'.orbits, o.state = .HELD → o ∈ s.orbits ∨
    b.Member spec o ∧ ¬ b.AnsweredHeld cfg s spec
  held : b.AnsweredHeld cfg s spec ∨ b.Holds s' spec
  spares : Spares spec.mode (b.rid spec.suffix) s s'

/-- A claim that answers a held orbit holds one of its intent. -/
theorem claim_held {r : Reply} (ok : s.Ok) (intents : s.Intents)
    (h : claim cfg now s (b.claimArgs spec) (some now) = .ok (s', r))
    (positive : r.state = some (.orbit .HELD)) : ClaimHeld cfg b spec s s' := by
  rw [claim] at h
  split at h
  · cases h
  split at h
  · rename_i reply invalid
    cases h
    rw [ClaimArgs.validate_refused invalid] at positive
    cases positive
  rename_i c valid
  obtain ⟨left, spares⟩ := claimSection_left ok.drawn intents h
  have request : c.requestId = b.rid spec.suffix := ClaimArgs.validate_request valid
  have mode : c.mode = spec.mode := by
    obtain ⟨paths, -, rfl⟩ := ClaimArgs.validate_eq valid
    rfl
  rw [request, mode] at spares
  rcases left with ⟨same, id, reply, answered, state, -⟩ | left
  · subst same
    refine ⟨fun _ ho _ => ho, fun _ ho _ => Or.inl ho, Or.inl ?_, spares⟩
    exact ⟨c, id, reply, valid, answered, state.symm.trans positive⟩
  cases left with
  | known dup mem kind intent reply orbits fence =>
      have held : dup.state = .HELD := by
        rw [positive, Option.some.injEq, ReplyState.orbit.injEq] at reply
        exact reply.symm
      refine ⟨fun o ho _ => orbits ▸ ho, fun o ho _ => Or.inl (orbits ▸ ho), Or.inr ?_, spares⟩
      exact ⟨dup, orbits ▸ mem, member_of_claim valid kind intent, held⟩
  | refused reply => exact absurd positive reply
  | granted o kind intent held reply free decided rows =>
      have member := member_of_claim valid kind intent
      refine ⟨fun p hp state => (rows p state).mpr (Or.inl hp), fun p hp state => ?_,
        Or.inr ⟨o, (rows o held).mpr (Or.inr rfl), member, held⟩, spares⟩
      rcases (rows p state).mp hp with hp | rfl
      · exact Or.inl hp
      · by_cases old : p ∈ s.orbits
        · exact Or.inl old
        · refine Or.inr ⟨member, ?_⟩
          rintro ⟨c', id, answer, valid', answered, -⟩
          cases valid.symm.trans valid'
          exact old (claimSection_answered answered h ▸ hp)
  | queued o waits reply orbits fence =>
      rw [positive, Option.some.injEq, ReplyState.orbit.injEq] at reply
      rw [← reply] at waits
      rcases waits with waits | waits <;> cases waits

theorem AnsweredHeld_congr (ok : s.Ok) (ok' : s'.Ok)
    (requests : ∀ row : IdemRow, b.rid spec.suffix = some row.requestId →
      (row ∈ s'.idempotency ↔ row ∈ s.idempotency)) :
    b.AnsweredHeld cfg s' spec ↔ b.AnsweredHeld cfg s spec := by
  have rows {c : ClaimArgs} {id : RequestId} {reply : Reply}
      (valid : (b.claimArgs spec).validate cfg = .ok c) :
      Answered s' c id reply ↔ Answered s c id reply := by
    have request : c.requestId = b.rid spec.suffix := ClaimArgs.validate_request valid
    have found (asked : c.requestId = some id) (prior : IdemRow) :
        s'.getIdem id = some prior ↔ s.getIdem id = some prior := by
      rw [ok'.getIdem, ok.getIdem]
      refine and_congr_left fun same => requests prior ?_
      rw [same, ← request, asked]
    constructor
    · rintro ⟨asked, prior, row, rest⟩
      exact ⟨asked, prior, (found asked prior).mp row, rest⟩
    · rintro ⟨asked, prior, row, rest⟩
      exact ⟨asked, prior, (found asked prior).mpr row, rest⟩
  constructor
  · rintro ⟨c, id, reply, valid, answered, state⟩
    exact ⟨c, id, reply, valid, (rows valid).mp answered, state⟩
  · rintro ⟨c, id, reply, valid, answered, state⟩
    exact ⟨c, id, reply, valid, (rows valid).mpr answered, state⟩

end Omd
