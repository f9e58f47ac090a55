import Omd.Batches

/-!
# One holder, in turn

A request is granted when no row that is held conflicts with it, and none that is queued conflicts
with it and goes first.  The decision is made over the store it is written to, whether the request
is new, a member of a batch or queued before.

Held rows keep their modes and paths, so that no two of them conflict in any store that is reached,
and no path is covered by both.  A queued row keeps its ticket and its clock, so that one that stays
queued through a step does not go before a row that the step grants.
-/

namespace Omd

open Lib

variable {cfg : Cfg} {now : Time} {s s' : Store} {c : Scope} {E : TaskId → Prop} {o o' : Orbit}

/-! ## The decision -/

/-- Two rows conflict. -/
def Orbit.clashes (o p : Orbit) : Bool := conflicting o.mode o.pathspec p.mode p.pathspec

/-- A queued row does not go before this rank: its own is known, and not smaller. -/
def Orbit.Yields (cfg : Cfg) (observedAt : Time) (p : Orbit) (rank : Rank) : Prop :=
  p.queueSeq ≠ none ∧ p.policyVersion ≠ none ∧
    ∃ r, p.rank cfg observedAt = some r ∧ ¬ r < rank

/-- No queued row that conflicts goes before this rank. -/
def Store.Unovertaken (cfg : Cfg) (observedAt : Time) (s : Store) (id : OrbitId) (mode : Mode)
    (paths : List String) (rank : Rank) : Prop :=
  ∀ p ∈ s.orbits, p.isPending = true → p.orbitId ≠ id →
    conflicting mode paths p.mode p.pathspec = true → p.Yields cfg observedAt rank

/-- Nothing stands against a request of this rank. -/
structure Store.Clear (cfg : Cfg) (observedAt : Time) (s : Store) (id : OrbitId) (mode : Mode)
    (paths : List String) (rank : Rank) : Prop where
  held : ∀ r ∈ s.orbits, r.isHeld = true → r.orbitId ≠ id →
    conflicting mode paths r.mode r.pathspec = false
  queue : s.Unovertaken cfg observedAt id mode paths rank

theorem setsOverlap_normal {raw paths ps : List String} (h : normalizePathspec raw = .ok paths) :
    setsOverlap paths ps = setsOverlap raw ps := by
  rw [Bool.eq_iff_iff, setsOverlap, setsOverlap, List.any_eq_true, List.any_eq_true]
  simp only [normalizePathspec_mem h]

/-- A row without a version is ranked by the policy in force. -/
theorem rankKey_getD (policy : QueuePolicy) (base : ℤ) (seq : Option ℤ)
    (version : Option PolicyVersion) (enqueuedAt : Option Time) (observedAt : Time) (allow : Bool) :
    policy.rankKey base seq (some (version.getD policy.version)) enqueuedAt observedAt allow =
      policy.rankKey base seq version enqueuedAt observedAt allow := by
  cases version with
  | some v => rfl
  | none =>
      have accepts : policy.acceptsBasePriority base
          (some (.aging policy.agingQuantum policy.maxAgeBoost)) =
            policy.acceptsBasePriority base none := rfl
      simp only [QueuePolicy.rankKey, QueuePolicy.effectivePriority, Option.getD_none,
        QueuePolicy.version, accepts]
      simp

/-- What does not outrank a request yields to it. -/
theorem yields_of_not_outranks {p : Orbit} {rank : Rank}
    (h : pendingOutranks cfg.policy rank now p.row = false) : p.Yields cfg now rank := by
  rw [pendingOutranks] at h
  split at h
  · rename_i seq version ticket policy
    have ranked : cfg.policy.rankKey p.row.priority p.row.queueSeq p.row.policyVersion
        p.row.enqueuedAt now = p.rank cfg now := rfl
    rw [ranked] at h
    have known : p.queueSeq = some seq ∧ p.policyVersion = some version := ⟨ticket, policy⟩
    refine ⟨by simp [known], by simp [known], ?_⟩
    split at h
    · cases h
    · rename_i r rank'
      exact ⟨r, rank', by simpa using h⟩
  · cases h

/-- A grant is made when nothing stands against it. -/
theorem clear_of_grantable {raw : List String} {mode : Mode} {priority : ℤ} {seq : Option ℤ}
    {id : OrbitId} {version : Option PolicyVersion} {enqueuedAt : Option Time}
    {d : AdmissionDecision}
    (h : admissionDecision cfg s raw mode priority seq (some id) version enqueuedAt now = .ok d)
    (grantable : d.grantable = true) :
    ∃ rank, cfg.policy.rankKey priority seq version enqueuedAt now true = some rank ∧
      s.Clear cfg now id mode raw rank := by
  rw [admissionDecision, Outcome.bind_eq_ok] at h
  obtain ⟨request, built, h⟩ := h
  cases seq with
  | none =>
      rw [AdmissionRequest.build] at built
      split at built <;> cases built
  | some q =>
      obtain ⟨v, hv, normal, eq⟩ := build_eq_ok built
      have held : ∀ row ∈ s.heldOrbits.map Orbit.row, row.Readable := by
        intro row hrow
        obtain ⟨o, -, rfl⟩ := List.mem_map.mp hrow
        exact o.row_readable
      have pending : ∀ row ∈ s.pendingOrbits.map Orbit.row, row.Readable := by
        intro row hrow
        obtain ⟨o, -, rfl⟩ := List.mem_map.mp hrow
        exact o.row_readable
      rw [Store.decide, decideAdmission_spec held pending] at h
      have ranked : request.rank cfg.policy now =
          cfg.policy.rankKey priority (some q) version enqueuedAt now true := by
        rw [← rankKey_getD, Option.some.inj hv, eq, AdmissionRequest.rank]
      cases hrank : request.rank cfg.policy now with
      | none =>
          rw [hrank] at h
          cases h
      | some rank =>
          rw [hrank] at h
          cases h
          refine ⟨rank, ranked.symm.trans hrank, ?_⟩
          have blocks (r : Orbit) (other : r.orbitId ≠ id) : request.heldBlocked r.row =
              conflicting mode raw r.mode r.pathspec := by
            have overlap : setsOverlap _ r.pathspec = setsOverlap raw r.pathspec :=
              setsOverlap_normal normal
            rw [AdmissionRequest.heldBlocked, eq]
            simp [Row.conflicts, Orbit.row, other, conflicting, overlap]
          simp only [AdmissionDecision.grantable, AdmissionDecision.blockerIds, List.isEmpty_iff,
            List.append_eq_nil_iff] at grantable
          have none_of (p : Row → Bool) (rows : List Row)
              (h : ((rows.filter p).map Row.orbitId).insertionSort (· ≤ ·) = []) :
              ∀ row ∈ rows, p row = false := by
            intro row hrow
            rw [← Bool.not_eq_true]
            intro hp
            have mem : row.orbitId ∈ ((rows.filter p).map Row.orbitId).insertionSort (· ≤ ·) := by
              rw [List.mem_insertionSort]
              exact List.mem_map_of_mem (List.mem_filter.mpr ⟨hrow, hp⟩)
            rw [h] at mem
            cases mem
          constructor
          · intro r hr isHeld other
            rw [← blocks r other]
            exact none_of _ _ grantable.1 _ (List.mem_map_of_mem (mem_heldOrbits.mpr ⟨hr, isHeld⟩))
          · intro p hp isPending other conflict
            have free := none_of _ _ grantable.2 p.row
              (List.mem_map_of_mem (mem_pendingOrbits.mpr ⟨hp, isPending⟩))
            rw [AdmissionRequest.pendingBlocked, blocks p other, conflict, Bool.true_and] at free
            exact yields_of_not_outranks free

/-! ## Changes -/

/-- A path orbit that is held after a change was held, or is promoted. -/
theorem OrbitStep.held (h : OrbitStep c E s o o') (held : o'.isHeld = true) :
    o.isHeld = true ∨ o.isPending = true ∧
      ∃ d, admissionDecisionOf c.cfg s o c.now = .ok d ∧ d.grantable = true := by
  obtain ⟨state, kind⟩ := isHeld_iff.mp held
  have kind : o.kind = .orbit := h.row.kind.symm.trans kind
  have same (eq : o'.state = o.state) : o.isHeld = true :=
    isHeld_iff.mpr ⟨eq.symm.trans state, kind⟩
  have ended (h : o'.state.terminal = true) : False := by
    rw [state] at h
    cases h
  cases h.change with
  | keep eq => exact Or.inl (same eq)
  | rebind _ _ eq => exact Or.inl (same eq)
  | promote pending _ _ _ granted => exact Or.inr ⟨pending, granted⟩
  | attempt _ _ _ eq =>
      rcases eq with eq | ⟨-, eq, -⟩
      · exact Or.inl (same eq)
      · cases state.symm.trans eq
  | expire _ eq => cases state.symm.trans eq
  | deny _ eq => cases state.symm.trans eq
  | release _ _ _ _ eq => cases state.symm.trans eq
  | lease _ _ eq => exact (ended eq).elim
  | permit _ _ _ _ eq => exact (ended eq).elim
  | cancelled _ _ _ _ _ eq => exact (ended eq).elim
  | reclaimed _ _ _ eq => exact (ended eq).elim
  | token _ _ _ eq => exact (ended eq).elim

/-- A path orbit that is queued after a change was queued before it. -/
theorem OrbitStep.pending (h : OrbitStep c E s o o') (pending : o'.isPending = true) :
    o.isPending = true := by
  obtain ⟨state, kind⟩ := isPending_iff.mp pending
  have kind : o.kind = .orbit := h.row.kind.symm.trans kind
  have same (eq : o'.state = o.state) : o.isPending = true :=
    isPending_iff.mpr ⟨eq.symm.trans state, kind⟩
  have ended (h : o'.state.terminal = true) : False := by
    rw [state] at h
    cases h
  cases h.change with
  | keep eq => exact same eq
  | rebind _ _ eq => exact same eq
  | promote _ eq => cases state.symm.trans eq
  | attempt _ _ _ eq =>
      rcases eq with eq | ⟨-, eq, -⟩
      · exact same eq
      · cases state.symm.trans eq
  | expire _ eq => cases state.symm.trans eq
  | deny _ eq => cases state.symm.trans eq
  | release _ _ _ _ eq => cases state.symm.trans eq
  | lease _ _ eq => exact (ended eq).elim
  | permit _ _ _ _ eq => exact (ended eq).elim
  | cancelled _ _ _ _ _ eq => exact (ended eq).elim
  | reclaimed _ _ _ eq => exact (ended eq).elim
  | token _ _ _ eq => exact (ended eq).elim

/-- The rank by which a row is granted; one that was not queued has no age yet. -/
def Orbit.GrantRank (cfg : Cfg) (observedAt : Time) (o : Orbit) (rank : Rank) : Prop :=
  ∃ enqueued, (enqueued = o.enqueuedAt ∨ enqueued = some observedAt) ∧
    cfg.policy.rankKey o.priority o.queueSeq o.policyVersion enqueued observedAt true = some rank

/-- What a row that becomes held was granted over. -/
theorem OrbitsAfter.held (h : OrbitsAfter c E s s') (held : o'.isHeld = true)
    (mem : o' ∈ s'.orbits) :
    (∃ o ∈ s.orbits, o.SameRow o' ∧ o.isHeld = true) ∨
      (∀ r ∈ s'.orbits, r.orbitId ≠ o'.orbitId → r ∈ s.orbits) ∧
        ∃ rank, o'.GrantRank c.cfg c.now rank ∧
          s.Clear c.cfg c.now o'.orbitId o'.mode o'.pathspec rank := by
  cases h with
  | kept back =>
      obtain ⟨o, ho, stamped⟩ := back o' mem
      rw [Orbit.isHeld, stamped.state, stamped.sameRow.kind] at held
      exact Or.inl ⟨o, ho, stamped.sameRow, held⟩
  | changed o o₁ ho step rows =>
      rcases (rows o').mp mem with ⟨ho', -⟩ | rfl
      · exact Or.inl ⟨o', ho', .refl o', held⟩
      · rcases step.held held with before | ⟨-, d, decided, grantable⟩
        · exact Or.inl ⟨o, ho, step.row, before⟩
        · obtain ⟨rank, ranked, clear⟩ := clear_of_grantable decided grantable
          refine Or.inr ⟨fun r hr other => ?_, rank, ⟨o'.enqueuedAt, Or.inl rfl, ?_⟩, ?_⟩
          · rcases (rows r).mp hr with ⟨hr, -⟩ | rfl
            · exact hr
            · exact absurd rfl other
          · rw [step.row.priority, step.row.queueSeq, step.row.policyVersion, step.row.enqueuedAt]
            exact ranked
          · rw [step.row.orbitId, step.row.mode, step.row.pathspec]
            exact clear
  | added o row id _ rows =>
      rcases (rows o').mp mem with ho' | rfl
      · exact Or.inl ⟨o', ho', .refl o', held⟩
      · obtain ⟨state, kind⟩ := isHeld_iff.mp held
        cases row with
        | held _ _ granted =>
            obtain ⟨d, decided, grantable⟩ := granted
            obtain ⟨rank, ranked, clear⟩ := clear_of_grantable decided grantable
            refine Or.inr ⟨fun r hr other => ?_, rank, ⟨_, Or.inr rfl, ranked⟩, clear⟩
            rcases (rows r).mp hr with hr | rfl
            · exact hr
            · exact absurd rfl other
        | queued _ eq => cases state.symm.trans eq
        | permit other | lease other | token other => cases kind.symm.trans other

/-! ## One holder -/

/-- No two path orbits that are held conflict. -/
def Store.Exclusive (s : Store) : Prop :=
  ∀ o ∈ s.orbits, ∀ r ∈ s.orbits, o.isHeld = true → r.isHeld = true → o.orbitId ≠ r.orbitId →
    o.clashes r = false

theorem Orbit.clashes_comm (o r : Orbit) : o.clashes r = r.clashes o := conflicting_comm ..

theorem Orbit.SameRow.clashes {r r' : Orbit} (h : o.SameRow o') (h' : r.SameRow r') :
    o'.clashes r' = o.clashes r := by
  rw [Orbit.clashes, Orbit.clashes, h.mode, h.pathspec, h'.mode, h'.pathspec]

theorem Store.Exclusive.micro (h : s.Exclusive) (ok : s.Ok) (step : Micro c E s s') :
    s'.Exclusive := by
  intro o' ho' r' hr' held held' other
  have after := step.orbits ok
  -- a row that is granted is clear of every other one, which did not change
  have granted {o r : Orbit} (hr : r ∈ s'.orbits) (held' : r.isHeld = true)
      (other : r.orbitId ≠ o.orbitId)
      (grant : (∀ r ∈ s'.orbits, r.orbitId ≠ o.orbitId → r ∈ s.orbits) ∧
        ∃ rank, o.GrantRank c.cfg c.now rank ∧
          s.Clear c.cfg c.now o.orbitId o.mode o.pathspec rank) :
      o.clashes r = false := by
    obtain ⟨stays, rank, -, clear⟩ := grant
    exact clear.held r (stays r hr other) held' other
  rcases after.held held ho' with ⟨o, ho, row, before⟩ | grant
  · rcases after.held held' hr' with ⟨r, hr, row', before'⟩ | grant
    · rw [row.clashes row']
      refine h o ho r hr before before' ?_
      rwa [← row.orbitId, ← row'.orbitId]
    · rw [Orbit.clashes_comm]
      exact granted ho' held other grant
  · exact granted hr' held' other.symm grant

/-- Two path orbits that are held have compatible modes or do not overlap, in every store that is
reached; no path is covered by two whose modes are not compatible. -/
theorem singulon {σ : Sys} (reach : Reachable cfg σ) (ho : o ∈ σ.store.orbits)
    (ho' : o' ∈ σ.store.orbits) (held : o.state = .HELD) (held' : o'.state = .HELD)
    (kind : o.kind = .orbit) (kind' : o'.kind = .orbit) (other : o.orbitId ≠ o'.orbitId) :
    (modesCompatible o.mode o'.mode = true ∨ setsOverlap o.pathspec o'.pathspec = false) ∧
      (modesCompatible o.mode o'.mode = false → ∀ path,
        ¬ (pathInGlobs path o.pathspec = true ∧ pathInGlobs path o'.pathspec = true)) := by
  have exclusive : σ.store.Exclusive :=
    Sys.Ok.empty.run_invariant (I := Store.Exclusive) (fun _ _ _ _ ok ih step => ih.micro ok step)
      reach (fun o ho => by cases ho)
  have apart := exclusive o ho o' ho' (isHeld_iff.mpr ⟨held, kind⟩) (isHeld_iff.mpr ⟨held', kind'⟩)
    other
  rw [Orbit.clashes, conflicting, Bool.and_eq_false_iff, Bool.not_eq_false'] at apart
  refine ⟨apart, fun incompatible path covered => ?_⟩
  have disjoint := apart.resolve_left (by rw [incompatible]; simp)
  rw [setsOverlap_of_path covered.1 covered.2] at disjoint
  cases disjoint

/-- A reader and a writer that hold, and a writer that waits for the reader. -/
def threeClaims : List (Env × Action) :=
  [ (Action.call (.claim { agentId := "A", pathspec := ["a/**"], mode := .read })).at 1,
    (Action.call (.claim { agentId := "B", pathspec := ["b"] })).at 1,
    (Action.call (.claim { agentId := "C", pathspec := ["a/c"] })).at 1 ]

theorem singulon_threeClaims : ∃ σ, Reachable {} σ ∧ ∃ o ∈ σ.store.orbits, ∃ r ∈ σ.store.orbits,
    o.mode = .read ∧ r.mode = .write ∧ setsOverlap o.pathspec r.pathspec = false ∧
      ∀ path, ¬ (pathInGlobs path o.pathspec = true ∧ pathInGlobs path r.pathspec = true) := by
  obtain ⟨σ, reach, o, ho, r, hr, read, write, held, held', kind, kind', other⟩ :
      ∃ σ, Reachable {} σ ∧ ∃ o ∈ σ.store.orbits, ∃ r ∈ σ.store.orbits, o.mode = .read ∧
        r.mode = .write ∧ o.state = .HELD ∧ r.state = .HELD ∧ o.kind = .orbit ∧ r.kind = .orbit ∧
        o.orbitId ≠ r.orbitId :=
    exists_reachable threeClaims (by decide +kernel)
  obtain ⟨apart, covers⟩ := singulon reach ho hr held held' kind kind' other
  have incompatible : modesCompatible o.mode r.mode = false := by rw [read, write]; rfl
  refine ⟨σ, reach, o, ho, r, hr, read, write, apart.resolve_left ?_, covers incompatible⟩
  rw [incompatible]
  simp

/-! ## In turn -/

/-- A claim that is granted overtakes nobody. -/
theorem claimDecide_unovertaken {args : ClaimArgs} {generation epoch : ℕ} {rollover : Bool}
    {r : Result} (h : claimDecide cfg s args generation epoch rollover now = .ok (s', r))
    (held : r.reply.state = some (.orbit .HELD)) :
    ∃ rank, cfg.policy.rankKey args.priority (some (s.seq + 1)) (some cfg.policy.version) (some now)
        now true = some rank ∧ s.Unovertaken cfg now s.uuid args.mode args.pathspec rank := by
  rw [claimDecide, Outcome.bind_eq_ok] at h
  obtain ⟨d, decided, h⟩ := h
  split at h
  · rename_i grantable
    obtain ⟨rank, ranked, clear⟩ := clear_of_grantable decided grantable
    exact ⟨rank, ranked, clear.queue⟩
  · split at h
    · rw [claimOverload, Outcome.bind_eq_ok] at h
      obtain ⟨s₁, -, h⟩ := h
      cases h
      cases held
    · rw [claimQueue, Outcome.bind_eq_ok] at h
      obtain ⟨s₁, -, h⟩ := h
      rw [Outcome.bind_eq_ok] at h
      obtain ⟨cycle, -, h⟩ := h
      split at h
      · rw [Outcome.bind_eq_ok] at h
        obtain ⟨s₂, -, h⟩ := h
        cases h
        cases held
      · cases h
        cases held

/-- A queued row that is promoted overtakes nobody. -/
theorem promoteOrbit_unovertaken (h : promoteOrbit cfg now s o = .ok s')
    (before : ∀ r ∈ s.orbits, r.orbitId = o.orbitId → r.isHeld = false)
    (held : ∃ r ∈ s'.orbits, r.orbitId = o.orbitId ∧ r.isHeld = true) :
    ∃ rank, cfg.policy.rankKey o.priority o.queueSeq o.policyVersion o.enqueuedAt now true =
        some rank ∧ s.Unovertaken cfg now o.orbitId o.mode o.pathspec rank := by
  have stays {s' : Store} (same : s' = s)
      (held : ∃ r ∈ s'.orbits, r.orbitId = o.orbitId ∧ r.isHeld = true) : False := by
    obtain ⟨r, hr, id, held⟩ := held
    rw [same] at hr
    rw [before r hr id] at held
    cases held
  rw [promoteOrbit] at h
  split at h
  · cases h
    exact (stays rfl held).elim
  split at h
  · cases h
    exact (stays rfl held).elim
  split at h
  · cases h
    exact (stays rfl held).elim
  rw [Outcome.bind_eq_ok] at h
  obtain ⟨d, decided, h⟩ := h
  split at h
  · rename_i grantable
    obtain ⟨rank, ranked, clear⟩ := clear_of_grantable decided grantable
    exact ⟨rank, ranked, clear.queue⟩
  · rw [blockPromotion, Outcome.bind_eq_ok] at h
    obtain ⟨id, -, h⟩ := h
    rw [Outcome.bind_eq_ok] at h
    obtain ⟨s₁, asserted, h⟩ := h
    cases h
    rw [(assertAdmissionProjection_spec asserted).silent rfl] at held
    obtain ⟨r, hr, same, held⟩ := held
    rw [Store.setOrbit, Table.mem_modify] at hr
    rcases hr with ⟨hr, -⟩ | ⟨r₀, hr₀, same₀, rfl⟩
    · rw [before r hr same] at held
      cases held
    · have unheld : r₀.isHeld = false := before r₀ hr₀ same₀
      rw [Orbit.isHeld] at unheld held
      rw [unheld] at held
      cases held

/-- Where a row is queued and known in the first store, it yields to the rows that were granted
since. -/
def Store.InTurn (cfg : Cfg) (now : Time) (s₀ s : Store) : Prop :=
  ∀ o ∈ s.orbits, o.isHeld = true →
    (∀ r ∈ s₀.orbits, r.orbitId = o.orbitId → r.isHeld = false) →
    ∃ rank, o.GrantRank cfg now rank ∧ ∀ p ∈ s.orbits, p.isPending = true →
      (∃ r ∈ s₀.orbits, r.orbitId = p.orbitId) → o.clashes p = true → p.Yields cfg now rank

theorem Orbit.Yields.sameRow {p p' : Orbit} {rank : Rank} (h : p.Yields cfg now rank)
    (row : p.SameRow p') : p'.Yields cfg now rank := by
  rw [Orbit.Yields, Orbit.rank, row.queueSeq, row.policyVersion, row.priority, row.enqueuedAt]
  exact h

theorem Orbit.GrantRank.sameRow {rank : Rank} (h : o.GrantRank cfg now rank) (row : o.SameRow o') :
    o'.GrantRank cfg now rank := by
  rw [Orbit.GrantRank, row.priority, row.queueSeq, row.policyVersion, row.enqueuedAt]
  exact h

/-- A row that is queued and known was queued before. -/
theorem Micro.queued (step : Micro c E s s') (ok : s.Ok) {p' : Orbit} (hp' : p' ∈ s'.orbits)
    (pending : p'.isPending = true) (known : p'.orbitId < s.uuid) :
    ∃ p ∈ s.orbits, p.SameRow p' ∧ p.isPending = true := by
  rcases (step.orbits ok).back hp' with ⟨p, hp, change⟩ | ⟨-, id⟩
  · exact ⟨p, hp, change.row, change.pending pending⟩
  · exact absurd known (id ▸ lt_irrefl _)

theorem Store.InTurn.micro {s₀ : Store} (h : Store.InTurn c.cfg c.now s₀ s) (ok₀ : s₀.Ok)
    (later : s₀.uuid ≤ s.uuid) (ok : s.Ok) (step : Micro c E s s') :
    Store.InTurn c.cfg c.now s₀ s' := by
  intro o' ho' held new
  have ok' := ok.micro step
  have queued {p' : Orbit} (hp' : p' ∈ s'.orbits) (pending : p'.isPending = true)
      (known : ∃ r ∈ s₀.orbits, r.orbitId = p'.orbitId) :
      ∃ p ∈ s.orbits, p.SameRow p' ∧ p.isPending = true := by
    obtain ⟨r, hr, same⟩ := known
    refine step.queued ok hp' pending ?_
    rw [← same]
    exact (ok₀.fresh r hr).trans_le later
  rcases (step.orbits ok).held held ho' with ⟨o, ho, row, before⟩ | ⟨-, rank, ranked, clear⟩
  · obtain ⟨rank, ranked, turn⟩ := h o ho before fun r hr same =>
      new r hr (same.trans row.orbitId.symm)
    refine ⟨rank, ranked.sameRow row, fun p' hp' pending known clash => ?_⟩
    obtain ⟨p, hp, prow, waits⟩ := queued hp' pending known
    refine (turn p hp waits ?_ ?_).sameRow prow
    · rw [← prow.orbitId]
      exact known
    · rw [← row.clashes prow]
      exact clash
  · refine ⟨rank, ranked, fun p' hp' pending known clash => ?_⟩
    obtain ⟨p, hp, prow, waits⟩ := queued hp' pending known
    refine (clear.queue p hp waits ?_ ?_).sameRow prow
    · intro same
      rw [ok'.orbit_eq hp' ho' (prow.orbitId.trans same), Orbit.isPending,
        (isHeld_iff.mp held).1] at pending
      cases pending
    · rw [← prow.mode, ← prow.pathspec]
      exact clash

/-- A step grants no row before one that was queued and stays so, and goes first. -/
theorem step_inTurn {σ σ' : Sys} {l : Env × Action} (reach : Reachable cfg σ)
    (h : Step cfg σ l σ') : Store.InTurn cfg l.1.now σ.store σ'.store := by
  have ok := reach.ok
  have h : step cfg l.1 σ l.2 = .ok σ' := h
  refine ((step_spec ok h).1.invariant
    (I := fun s => σ.store.uuid ≤ s.uuid ∧ Store.InTurn cfg l.1.now σ.store s)
    (fun may E s s' _ ok' ih change =>
      ⟨ih.1.trans change.uuid, ih.2.micro ok.store ih.1 ok' change⟩)
    ok.store ⟨le_rfl, fun o ho held new => ?_⟩).2
  rw [new o ho rfl] at held
  cases held

/-- A request is granted in its turn: no other queued row that conflicts with it goes before it,
or is without a rank, at the time of the decision.  This is so where a claim is decided, where a
queued row is promoted, and in every step that is reached. -/
theorem no_overtaking (cfg : Cfg) :
    (∀ (s s' : Store) args generation epoch rollover now r,
      claimDecide cfg s args generation epoch rollover now = .ok (s', r) →
      r.reply.state = some (.orbit .HELD) →
      ∃ rank, cfg.policy.rankKey args.priority (some (s.seq + 1)) (some cfg.policy.version)
          (some now) now true = some rank ∧
        s.Unovertaken cfg now s.uuid args.mode args.pathspec rank) ∧
    (∀ (s s' : Store) o now, promoteOrbit cfg now s o = .ok s' →
      (∀ r ∈ s.orbits, r.orbitId = o.orbitId → r.isHeld = false) →
      (∃ r ∈ s'.orbits, r.orbitId = o.orbitId ∧ r.isHeld = true) →
      ∃ rank, cfg.policy.rankKey o.priority o.queueSeq o.policyVersion o.enqueuedAt now true =
          some rank ∧ s.Unovertaken cfg now o.orbitId o.mode o.pathspec rank) ∧
    ∀ σ σ' l, Reachable cfg σ → Step cfg σ l σ' → Store.InTurn cfg l.1.now σ.store σ'.store :=
  ⟨fun _ _ _ _ _ _ _ _ => claimDecide_unovertaken,
    fun _ _ _ _ => promoteOrbit_unovertaken, fun _ _ _ => step_inTurn⟩

/-- Two writers wait for a third. -/
def threeWriters : List (Env × Action) :=
  [ (Action.call (.claim { agentId := "A", pathspec := ["a"] })).at 1,
    (Action.call (.claim { agentId := "B", pathspec := ["a"] })).at 2,
    (Action.call (.claim { agentId := "C", pathspec := ["a"] })).at 3 ]

/-- The first of them is granted what is released, and the other one yields to it. -/
theorem no_overtaking_released : ∃ σ σ', Reachable {} σ ∧
    Step {} σ ((Action.call (.release 0 "A" (some 1) none none)).at 4) σ' ∧
    ∃ o ∈ σ'.store.orbits, o.agentId = "B" ∧ o.isHeld = true ∧
      ∃ p ∈ σ'.store.orbits, p.agentId = "C" ∧ p.isPending = true ∧
        ∃ rank, o.GrantRank {} 4 rank ∧ p.Yields {} 4 rank := by
  obtain ⟨σ, reach, released⟩ : ∃ σ, Reachable {} σ ∧
      (step {} { now := 4, instanceId := "c" } σ
        (.call (.release 0 "A" (some 1) none none))).toOption.any (fun σ' =>
          ∃ o ∈ σ'.store.orbits, o.agentId = "B" ∧ o.isHeld = true ∧
            (∀ r ∈ σ.store.orbits, r.orbitId = o.orbitId → r.isHeld = false) ∧
            ∃ p ∈ σ'.store.orbits, p.agentId = "C" ∧ p.isPending = true ∧
              (∃ r ∈ σ.store.orbits, r.orbitId = p.orbitId) ∧ o.clashes p = true) = true :=
    exists_reachable threeWriters (by decide +kernel)
  obtain ⟨σ', next, o, ho, agent, held, new, p, hp, agent', pending, known, clash⟩ :=
    exists_step (l := (Action.call (.release 0 "A" (some 1) none none)).at 4) released
  obtain ⟨rank, ranked, turn⟩ := (no_overtaking {}).2.2 σ σ' _ reach next o ho held new
  exact ⟨σ, σ', reach, next, o, ho, agent, held, p, hp, agent', pending, rank, ranked,
    turn p hp pending known clash⟩

end Omd
