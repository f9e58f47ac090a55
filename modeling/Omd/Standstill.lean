import Omd.DependencyGraph
import Omd.Lib.Pass
import Omd.Singulon

/-!
# What a reconciliation leaves

A reconciliation times out the rows whose wait is over, denies rows until nobody waits in a circle,
and visits the queue once.  The rows of a store are the items of a queue: those that are held, and
those that wait.  The visit is a pass over this queue, so that it leaves no row that could be
granted, and closes no circle; a second reconciliation at the same time finds nothing to do.
-/

namespace Omd

open Lib Lib.Queue

variable {cfg : Cfg} {now : Time} {s s₁ s' : Store} {o p : Orbit} {state : OrbitState}

/-! ## The queue of a store -/

/-- The rows of the store, as a queue. -/
def Store.line (s : Store) : Snapshot OrbitId where
  held := {i | ∃ o ∈ s.orbits, o.orbitId = i ∧ o.isHeld = true}
  queue := {i | ∃ o ∈ s.orbits, o.orbitId = i ∧ o.isPending = true}

/-- The rank that a queued row asks with. -/
def Orbit.asks (cfg : Cfg) (now : Time) (o : Orbit) : Option Rank :=
  cfg.policy.rankKey o.priority o.queueSeq o.policyVersion o.enqueuedAt now true

/-- The row goes before one that asks. -/
def Orbit.Outranks (cfg : Cfg) (now : Time) (p o : Orbit) : Prop :=
  ∃ rank, o.asks cfg now = some rank ∧ pendingOutranks cfg.policy rank now p.row = true

/-- The rows conflict. -/
def Store.Clash (s : Store) (i j : OrbitId) : Prop :=
  ∃ o ∈ s.orbits, ∃ p ∈ s.orbits, o.orbitId = i ∧ p.orbitId = j ∧ o.clashes p = true

/-- The first row goes before the second. -/
def Store.Before (cfg : Cfg) (now : Time) (s : Store) (i j : OrbitId) : Prop :=
  ∃ p ∈ s.orbits, ∃ o ∈ s.orbits, p.orbitId = i ∧ o.orbitId = j ∧ p.Outranks cfg now o

/-- The row may be promoted: its wait is not over, its owner is alive, its policy is known. -/
structure Store.MayPromote (cfg : Cfg) (now : Time) (s : Store) (o : Orbit) : Prop where
  waits : reached o.waitDeadline now = false
  fresh : pendingOwnerFresh cfg s o now = true
  ranked : rankObservation cfg o now ≠ none

/-- The row stands in the way of the other one. -/
theorem Store.Ok.blocks_iff (ok : s.Ok) (ho : o ∈ s.orbits) (hp : p ∈ s.orbits) :
    Blocks s.Clash (s.Before cfg now) s.line p.orbitId o.orbitId ↔
      p.orbitId ≠ o.orbitId ∧ o.clashes p = true ∧
        (p.isHeld = true ∨ p.isPending = true ∧ p.Outranks cfg now o) := by
  constructor
  · rintro ⟨ne, ⟨o₁, ho₁, p₁, hp₁, oid, pid, clash⟩, there⟩
    cases ok.orbit_eq ho₁ ho oid
    cases ok.orbit_eq hp₁ hp pid
    refine ⟨ne, clash, ?_⟩
    rcases there with
      ⟨p₂, hp₂, pid₂, held⟩ | ⟨⟨p₂, hp₂, pid₂, pending⟩, p₃, hp₃, o₃, ho₃, pid₃, oid₃, first⟩
    · cases ok.orbit_eq hp₂ hp pid₂
      exact Or.inl held
    · cases ok.orbit_eq hp₂ hp pid₂
      cases ok.orbit_eq hp₃ hp pid₃
      cases ok.orbit_eq ho₃ ho oid₃
      exact Or.inr ⟨pending, first⟩
  · rintro ⟨ne, clash, there⟩
    refine ⟨ne, ⟨o, ho, p, hp, rfl, rfl, clash⟩, ?_⟩
    rcases there with held | ⟨pending, first⟩
    · exact Or.inl ⟨p, hp, rfl, held⟩
    · exact Or.inr ⟨⟨p, hp, rfl, pending⟩, p, hp, o, ho, rfl, rfl, first⟩

/-- What blocks is a row. -/
theorem Store.exists_of_blocks {i j : OrbitId}
    (h : Blocks s.Clash (s.Before cfg now) s.line j i) : ∃ p ∈ s.orbits, p.orbitId = j := by
  obtain ⟨-, ⟨-, -, p, hp, -, id, -⟩, -⟩ := h
  exact ⟨p, hp, id⟩

/-! ## The decision -/

/-- The decision about a row names what stands in its way. -/
theorem blockerIds_spec {d : AdmissionDecision} (ok : s.Ok) (ho : o ∈ s.orbits)
    (h : admissionDecisionOf cfg s o now = .ok d) (j : OrbitId) :
    j ∈ d.blockerIds ↔ Blocks s.Clash (s.Before cfg now) s.line j o.orbitId := by
  rw [admissionDecisionOf, admissionDecision, Outcome.bind_eq_ok] at h
  obtain ⟨request, built, h⟩ := h
  cases hq : o.queueSeq with
  | none =>
      rw [hq, AdmissionRequest.build] at built
      split at built <;> cases built
  | some q =>
      rw [hq] at built
      obtain ⟨v, hv, normal, eq⟩ := build_eq_ok built
      have held : ∀ row ∈ s.heldOrbits.map Orbit.row, row.Readable := by
        intro row hrow
        obtain ⟨r, -, rfl⟩ := List.mem_map.mp hrow
        exact r.row_readable
      have pending : ∀ row ∈ s.pendingOrbits.map Orbit.row, row.Readable := by
        intro row hrow
        obtain ⟨r, -, rfl⟩ := List.mem_map.mp hrow
        exact r.row_readable
      rw [Store.decide, decideAdmission_spec held pending] at h
      have ranked : request.rank cfg.policy now = o.asks cfg now := by
        rw [Orbit.asks, hq, ← rankKey_getD, Option.some.inj hv, eq, AdmissionRequest.rank]
      cases hrank : request.rank cfg.policy now with
      | none =>
          rw [hrank] at h
          cases h
      | some rank =>
          rw [hrank] at h
          cases h
          rw [hrank] at ranked
          have blocks (r : Orbit) : request.heldBlocked r.row =
              (r.orbitId ≠ o.orbitId && o.clashes r) := by
            have overlap : setsOverlap _ r.pathspec = setsOverlap o.pathspec r.pathspec :=
              setsOverlap_normal normal
            rw [AdmissionRequest.heldBlocked, eq]
            simp [Row.conflicts, Orbit.row, conflicting, overlap, Orbit.clashes]
          simp only [AdmissionDecision.blockerIds, List.mem_append, List.mem_insertionSort,
            List.mem_map, List.mem_filter]
          constructor
          · rintro (⟨row, ⟨⟨r, hr, rfl⟩, stands⟩, rfl⟩ | ⟨row, ⟨⟨r, hr, rfl⟩, stands⟩, rfl⟩)
            · obtain ⟨mem, isHeld⟩ := mem_heldOrbits.mp hr
              rw [blocks, Bool.and_eq_true, decide_eq_true_eq] at stands
              exact (ok.blocks_iff ho mem).mpr ⟨stands.1, stands.2, Or.inl isHeld⟩
            · obtain ⟨mem, isPending⟩ := mem_pendingOrbits.mp hr
              rw [AdmissionRequest.pendingBlocked, blocks, Bool.and_eq_true, Bool.and_eq_true,
                decide_eq_true_eq] at stands
              exact (ok.blocks_iff ho mem).mpr ⟨stands.1.1, stands.1.2,
                Or.inr ⟨isPending, rank, ranked.symm, stands.2⟩⟩
          · intro stands
            obtain ⟨r, hr, rfl⟩ := Store.exists_of_blocks stands
            obtain ⟨ne, clash, there⟩ := (ok.blocks_iff ho hr).mp stands
            rcases there with isHeld | ⟨isPending, rank', asks, first⟩
            · refine Or.inl ⟨r.row, ⟨⟨r, mem_heldOrbits.mpr ⟨hr, isHeld⟩, rfl⟩, ?_⟩, rfl⟩
              simp [blocks, ne, clash]
            · rw [← ranked] at asks
              cases asks
              refine Or.inr ⟨r.row, ⟨⟨r, mem_pendingOrbits.mpr ⟨hr, isPending⟩, rfl⟩, ?_⟩, rfl⟩
              rw [AdmissionRequest.pendingBlocked, blocks]
              simp [ne, clash, first]

theorem grantable_iff {d : AdmissionDecision} (ok : s.Ok) (ho : o ∈ s.orbits)
    (h : admissionDecisionOf cfg s o now = .ok d) :
    d.grantable = true ↔ Free s.Clash (s.Before cfg now) s.line o.orbitId := by
  rw [AdmissionDecision.grantable, List.isEmpty_iff, List.eq_nil_iff_forall_not_mem]
  exact forall_congr' fun j => not_congr (blockerIds_spec ok ho h j)

/-! ## The pass -/

/-- The rows of two stores are the same, but for their states. -/
structure Store.SameRows (s s' : Store) : Prop where
  back : ∀ o' ∈ s'.orbits, ∃ o ∈ s.orbits, o.SameRow o'
  forth : ∀ o ∈ s.orbits, ∃ o' ∈ s'.orbits, o.SameRow o'

theorem Store.SameRows.refl (s : Store) : s.SameRows s :=
  ⟨fun o ho => ⟨o, ho, .refl o⟩, fun o ho => ⟨o, ho, .refl o⟩⟩

theorem Store.SameRows.trans (h : s.SameRows s₁) (h' : s₁.SameRows s') : s.SameRows s' where
  back := by
    intro o' ho'
    obtain ⟨o₁, ho₁, same'⟩ := h'.back o' ho'
    obtain ⟨o, ho, same⟩ := h.back o₁ ho₁
    exact ⟨o, ho, same.trans same'⟩
  forth := by
    intro o ho
    obtain ⟨o₁, ho₁, same⟩ := h.forth o ho
    obtain ⟨o', ho', same'⟩ := h'.forth o₁ ho₁
    exact ⟨o', ho', same.trans same'⟩

theorem Orbit.SameRow.outranks {o' p' : Orbit} (h : o.SameRow o') (h' : p.SameRow p') :
    p'.Outranks cfg now o' ↔ p.Outranks cfg now o := by
  rw [Orbit.Outranks, Orbit.Outranks, Orbit.asks, Orbit.asks, h.priority, h.queueSeq,
    h.policyVersion, h.enqueuedAt, h'.row]

/-- Who conflicts, and who goes before whom, is a matter of the rows. -/
theorem Store.SameRows.clash (h : s.SameRows s') : s'.Clash = s.Clash := by
  funext i j
  refine propext ⟨?_, ?_⟩
  · rintro ⟨o', ho', p', hp', rfl, rfl, clash⟩
    obtain ⟨o, ho, same⟩ := h.back o' ho'
    obtain ⟨p, hp, same'⟩ := h.back p' hp'
    exact ⟨o, ho, p, hp, same.orbitId.symm, same'.orbitId.symm, same.clashes same' ▸ clash⟩
  · rintro ⟨o, ho, p, hp, rfl, rfl, clash⟩
    obtain ⟨o', ho', same⟩ := h.forth o ho
    obtain ⟨p', hp', same'⟩ := h.forth p hp
    exact ⟨o', ho', p', hp', same.orbitId, same'.orbitId, (same.clashes same').trans clash⟩

theorem Store.SameRows.before (h : s.SameRows s') : s'.Before cfg now = s.Before cfg now := by
  funext i j
  refine propext ⟨?_, ?_⟩
  · rintro ⟨p', hp', o', ho', rfl, rfl, first⟩
    obtain ⟨p, hp, same'⟩ := h.back p' hp'
    obtain ⟨o, ho, same⟩ := h.back o' ho'
    exact ⟨p, hp, o, ho, same'.orbitId.symm, same.orbitId.symm, (same.outranks same').mp first⟩
  · rintro ⟨p, hp, o, ho, rfl, rfl, first⟩
    obtain ⟨p', hp', same'⟩ := h.forth p hp
    obtain ⟨o', ho', same⟩ := h.forth o ho
    exact ⟨p', hp', o', ho', same'.orbitId, same.orbitId, (same.outranks same').mpr first⟩

/-- One row of the store changes its state. -/
structure Store.Turns (s : Store) (o : Orbit) (state : OrbitState) (s' : Store) : Prop where
  agents : s'.agents = s.agents
  rows : ∃ o', o.SameRow o' ∧ o'.state = state ∧
    ∀ r, r ∈ s'.orbits ↔ r ∈ s.orbits ∧ r.orbitId ≠ o.orbitId ∨ r = o'

theorem Store.Turns.same (h : s.Turns o state s') (ok : s.Ok) (ho : o ∈ s.orbits) :
    s.SameRows s' := by
  obtain ⟨o', same, -, rows⟩ := h.rows
  constructor
  · intro r hr
    rcases (rows r).mp hr with ⟨hr, -⟩ | rfl
    · exact ⟨r, hr, .refl r⟩
    · exact ⟨o, ho, same⟩
  · intro r hr
    by_cases id : r.orbitId = o.orbitId
    · cases ok.orbit_eq hr ho id
      exact ⟨o', (rows o').mpr (Or.inr rfl), same⟩
    · exact ⟨r, (rows r).mpr (Or.inl ⟨hr, id⟩), .refl r⟩

/-- A queued row that stays queued. -/
theorem Store.Turns.stays (h : s.Turns o .PENDING s') (ok : s.Ok) (ho : o ∈ s.orbits)
    (pending : o.isPending = true) : s'.line = s.line := by
  obtain ⟨o', same, state, rows⟩ := h.rows
  obtain ⟨queued, kind⟩ := isPending_iff.mp pending
  have isPending : o'.isPending = true := isPending_iff.mpr ⟨state, same.kind.trans kind⟩
  have notHeld (r : Orbit) (isPending : r.isPending = true) : r.isHeld = false := by
    simp [Orbit.isHeld, (isPending_iff.mp isPending).1]
  ext i
  · constructor
    · rintro ⟨r, hr, rfl, isHeld⟩
      rcases (rows r).mp hr with ⟨hr, -⟩ | rfl
      · exact ⟨r, hr, rfl, isHeld⟩
      · rw [notHeld r isPending] at isHeld
        cases isHeld
    · rintro ⟨r, hr, rfl, isHeld⟩
      refine ⟨r, (rows r).mpr (Or.inl ⟨hr, fun id => ?_⟩), rfl, isHeld⟩
      rw [ok.orbit_eq hr ho id, notHeld o pending] at isHeld
      cases isHeld
  · constructor
    · rintro ⟨r, hr, rfl, isPending⟩
      rcases (rows r).mp hr with ⟨hr, -⟩ | rfl
      · exact ⟨r, hr, rfl, isPending⟩
      · exact ⟨o, ho, same.orbitId.symm, pending⟩
    · rintro ⟨r, hr, rfl, queued⟩
      by_cases id : r.orbitId = o.orbitId
      · exact ⟨o', (rows o').mpr (Or.inr rfl), same.orbitId.trans id.symm, isPending⟩
      · exact ⟨r, (rows r).mpr (Or.inl ⟨hr, id⟩), rfl, queued⟩

/-- A queued row that is granted. -/
theorem Store.Turns.granted (h : s.Turns o .HELD s') (ok : s.Ok) (ho : o ∈ s.orbits)
    (pending : o.isPending = true) : s'.line = s.line.grant o.orbitId := by
  obtain ⟨o', same, state, rows⟩ := h.rows
  obtain ⟨queued, kind⟩ := isPending_iff.mp pending
  have isHeld : o'.isHeld = true := isHeld_iff.mpr ⟨state, same.kind.trans kind⟩
  ext i
  · constructor
    · rintro ⟨r, hr, rfl, held⟩
      rcases (rows r).mp hr with ⟨hr, -⟩ | rfl
      · exact Or.inr ⟨r, hr, rfl, held⟩
      · exact Or.inl same.orbitId
    · rintro (rfl | ⟨r, hr, rfl, held⟩)
      · exact ⟨o', (rows o').mpr (Or.inr rfl), same.orbitId, isHeld⟩
      · refine ⟨r, (rows r).mpr (Or.inl ⟨hr, fun id => ?_⟩), rfl, held⟩
        rw [ok.orbit_eq hr ho id, Orbit.isHeld, queued] at held
        cases held
  · constructor
    · rintro ⟨r, hr, rfl, isPending⟩
      rcases (rows r).mp hr with ⟨hr, other⟩ | rfl
      · exact ⟨⟨r, hr, rfl, isPending⟩, other⟩
      · rw [Orbit.isPending, state] at isPending
        cases isPending
    · rintro ⟨⟨r, hr, rfl, isPending⟩, other⟩
      exact ⟨r, (rows r).mpr (Or.inl ⟨hr, other⟩), rfl, isPending⟩

theorem Store.Ok.turns (ok : s.Ok) (ho : o ∈ s.orbits) {f : Orbit → Orbit}
    (agents : s'.agents = s.agents) (rows : s'.orbits = (s.setOrbit o.orbitId f).orbits)
    (same : o.SameRow (f o)) (turned : (f o).state = state) : s.Turns o state s' :=
  ⟨agents, f o, same, turned, fun r => by rw [rows, ok.mem_setOrbit ho f r]⟩

/-- A round of the visit grants what may be promoted and is free, and leaves the rest queued. -/
theorem promoteOrbit_turns (ok : s.Ok) (ho : o ∈ s.orbits) (pending : o.isPending = true)
    (h : promoteOrbit cfg now s o = .ok s') :
    s.MayPromote cfg now o ∧ Free s.Clash (s.Before cfg now) s.line o.orbitId ∧
        s.Turns o .HELD s' ∨
      (s.MayPromote cfg now o → ¬ Free s.Clash (s.Before cfg now) s.line o.orbitId) ∧
        s.Turns o .PENDING s' := by
  have queued := (isPending_iff.mp pending).1
  have nothing : s.Turns o .PENDING s :=
    ⟨rfl, o, .refl o, queued, fun r => by
      by_cases id : r.orbitId = o.orbitId
      · refine ⟨fun hr => Or.inr (ok.orbit_eq hr ho id), ?_⟩
        rintro (⟨hr, -⟩ | rfl)
        · exact hr
        · exact ho
      · refine ⟨fun hr => Or.inl ⟨hr, id⟩, ?_⟩
        rintro (⟨hr, -⟩ | rfl)
        · exact hr
        · exact ho⟩
  rw [promoteOrbit] at h
  split at h
  · rename_i overdue
    cases h
    refine Or.inr ⟨fun may => ?_, nothing⟩
    rw [may.waits] at overdue
    cases overdue
  rename_i waits
  split at h
  · rename_i stale
    cases h
    refine Or.inr ⟨fun may => ?_, nothing⟩
    rw [may.fresh] at stale
    cases stale
  rename_i fresh
  split at h
  · rename_i unknown
    cases h
    exact Or.inr ⟨fun may => absurd unknown may.ranked, nothing⟩
  rename_i ranked
  rw [Outcome.bind_eq_ok] at h
  obtain ⟨d, decision, h⟩ := h
  have may : s.MayPromote cfg now o := ⟨by simpa using waits, by simpa using fresh, ranked⟩
  split at h
  · rename_i grantable
    refine Or.inl ⟨may, (grantable_iff ok ho decision).mp grantable, ?_⟩
    rw [grantPromotion, Outcome.bind_eq_ok] at h
    obtain ⟨id, -, h⟩ := h
    rw [Outcome.bind_eq_ok] at h
    obtain ⟨s₁, announced, h⟩ := h
    cases h
    have quiet := (assertAdmissionProjection_spec announced).store
    subst quiet
    exact ok.turns ho rfl rfl rfl rfl
  · rename_i blocked
    refine Or.inr ⟨fun _ free => blocked ((grantable_iff ok ho decision).mpr free), ?_⟩
    rw [blockPromotion, Outcome.bind_eq_ok] at h
    obtain ⟨id, -, h⟩ := h
    rw [Outcome.bind_eq_ok] at h
    obtain ⟨s₁, announced, h⟩ := h
    cases h
    have quiet := (assertAdmissionProjection_spec announced).store
    subst quiet
    exact ok.turns ho rfl rfl rfl queued

theorem Orbit.SameRow.symm {o' : Orbit} (h : o.SameRow o') : o'.SameRow o := by
  rw [Orbit.SameRow] at h ⊢
  rw [h]

theorem Store.MayPromote.of_agents {o' : Orbit} (h : s.MayPromote cfg now o)
    (agents : s'.agents = s.agents) (row : o.SameRow o') (pending : o.isPending = true)
    (pending' : o'.isPending = true) : s'.MayPromote cfg now o' where
  waits := by
    have wait : o'.waitDeadline = o.waitDeadline := by rw [row]
    rw [wait]
    exact h.waits
  fresh := by
    have owner : s'.getAgent o'.agentId = s.getAgent o.agentId := by
      rw [Store.getAgent, Store.getAgent, agents, row.agentId]
    rw [pendingOwnerFresh, owner]
    exact h.fresh
  ranked := by
    have state : o'.state = o.state :=
      (isPending_iff.mp pending').1.trans (isPending_iff.mp pending).1.symm
    rw [rankObservation, row.priority, row.policyVersion, row.enqueuedAt, state]
    exact h.ranked

/-- The rows that a visit may grant. -/
def Store.Ready (cfg : Cfg) (now : Time) (s : Store) (i : OrbitId) : Prop :=
  ∃ o ∈ s.orbits, o.orbitId = i ∧ s.MayPromote cfg now o

/-- A visit of queued rows is a pass. -/
theorem promoteRows_pass {xs : List Orbit} (ok : s.Ok) (distinct : Table.Distinct Orbit.orbitId xs)
    (sub : ∀ o ∈ xs, o ∈ s.orbits ∧ o ∈ s₁.orbits ∧ o.isPending = true) (same : s.SameRows s₁)
    (agents : s₁.agents = s.agents) (ok₁ : s₁.Ok)
    (h : xs.foldlM (promoteOrbit cfg now) s₁ = .ok s') :
    Pass s.Clash (s.Before cfg now) (s.Ready cfg now) (xs.map Orbit.orbitId) s₁.line s'.line ∧
      s.SameRows s' ∧ s'.agents = s.agents ∧ s'.Ok := by
  induction xs generalizing s₁ with
  | nil =>
      rw [List.foldlM_nil, Outcome.pure_eq_ok] at h
      subst h
      exact ⟨.nil _, same, agents, ok₁⟩
  | cons o xs ih =>
      rw [List.foldlM_cons, Outcome.bind_eq_ok] at h
      obtain ⟨s₂, round, h⟩ := h
      obtain ⟨ho, ho₁, pending⟩ := sub o (List.mem_cons_self ..)
      obtain ⟨first, rest⟩ := List.nodup_cons.mp distinct
      have wrote : Wrote ⟨cfg, now, fun _ => False⟩ nobody s₁ o s₂ :=
        promoteOrbit_wrote (c := ⟨cfg, now, fun _ => False⟩) pending round
      have ok₂ : s₂.Ok := ok₁.micros (wrote.micros ok₁ ho₁)
      have sub₂ : ∀ r ∈ xs, r ∈ s.orbits ∧ r ∈ s₂.orbits ∧ r.isPending = true := by
        intro r hr
        obtain ⟨mem, mem₁, queued⟩ := sub r (List.mem_cons_of_mem _ hr)
        refine ⟨mem, wrote.others mem₁ fun id => first ?_, queued⟩
        rw [← id]
        exact List.mem_map_of_mem hr
      have next {state : OrbitState} (turns : s₁.Turns o state s₂) :=
        ih rest sub₂ (same.trans (turns.same ok₁ ho₁)) (turns.agents.trans agents) ok₂ h
      rcases promoteOrbit_turns ok₁ ho₁ pending round with ⟨may, free, turns⟩ | ⟨blocked, turns⟩
      · obtain ⟨pass, after⟩ := next turns
        rw [turns.granted ok₁ ho₁ pending] at pass
        rw [same.clash, same.before] at free
        have ready : s.Ready cfg now o.orbitId :=
          ⟨o, ho, rfl, may.of_agents agents.symm (.refl o) pending pending⟩
        exact ⟨.grant ready ⟨o, ho₁, rfl, pending⟩ free pass, after⟩
      · obtain ⟨pass, after⟩ := next turns
        rw [turns.stays ok₁ ho₁ pending] at pass
        rw [same.clash, same.before] at blocked
        refine ⟨.skip (fun ready _ => ?_) pass, after⟩
        obtain ⟨r, hr, id, may⟩ := ready
        cases ok.orbit_eq hr ho id
        exact blocked (may.of_agents agents (.refl _) pending pending)

theorem promotePending_pass (ok : s.Ok) (h : promotePending cfg now s = .ok s') :
    Pass s.Clash (s.Before cfg now) (s.Ready cfg now)
        ((orderedPending cfg s now).map Orbit.orbitId) s.line s'.line ∧
      s.SameRows s' ∧ s'.agents = s.agents ∧ s'.Ok := by
  refine promoteRows_pass ok (distinct_insertionSort ok.distinct_pendingOrbits) (fun o ho => ?_)
    (.refl s) rfl ok h
  obtain ⟨mem, pending⟩ := mem_orderedPending.mp ho
  exact ⟨mem, mem, pending⟩

/-- A visit of the queue leaves no row that could be granted. -/
theorem promotePending_settled (ok : s.Ok) (h : promotePending cfg now s = .ok s')
    (ho : o ∈ s'.orbits) (pending : o.isPending = true) (may : s'.MayPromote cfg now o) :
    ¬ Free s'.Clash (s'.Before cfg now) s'.line o.orbitId := by
  obtain ⟨pass, same, agents, ok'⟩ := promotePending_pass ok h
  rw [same.clash, same.before]
  obtain ⟨r, hr, row⟩ := same.back o ho
  have queued : o.orbitId ∈ s.line.queue := pass.mono.2.1 ⟨o, ho, rfl, pending⟩
  obtain ⟨r', hr', id, queued⟩ := queued
  have eq : r' = r := ok.orbit_eq hr' hr (id.trans row.orbitId)
  subst eq
  refine pass.settled o.orbitId ?_ ⟨r', hr', id, ?_⟩ ⟨o, ho, rfl, pending⟩
  · rw [← id]
    exact List.mem_map_of_mem (mem_orderedPending.mpr ⟨hr', queued⟩)
  · exact may.of_agents agents.symm row.symm pending queued

/-! ## The waits -/

/-- An agent waits for another one: one of his queued rows, of a policy that is known, waits for a
row of the other. -/
def Store.AgentWaits (cfg : Cfg) (now : Time) (s : Store) (a b : AgentId) : Prop :=
  ∃ o ∈ s.orbits, ∃ p ∈ s.orbits, o.agentId = a ∧ p.agentId = b ∧ a ≠ b ∧
    rankObservation cfg o now ≠ none ∧
      Waits s.Clash (s.Before cfg now) s.line o.orbitId p.orbitId

/-- The waits of a row, when its policy is known, are decided as its promotion is. -/
theorem waitsOf_spec {waits : List Wait} (ok : s.Ok) (ho : o ∈ s.orbits)
    (h : waitsOf cfg s now o = .ok waits) (a b : AgentId) :
    (a, b) ∈ waitEdges waits ↔ a = o.agentId ∧ a ≠ b ∧ rankObservation cfg o now ≠ none ∧
      ∃ p ∈ s.orbits, p.agentId = b ∧
        Blocks s.Clash (s.Before cfg now) s.line p.orbitId o.orbitId := by
  rw [waitsOf] at h
  split at h
  · rename_i unknown
    cases h
    simp [waitEdges, unknown]
  rename_i ranked
  rw [Outcome.bind_eq_ok] at h
  obtain ⟨request, built, h⟩ := h
  rw [Outcome.bind_eq_ok] at h
  obtain ⟨d, decided, h⟩ := h
  cases h
  have decision : admissionDecisionOf cfg s o now = .ok d := by
    cases hq : o.queueSeq with
    | none =>
        rw [hq, AdmissionRequest.build] at built
        split at built <;> cases built
    | some q =>
        obtain ⟨v, version, -⟩ := build_eq_ok (hq ▸ built)
        rw [admissionDecisionOf, admissionDecision, Outcome.bind_eq_ok]
        refine ⟨request, ?_, decided⟩
        rw [version] at built ⊢
        exact built
  have blocks := blockerIds_spec ok ho decision
  have there {p : Orbit} (hp : p ∈ s.heldOrbits ++ s.pendingOrbits) : p ∈ s.orbits := by
    rcases List.mem_append.mp hp with hp | hp
    · exact (mem_heldOrbits.mp hp).1
    · exact (mem_pendingOrbits.mp hp).1
  have found {p : Orbit} (hp : p ∈ s.orbits)
      (stands : Blocks s.Clash (s.Before cfg now) s.line p.orbitId o.orbitId) :
      Table.get Orbit.orbitId p.orbitId (s.heldOrbits ++ s.pendingOrbits) = some p := by
    have mem : p ∈ s.heldOrbits ++ s.pendingOrbits := by
      obtain ⟨-, -, isHeld | ⟨isPending, -⟩⟩ := (ok.blocks_iff ho hp).mp stands
      · exact List.mem_append_left _ (mem_heldOrbits.mpr ⟨hp, isHeld⟩)
      · exact List.mem_append_right _ (mem_pendingOrbits.mpr ⟨hp, isPending⟩)
    cases hget : Table.get Orbit.orbitId p.orbitId (s.heldOrbits ++ s.pendingOrbits) with
    | none => exact absurd rfl (Table.get_eq_none.mp hget p mem)
    | some r => rw [ok.orbit_eq (there (Table.mem_of_get hget)) hp (Table.key_of_get hget)]
  simp only [waitEdges, List.mem_map, List.mem_filterMap]
  constructor
  · rintro ⟨w, ⟨j, blocker, wait⟩, edge⟩
    have stands := (blocks j).mp blocker
    obtain ⟨p, hp, rfl⟩ := Store.exists_of_blocks stands
    rw [found hp stands] at wait
    dsimp only at wait
    split at wait
    · rename_i other
      cases wait
      cases edge
      exact ⟨rfl, other.symm, by simp [ranked], p, hp, rfl, stands⟩
    · cases wait
  · rintro ⟨rfl, other, -, p, hp, rfl, stands⟩
    refine ⟨⟨o.agentId, p.agentId, o.orbitId⟩, ⟨p.orbitId, (blocks _).mpr stands, ?_⟩, rfl⟩
    rw [found hp stands]
    exact if_pos other.symm

/-- The edges that `_wait_for` computes are the waits of the agents. -/
theorem waitFor_spec {waits : List Wait} (ok : s.Ok) (h : waitFor cfg s now = .ok waits)
    (a b : AgentId) : (a, b) ∈ waitEdges waits ↔ s.AgentWaits cfg now a b := by
  rw [waitFor, Outcome.bind_eq_ok] at h
  obtain ⟨lists, hlists, h⟩ := h
  cases h
  have flat : (a, b) ∈ waitEdges lists.flatten ↔ ∃ l ∈ lists, (a, b) ∈ waitEdges l := by
    simp [waitEdges, List.mem_flatten]
  rw [flat]
  constructor
  · rintro ⟨l, hl, edge⟩
    obtain ⟨o, ho, waits⟩ := Outcome.exists_of_mapM_ok_mem hlists l hl
    obtain ⟨mem, pending⟩ := mem_pendingOrbits.mp ho
    obtain ⟨rfl, other, ranked, p, hp, rfl, stands⟩ := (waitsOf_spec ok mem waits a b).mp edge
    exact ⟨o, mem, p, hp, rfl, rfl, other, ranked, ⟨o, mem, rfl, pending⟩, stands⟩
  · rintro ⟨o, ho, p, hp, rfl, rfl, other, ranked, ⟨o', ho', id, pending⟩, stands⟩
    cases ok.orbit_eq ho' ho id
    obtain ⟨l, hl, waits⟩ :=
      Outcome.exists_of_mapM_ok hlists o (mem_pendingOrbits.mpr ⟨ho, pending⟩)
    exact ⟨l, hl, (waitsOf_spec ok ho waits _ _).mpr ⟨rfl, other, ranked, p, hp, rfl, stands⟩⟩

/-! ## Tickets -/

/-- Every path orbit has a ticket of its own, and the columns that a decision reads. -/
structure Store.Tickets (s : Store) : Prop where
  drawn : ∀ o ∈ s.orbits, o.kind = .orbit → ∃ t : ℤ, o.queueSeq = some t ∧ 0 ≤ t
  version : ∀ o ∈ s.orbits, o.kind = .orbit → o.policyVersion ≠ none
  digest : ∀ o ∈ s.orbits, o.kind = .orbit → o.pathspecDigest ≠ none
  apart : ∀ o ∈ s.orbits, ∀ p ∈ s.orbits, o.kind = .orbit → p.kind = .orbit →
    o.queueSeq = p.queueSeq → o.orbitId = p.orbitId

theorem Store.Tickets.micro {c : Scope} {E : TaskId → Prop} (h : s.Tickets) (first : -1 ≤ s.seq)
    (intents : s.Intents) (ok : s.Ok) (step : Micro c E s s') : s'.Tickets where
  drawn := by
    intro o' ho' kind
    rcases step.row_back ok ho' with ⟨o, ho, same, -⟩ | ⟨row, -, -⟩
    · rw [same.queueSeq]
      exact h.drawn o ho (same.kind ▸ kind)
    · exact ⟨_, (row.claimed kind).ticket, by omega⟩
  version := by
    intro o' ho' kind
    rcases step.row_back ok ho' with ⟨o, ho, same, -⟩ | ⟨row, -, -⟩
    · rw [same.policyVersion]
      exact h.version o ho (same.kind ▸ kind)
    · rw [(row.claimed kind).policy]
      simp
  digest := by
    intro o' ho' kind
    rcases step.row_back ok ho' with ⟨o, ho, same, -⟩ | ⟨row, -, -⟩
    · rw [same.pathspecDigest]
      exact h.digest o ho (same.kind ▸ kind)
    · exact (row.claimed kind).digest
  apart := by
    -- a new row has a ticket that no other one has drawn
    have fresh {o' p : Orbit} (row : NewRow c s o') (kind : o'.kind = .orbit) (hp : p ∈ s.orbits)
        (kind' : p.kind = .orbit) : o'.queueSeq ≠ p.queueSeq := by
      intro same
      have below := intents.ticket p hp kind' _ (same.symm.trans (row.claimed kind).ticket)
      omega
    intro o' ho' p' hp' kind kind' same
    rcases step.row_back ok ho' with ⟨o, ho, row, -⟩ | ⟨row, new, -⟩ <;>
      rcases step.row_back ok hp' with ⟨p, hp, row', -⟩ | ⟨row', new', -⟩
    · rw [row.queueSeq, row'.queueSeq] at same
      rw [row.orbitId, row'.orbitId]
      exact h.apart o ho p hp (row.kind ▸ kind) (row'.kind ▸ kind') same
    · rw [row.queueSeq] at same
      exact absurd same.symm (fresh row' kind' ho (row.kind ▸ kind))
    · rw [row'.queueSeq] at same
      exact absurd same (fresh row kind hp (row'.kind ▸ kind'))
    · exact new.trans new'.symm

theorem Store.Tickets.empty : ({} : Store).Tickets where
  drawn := fun o ho => by cases ho
  version := fun o ho => by cases ho
  digest := fun o ho => by cases ho
  apart := fun o ho => by cases ho

/-- The tickets are a matter of the rows. -/
theorem Store.SameRows.tickets (h : s.SameRows s') (tickets : s.Tickets) : s'.Tickets where
  drawn := by
    intro o' ho' kind
    obtain ⟨o, ho, row⟩ := h.back o' ho'
    rw [row.queueSeq]
    exact tickets.drawn o ho (row.kind ▸ kind)
  version := by
    intro o' ho' kind
    obtain ⟨o, ho, row⟩ := h.back o' ho'
    rw [row.policyVersion]
    exact tickets.version o ho (row.kind ▸ kind)
  digest := by
    intro o' ho' kind
    obtain ⟨o, ho, row⟩ := h.back o' ho'
    rw [row.pathspecDigest]
    exact tickets.digest o ho (row.kind ▸ kind)
  apart := by
    intro o' ho' p' hp' kind kind' ticket
    obtain ⟨o, ho, row⟩ := h.back o' ho'
    obtain ⟨p, hp, row'⟩ := h.back p' hp'
    rw [row.queueSeq, row'.queueSeq] at ticket
    rw [row.orbitId, row'.orbitId]
    exact tickets.apart o ho p hp (row.kind ▸ kind) (row'.kind ▸ kind') ticket

/-- A priority that a row has is the one it asks with. -/
theorem effectivePriority_asks {policy : QueuePolicy} {base e : ℤ} {version : Option PolicyVersion}
    {enqueuedAt : Option Time} (h : policy.effectivePriority base version enqueuedAt now = some e) :
    policy.effectivePriority base version enqueuedAt now true = some e := by
  rw [QueuePolicy.effectivePriority] at h ⊢
  split
  · rename_i fixed
    rwa [if_pos fixed] at h
  rename_i other
  rw [if_neg other] at h
  split
  · rename_i accepts
    rw [if_pos accepts] at h
    cases enqueuedAt with
    | none => simp at h
    | some t => simpa using h
  · rename_i accepts
    rw [if_neg accepts] at h
    cases h

/-- Of two queued rows of known policies one goes before the other. -/
theorem Store.Tickets.total (h : s.Tickets) (ho : o ∈ s.orbits) (hp : p ∈ s.orbits)
    (queued : o.isPending = true) (queued' : p.isPending = true)
    (ranked : rankObservation cfg o now ≠ none) (ranked' : rankObservation cfg p now ≠ none)
    (other : o.orbitId ≠ p.orbitId) : o.Outranks cfg now p ∨ p.Outranks cfg now o := by
  have rank {r : Orbit} (hr : r ∈ s.orbits) (queued : r.isPending = true)
      (ranked : rankObservation cfg r now ≠ none) : ∃ e t : ℤ, r.queueSeq = some t ∧
        r.rank cfg now = some (toLex (-e, t)) ∧ r.asks cfg now = some (toLex (-e, t)) := by
    obtain ⟨state, kind⟩ := isPending_iff.mp queued
    obtain ⟨t, ticket, positive⟩ := h.drawn r hr kind
    obtain ⟨e, observed⟩ := Option.ne_none_iff_exists'.mp ranked
    rw [rankObservation, state] at observed
    have priority : cfg.policy.effectivePriority r.priority r.policyVersion r.enqueuedAt now =
        some e := by simpa using observed
    refine ⟨e, t, ticket, ?_, ?_⟩
    · simp [Orbit.rank, QueuePolicy.rankKey, ticket, not_lt.mpr positive, priority]
    · simp [Orbit.asks, QueuePolicy.rankKey, ticket, not_lt.mpr positive,
        effectivePriority_asks priority]
  obtain ⟨e, t, ticket, key, asks⟩ := rank ho queued ranked
  obtain ⟨e', t', ticket', key', asks'⟩ := rank hp queued' ranked'
  have apart : t ≠ t' := by
    rintro rfl
    exact other (h.apart o ho p hp (isPending_iff.mp queued).2 (isPending_iff.mp queued').2
      (ticket.trans ticket'.symm))
  have outranks {r : Orbit} {k k' : Rank} (key : r.rank cfg now = some k) (less : k < k') :
      pendingOutranks cfg.policy k' now r.row = true := by
    rw [pendingOutranks]
    split
    · have same : cfg.policy.rankKey r.row.priority r.row.queueSeq r.row.policyVersion
          r.row.enqueuedAt now = some k := key
      rw [same]
      exact decide_eq_true less
    · rfl
  have ne : (toLex (-e, t) : Rank) ≠ toLex (-e', t') := by
    intro same
    exact apart (congrArg (fun k => (ofLex k).2) same)
  rcases lt_or_gt_of_ne ne with less | less
  · exact Or.inl ⟨_, asks', outranks key less⟩
  · exact Or.inr ⟨_, asks, outranks key' less⟩

/-- A visit of the queue makes nobody wait who did not. -/
theorem promotePending_waits (ok : s.Ok) (tickets : s.Tickets)
    (h : promotePending cfg now s = .ok s') {a b : AgentId} (waits : s'.AgentWaits cfg now a b) :
    s.AgentWaits cfg now a b := by
  obtain ⟨pass, same, -, ok'⟩ := promotePending_pass ok h
  obtain ⟨o', ho', p', hp', rfl, rfl, other, ranked', waits⟩ := waits
  obtain ⟨o, ho, row⟩ := same.back o' ho'
  obtain ⟨p, hp, row'⟩ := same.back p' hp'
  rw [same.clash, same.before, row.orbitId, row'.orbitId] at waits
  have queued {r : Orbit} (hr : r ∈ s.orbits) (mem : r.orbitId ∈ s.line.queue) :
      r.isPending = true := by
    obtain ⟨r₁, hr₁, id, pending⟩ := mem
    cases ok.orbit_eq hr₁ hr id
    exact pending
  have pending : o.isPending = true := queued ho (pass.mono.2.1 waits.1)
  have ranked : rankObservation cfg o now ≠ none := by
    obtain ⟨r, hr, id, pending'⟩ := waits.1
    have eq : r = o' := ok'.orbit_eq hr ho' (id.trans row.orbitId.symm)
    subst eq
    have state : r.state = o.state :=
      (isPending_iff.mp pending').1.trans (isPending_iff.mp pending).1.symm
    rwa [rankObservation, ← row.priority, ← row.policyVersion, ← row.enqueuedAt, ← state]
  refine ⟨o, ho, p, hp, row.agentId.symm, row'.agentId.symm, other, ranked, ?_⟩
  let known (i : OrbitId) : Prop :=
    ∃ r ∈ s.orbits, r.orbitId = i ∧ rankObservation cfg r now ≠ none
  have asks : known o.orbitId := ⟨o, ho, rfl, ranked⟩
  refine pass.waits ?_ ?_ asks waits
  · rintro i j ⟨q, hq, r, hr, rfl, rfl, clash⟩
    exact ⟨r, hr, q, hq, rfl, rfl, (Orbit.clashes_comm r q).trans clash⟩
  · rintro i j ⟨q, hq, rfl, first⟩ ⟨r, hr, rfl, may⟩ mem mem' - ne
    rcases tickets.total hq hr (queued hq mem) (queued hr mem') first may.ranked ne with
      goes | goes
    · exact Or.inl ⟨q, hq, r, hr, rfl, rfl, goes⟩
    · exact Or.inr ⟨r, hr, q, hq, rfl, rfl, goes⟩

/-! ## The denials -/

/-- Queued rows are dropped from the queue, and nothing else happens to the rows. -/
structure Store.Drops (s s' : Store) : Prop where
  same : s.SameRows s'
  agents : s'.agents = s.agents
  pending : ∀ o ∈ s'.orbits, o.isPending = true → o ∈ s.orbits

theorem Store.Drops.refl (s : Store) : s.Drops s := ⟨.refl s, rfl, fun _ ho _ => ho⟩

theorem Store.Drops.trans (h : s.Drops s₁) (h' : s₁.Drops s') : s.Drops s' where
  same := h.same.trans h'.same
  agents := h'.agents.trans h.agents
  pending := fun o ho pending => h.pending o (h'.pending o ho pending) pending

theorem Store.Turns.drops (h : s.Turns o .DENIED s') (ok : s.Ok) (ho : o ∈ s.orbits) :
    s.Drops s' := by
  refine ⟨h.same ok ho, h.agents, fun r hr pending => ?_⟩
  obtain ⟨o', -, denied, rows⟩ := h.rows
  rcases (rows r).mp hr with ⟨hr, -⟩ | rfl
  · exact hr
  · rw [Orbit.isPending, denied] at pending
    cases pending

theorem timeoutOrbit_turns (ok : s.Ok) (ho : o ∈ s.orbits) (h : timeoutOrbit now s o = .ok s') :
    s.Turns o .DENIED s' := by
  rw [timeoutOrbit, Outcome.bind_eq_ok] at h
  obtain ⟨id, -, h⟩ := h
  rw [Outcome.bind_eq_ok] at h
  obtain ⟨s₁, announced, h⟩ := h
  cases h
  have quiet := (assertAdmissionProjection_spec announced).store
  subst quiet
  exact ok.turns ho rfl rfl rfl rfl

theorem denyVictim_turns {reason : TerminalReason} (ok : s.Ok) (ho : o ∈ s.orbits)
    (h : denyVictim cfg now reason s o = .ok s') : s.Turns o .DENIED s' := by
  rw [denyVictim, Outcome.bind_eq_ok] at h
  obtain ⟨d, -, h⟩ := h
  rw [Outcome.bind_eq_ok] at h
  obtain ⟨id, -, h⟩ := h
  rw [Outcome.bind_eq_ok] at h
  obtain ⟨s₁, announced, h⟩ := h
  cases h
  have quiet := (assertAdmissionProjection_spec announced).store
  subst quiet
  exact ok.turns ho rfl rfl rfl rfl

/-- The rows that a timeout visits leave the queue. -/
theorem timeoutRows_drops {xs : List Orbit} (ok : s.Ok)
    (distinct : Table.Distinct Orbit.orbitId xs)
    (sub : ∀ o ∈ xs, o ∈ s.orbits ∧ o.isPending = true)
    (h : xs.foldlM (timeoutOrbit now) s = .ok s') :
    s.Drops s' ∧ s'.Ok ∧ ∀ o ∈ s'.orbits, o.isPending = true → o ∉ xs := by
  induction xs generalizing s with
  | nil =>
      rw [List.foldlM_nil, Outcome.pure_eq_ok] at h
      subst h
      exact ⟨.refl s, ok, by simp⟩
  | cons o xs ih =>
      rw [List.foldlM_cons, Outcome.bind_eq_ok] at h
      obtain ⟨s₁, round, h⟩ := h
      obtain ⟨ho, pending⟩ := sub o (List.mem_cons_self ..)
      obtain ⟨first, rest⟩ := List.nodup_cons.mp distinct
      have wrote : Wrote ⟨{}, now, fun _ => False⟩ nobody s o s₁ :=
        timeoutOrbit_wrote (c := ⟨{}, now, fun _ => False⟩) pending round
      have ok₁ : s₁.Ok := ok.micros (wrote.micros ok ho)
      have turns := timeoutOrbit_turns ok ho round
      have sub₁ : ∀ r ∈ xs, r ∈ s₁.orbits ∧ r.isPending = true := by
        intro r hr
        obtain ⟨mem, queued⟩ := sub r (List.mem_cons_of_mem _ hr)
        refine ⟨wrote.others mem fun id => first ?_, queued⟩
        rw [← id]
        exact List.mem_map_of_mem hr
      obtain ⟨drops, ok', none⟩ := ih ok₁ rest sub₁ h
      refine ⟨(turns.drops ok ho).trans drops, ok', fun r hr queued => ?_⟩
      have mem : r ∈ s₁.orbits := drops.pending r hr queued
      obtain ⟨o', -, denied, rows⟩ := turns.rows
      intro visited
      rcases List.mem_cons.mp visited with rfl | later
      · rcases (rows r).mp mem with ⟨-, other⟩ | same
        · exact other rfl
        · rw [Orbit.isPending, same, denied] at queued
          cases queued
      · exact none r hr queued later

/-- After the timeouts no queued row is overdue. -/
theorem timeoutPending_timely (ok : s.Ok) (h : timeoutPending now s = .ok s') :
    s.Drops s' ∧ s'.Ok ∧
      ∀ o ∈ s'.orbits, o.isPending = true → reached o.waitDeadline now = false := by
  have mem (o : Orbit) : o ∈ s.duePendingOrbits now ↔
      o ∈ s.orbits ∧ o.isPending = true ∧ reached o.waitDeadline now = true := by
    simp [Store.duePendingOrbits]
  obtain ⟨drops, ok', none⟩ := timeoutRows_drops ok
    (distinct_insertionSort (ok.orbitIds.filter _))
    (fun o ho => ⟨((mem o).mp ho).1, ((mem o).mp ho).2.1⟩) h
  refine ⟨drops, ok', fun o ho pending => ?_⟩
  by_contra overdue
  exact none o ho pending
    ((mem o).mpr ⟨drops.pending o ho pending, pending, by simpa using overdue⟩)

/-- After the denials no agent waits for himself. -/
theorem denyCyclesLoop_acyclic {reason : TerminalReason} {fuel : ℕ} (ok : s.Ok)
    (h : denyCyclesLoop cfg now reason fuel s = .ok s') :
    s.Drops s' ∧ s'.Ok ∧ ∀ a, ¬ Relation.TransGen (s'.AgentWaits cfg now) a a := by
  induction fuel generalizing s with
  | zero => cases h
  | succ fuel ih =>
      rw [denyCyclesLoop, Outcome.bind_eq_ok] at h
      obtain ⟨waits, hwaits, h⟩ := h
      split at h
      · rename_i acyclic
        cases h
        refine ⟨.refl s', ok, fun a circle => ?_⟩
        refine Digraph.findCycle_none mem_sortAgents acyclic a ?_
        exact Relation.TransGen.mono (fun x y waits => (waitFor_spec ok hwaits x y).mpr waits) _ _
          circle
      · split at h
        · cases h
        rename_i victim found
        rw [Outcome.bind_eq_ok] at h
        obtain ⟨s₁, denied, h⟩ := h
        obtain ⟨ho, pending⟩ := mem_cycleSources ok hwaits (victimOf_mem found)
        have wrote : Wrote ⟨cfg, now, fun _ => False⟩ nobody s victim s₁ :=
          denyVictim_wrote (c := ⟨cfg, now, fun _ => False⟩) pending denied
        obtain ⟨drops, ok', acyclic⟩ := ih (ok.micros (wrote.micros ok ho)) h
        exact ⟨((denyVictim_turns ok ho denied).drops ok ho).trans drops, ok', acyclic⟩

/-! ## What is left -/

/-- There is nothing left to do: no queued row is overdue, each one that may be promoted has another
in its way, and no agent waits for himself. -/
structure Store.Settled (cfg : Cfg) (now : Time) (s : Store) : Prop where
  timely : ∀ o ∈ s.orbits, o.isPending = true → reached o.waitDeadline now = false
  blocked : ∀ o ∈ s.orbits, o.isPending = true → s.MayPromote cfg now o → ∃ p ∈ s.orbits,
    p.orbitId ≠ o.orbitId ∧ o.clashes p = true ∧
      (p.isHeld = true ∨ p.isPending = true ∧ p.Outranks cfg now o)
  acyclic : ∀ a, ¬ Relation.TransGen (s.AgentWaits cfg now) a a

/-- A row that is not free has another one in its way. -/
theorem Store.Ok.blocked_iff (ok : s.Ok) (ho : o ∈ s.orbits) :
    ¬ Free s.Clash (s.Before cfg now) s.line o.orbitId ↔ ∃ p ∈ s.orbits,
      p.orbitId ≠ o.orbitId ∧ o.clashes p = true ∧
        (p.isHeld = true ∨ p.isPending = true ∧ p.Outranks cfg now o) := by
  rw [Free, not_forall_not]
  constructor
  · rintro ⟨i, blocks⟩
    obtain ⟨p, hp, rfl⟩ := Store.exists_of_blocks blocks
    exact ⟨p, hp, (ok.blocks_iff ho hp).mp blocks⟩
  · rintro ⟨p, hp, blocks⟩
    exact ⟨p.orbitId, (ok.blocks_iff ho hp).mpr blocks⟩

/-- A settlement leaves nothing to do. -/
theorem settle_settled (ok : s.Ok) (tickets : s.Tickets)
    (h : settle cfg now s = .ok s') : s'.Settled cfg now := by
  rw [settle, Outcome.bind_eq_ok] at h
  obtain ⟨s₁, timeout, h⟩ := h
  rw [Outcome.bind_eq_ok] at h
  obtain ⟨s₂, deny, promote⟩ := h
  obtain ⟨drops, ok₁, timely⟩ := timeoutPending_timely ok timeout
  obtain ⟨drops', ok₂, acyclic⟩ := denyCyclesLoop_acyclic ok₁ deny
  obtain ⟨pass, same, agents, ok'⟩ := promotePending_pass ok₂ promote
  refine ⟨fun o' ho' pending => ?_, fun o ho pending may => ?_, fun a circle => ?_⟩
  · -- a row that is still queued was queued before, with the same deadline
    obtain ⟨o, ho, row⟩ := same.back o' ho'
    obtain ⟨r, hr, id, queued⟩ := pass.mono.2.1 ⟨o', ho', rfl, pending⟩
    rw [ok₂.orbit_eq hr ho (id.trans row.orbitId)] at queued
    have deadline : o'.waitDeadline = o.waitDeadline := by rw [row]
    rw [deadline]
    exact timely o (drops'.pending o ho queued) queued
  · exact (ok'.blocked_iff ho).mp (promotePending_settled ok₂ promote ho pending may)
  · refine acyclic a (Relation.TransGen.mono (fun x y waits => ?_) _ _ circle)
    exact promotePending_waits ok₂ ((drops.trans drops').same.tickets tickets) promote waits

theorem Store.Settled.timeout (settled : s.Settled cfg now) : timeoutPending now s = .ok s := by
  have none : s.duePendingOrbits now = [] := by
    refine List.eq_nil_iff_forall_not_mem.mpr fun o due => ?_
    simp only [Store.duePendingOrbits, List.mem_insertionSort, List.mem_filter,
      Bool.and_eq_true] at due
    rw [settled.timely o due.1 due.2.1] at due
    cases due.2.2
  rw [timeoutPending, none]
  rfl

theorem Store.Settled.denials (settled : s.Settled cfg now) (ok : s.Ok)
    (h : denyReservationCycles cfg now s = .ok s') : s' = s := by
  rw [denyReservationCycles, denyCyclesLoop, Outcome.bind_eq_ok] at h
  obtain ⟨waits, hwaits, h⟩ := h
  split at h
  · cases h
    rfl
  · rename_i cycle found
    obtain ⟨a, circle⟩ := (Digraph.findCycle_some mem_sortAgents found).cycle
    refine absurd (Relation.TransGen.mono (fun x y edge => ?_) _ _ circle) (settled.acyclic a)
    exact (waitFor_spec ok hwaits x y).mp edge

/-- Another settlement at the same time neither grants nor ends anything. -/
theorem Store.Settled.again (settled : s.Settled cfg now) (ok : s.Ok)
    (h : settle cfg now s = .ok s') : s.SameRows s' ∧ s'.line = s.line ∧ s'.agents = s.agents := by
  rw [settle, settled.timeout, Outcome.bind_eq_ok] at h
  obtain ⟨s₁, timeout, h⟩ := h
  cases timeout
  rw [Outcome.bind_eq_ok] at h
  obtain ⟨s₁, deny, promote⟩ := h
  cases settled.denials ok deny
  obtain ⟨pass, same, agents, -⟩ := promotePending_pass ok promote
  refine ⟨same, pass.again fun i visited ready queued => ?_, agents⟩
  obtain ⟨o, ho, rfl, may⟩ := ready
  obtain ⟨r, hr, id, pending⟩ := queued
  rw [ok.orbit_eq hr ho id] at pending
  exact (ok.blocked_iff ho).mpr (settled.blocked o ho pending may)

/-! ## A claim that queues -/

/-- The check on one agent decides whether it waits for itself. -/
theorem cycleWith_spec {agent : AgentId} {found : Bool} (ok : s.Ok)
    (h : cycleWith cfg s agent now = .ok found) :
    found = true ↔ Relation.TransGen (s.AgentWaits cfg now) agent agent := by
  rw [cycleWith, Outcome.bind_eq_ok] at h
  obtain ⟨waits, hwaits, h⟩ := h
  cases h
  rw [Digraph.onCycle_iff mem_sortAgents]
  constructor
  · apply Relation.TransGen.mono
    intro x y edge
    exact (waitFor_spec ok hwaits x y).mp edge
  · apply Relation.TransGen.mono
    intro x y waits
    exact (waitFor_spec ok hwaits x y).mpr waits

/-- A claim that queues is denied if and only if its agent then waits for itself. -/
theorem claimQueue_denied_iff {c : Scope} {a : ClaimArgs} {generation epoch : ℕ}
    {d : AdmissionDecision} {r : Result} (ok : s.Ok) (request : Admissible c s a generation)
    (h : claimQueue c.cfg s.bumpUuid a (s.ticket generation epoch c.now) d = .ok (s', r)) :
    r.reply.deadlock = true ↔ ∃ s₁,
      queueRow c.cfg s.bumpUuid a (s.ticket generation epoch c.now) d = .ok s₁ ∧
        Relation.TransGen (s₁.AgentWaits c.cfg c.now) a.agentId a.agentId := by
  rw [claimQueue, Outcome.bind_eq_ok] at h
  obtain ⟨s₁, queued, h⟩ := h
  rw [Outcome.bind_eq_ok] at h
  obtain ⟨found, check, h⟩ := h
  have ok₁ : s₁.Ok := ok.micros ((queueRow_keeps (E := nobody) request queued).1 ok).1
  have circle := cycleWith_spec ok₁ check
  have only : (∃ s₂, queueRow c.cfg s.bumpUuid a (s.ticket generation epoch c.now) d = .ok s₂ ∧
      Relation.TransGen (s₂.AgentWaits c.cfg c.now) a.agentId a.agentId) ↔ found = true := by
    rw [circle, queued]
    simp [Store.ticket]
  rw [only]
  split at h
  · rename_i denied
    rw [Outcome.bind_eq_ok] at h
    obtain ⟨s₂, -, h⟩ := h
    cases h
    simp [Result.set, denied]
  · rename_i waits
    cases h
    simp [Result.set, ClaimArgs.reply, waits]

end Omd
