import Omd.Steps

/-!
# The rows of a request

Each time a request is admitted its row gets the next generation, one above the rows of the
request in the table: a claim after a denial of policy, a rollover after another end.  The
collector moves a row that has ended to the archive, by its own stamp.  So the generations
in the table and in the archive have no gap, a request that is refused has no new row, and a
row that has ended is never written again.
-/

namespace Omd

open Lib

variable {cfg : Cfg} {now : Time} {c : Scope} {E : TaskId → Prop} {s s' : Store}
  {id : RequestId} {o o' : Orbit}

/-- The rows of a request, those in the archive included. -/
def Store.historyOf (s : Store) (id : RequestId) : List Orbit :=
  (s.orbits ++ s.orbitsArchive).filter fun o => o.requestId = some id && o.kind = .orbit

/-- Below the generation of a row of the request each generation is that of a row. -/
def Store.Dense (s : Store) (id : RequestId) : Prop :=
  ∀ o ∈ s.historyOf id, ∀ g < o.requestGeneration, ∃ r ∈ s.historyOf id, r.requestGeneration = g

theorem mem_orbitsOfRequest :
    o ∈ s.orbitsOfRequest id ↔ o ∈ s.orbits ∧ o.requestId = some id ∧ o.kind = .orbit := by
  simp [Store.orbitsOfRequest]

theorem mem_historyOf : o ∈ s.historyOf id ↔
    (o ∈ s.orbits ∨ o ∈ s.orbitsArchive) ∧ o.requestId = some id ∧ o.kind = .orbit := by
  simp [Store.historyOf, or_and_right]

/-! ## The next generation -/

theorem lt_nextRequestGeneration (h : o ∈ s.orbitsOfRequest id) :
    o.requestGeneration < s.nextRequestGeneration id := by
  rw [Store.nextRequestGeneration]
  have mem : o.requestGeneration ∈ (s.orbitsOfRequest id).map Orbit.requestGeneration :=
    List.mem_map_of_mem h
  cases hmax : ((s.orbitsOfRequest id).map Orbit.requestGeneration).max? with
  | none =>
      rw [List.max?_eq_none_iff.mp hmax] at mem
      cases mem
  | some g => exact Nat.lt_succ_of_le ((List.max?_eq_some_iff.mp hmax).2 _ mem)

/-- Below the next generation is that of a row. -/
theorem exists_of_lt_nextRequestGeneration {g : ℕ} (h : g < s.nextRequestGeneration id) :
    ∃ r ∈ s.orbitsOfRequest id, g ≤ r.requestGeneration := by
  rw [Store.nextRequestGeneration] at h
  cases hmax : ((s.orbitsOfRequest id).map Orbit.requestGeneration).max? with
  | none =>
      rw [hmax] at h
      cases h
  | some m =>
      rw [hmax] at h
      obtain ⟨r, hr, rfl⟩ := List.mem_map.mp (List.max?_eq_some_iff.mp hmax).1
      exact ⟨r, hr, Nat.le_of_lt_succ h⟩

/-! ## The rows of a request after a change -/

/-- A row of a request was one before, and a live one was live, or the request is admitted. -/
theorem Micro.request_back (h : Micro c E s s') (ok : s.Ok) (ho' : o' ∈ s'.orbitsOfRequest id) :
    (∃ o ∈ s.orbitsOfRequest id, o.SameRow o' ∧ (o'.live = true → o.live = true)) ∨
      Claimed c s o' ∧ o'.orbitId = s.uuid := by
  obtain ⟨mem, request, kind⟩ := mem_orbitsOfRequest.mp ho'
  rcases (h.orbits ok).back mem with ⟨o, ho, step⟩ | ⟨row, new⟩
  · refine Or.inl ⟨o, mem_orbitsOfRequest.mpr ⟨ho, ?_, ?_⟩, step.row, step.change.live⟩
    · exact step.row.requestId ▸ request
    · exact step.row.kind ▸ kind
  · cases row with
    | held claimed | queued claimed => exact Or.inr ⟨claimed, new⟩
    | permit other | lease other | token other =>
        rw [other] at kind
        cases kind

/-- The archive only grows, by rows of the table. -/
theorem Micro.archive (h : Micro c E s s') : (∀ o ∈ s.orbitsArchive, o ∈ s'.orbitsArchive) ∧
    ∀ o ∈ s'.orbitsArchive, o ∈ s.orbits ∨ o ∈ s.orbitsArchive := by
  cases h with
  | archiveOrbits p _ _ frame =>
      rw [frame.orbitsArchive]
      refine ⟨fun o ho => List.mem_append_left _ ho, fun o ho => ?_⟩
      rcases List.mem_append.mp ho with ho | ho
      · exact Or.inr ho
      · exact Or.inl (List.mem_of_mem_filter ho)
  | frame frame | enroll _ _ _ _ frame | agent _ _ _ _ frame | orbit _ _ _ _ _ _ frame
  | insert _ _ _ _ _ _ _ _ frame | reject _ _ _ _ frame | summary _ _ _ frame | task _ _ _ frame
  | declare _ _ frame | publish _ _ _ frame | request _ frame | waiters _ frame
  | slots _ _ _ _ frame | flags _ frame
  | arm _ _ _ _ _ _ _ _ frame | trip _ _ _ frame | stamp _ frame | archiveTasks _ _ _ _ frame =>
      rw [frame.orbitsArchive]
      exact ⟨fun _ ho => ho, fun _ ho => Or.inr ho⟩

theorem Micro.history_back (h : Micro c E s s') (ok : s.Ok) (ho' : o' ∈ s'.historyOf id) :
    (∃ o ∈ s.historyOf id, o.SameRow o') ∨ Claimed c s o' := by
  obtain ⟨mem, request, kind⟩ := mem_historyOf.mp ho'
  rcases mem with mem | mem
  · rcases h.request_back ok (mem_orbitsOfRequest.mpr ⟨mem, request, kind⟩) with
      ⟨o, ho, same, -⟩ | ⟨claimed, -⟩
    · obtain ⟨ho, rest⟩ := mem_orbitsOfRequest.mp ho
      exact Or.inl ⟨o, mem_historyOf.mpr ⟨Or.inl ho, rest⟩, same⟩
    · exact Or.inr claimed
  · exact Or.inl ⟨o', mem_historyOf.mpr ⟨h.archive.2 o' mem, request, kind⟩, .refl o'⟩

/-- No row of a request is lost. -/
theorem Micro.history_forth (h : Micro c E s s') (ok : s.Ok) (ho : o ∈ s.historyOf id) :
    ∃ o' ∈ s'.historyOf id, o.SameRow o' := by
  obtain ⟨mem, request, kind⟩ := mem_historyOf.mp ho
  rcases mem with mem | mem
  · rcases (h.orbits ok).forth mem ok with ⟨o', ho', step⟩ | ⟨archived, -⟩
    · refine ⟨o', mem_historyOf.mpr ⟨Or.inl ho', ?_, ?_⟩, step.row⟩
      · exact step.row.requestId.trans request
      · exact step.row.kind.trans kind
    · exact ⟨o, mem_historyOf.mpr ⟨Or.inr archived, request, kind⟩, .refl o⟩
  · exact ⟨o, mem_historyOf.mpr ⟨Or.inr (h.archive.1 o mem), request, kind⟩, .refl o⟩

/-- A change keeps the rows of `orbits`, or it is the collector's. -/
theorem Micro.keeps_or_collects (h : Micro c E s s') (ok : s.Ok) :
    (∀ o ∈ s.orbits, ∃ o' ∈ s'.orbits, OrbitStep c E s o o') ∧ s'.orbitsArchive = s.orbitsArchive ∨
      ∃ p, Collected c s p ∧ s'.orbits = s.orbits.filter (fun o => !p o) ∧
        s'.orbitsArchive = s.orbitsArchive ++ s.orbits.filter p := by
  cases h with
  | archiveOrbits p _ _ frame collected =>
      exact Or.inr ⟨p, collected, frame.orbits, frame.orbitsArchive⟩
  | orbit id f news step announced known frame =>
      refine Or.inl ⟨fun o ho => ?_, frame.orbitsArchive⟩
      rw [frame.orbits]
      by_cases hid : o.orbitId = id
      · exact ⟨f o, Table.mem_modify.mpr (Or.inr ⟨o, ho, hid, rfl⟩),
          step o (ok.getOrbit.mpr ⟨ho, hid⟩)⟩
      · exact ⟨o, Table.mem_modify.mpr (Or.inl ⟨ho, hid⟩), .refl o⟩
  | insert o news row introduced id drawn ticket line frame =>
      refine Or.inl ⟨fun r hr => ⟨r, ?_, .refl r⟩, frame.orbitsArchive⟩
      rw [frame.orbits]
      exact List.mem_append_left _ hr
  | stamp now frame clock =>
      subst clock
      refine Or.inl ⟨fun o ho => ?_, frame.orbitsArchive⟩
      obtain ⟨o', ho', stamped⟩ := (stampTerminal_orbits s c.now).2 o ho
      exact ⟨o', frame.orbits ▸ ho', stamped.change E s⟩
  | frame frame | enroll _ _ _ _ frame | agent _ _ _ _ frame | reject _ _ _ _ frame
  | summary _ _ _ frame | task _ _ _ frame | declare _ _ frame | publish _ _ _ frame
  | request _ frame | waiters _ frame | slots _ _ _ _ frame | flags _ frame
  | arm _ _ _ _ _ _ _ _ frame | trip _ _ _ frame | archiveTasks _ _ _ _ frame =>
      exact Or.inl ⟨fun o ho => ⟨o, frame.orbits ▸ ho, .refl o⟩, frame.orbitsArchive⟩

/-! ## No gap -/

/-- What a row was admitted for starts at the first generation, or goes on from the last one. -/
theorem AdmittedFor.cases (h : AdmittedFor c s o) (request : o.requestId = some id) :
    NextGeneration s id o.taskId o.requestGeneration ∨
      id = RequestId.internal o.orbitId ∧ o.requestGeneration = 0 := by
  cases h with
  | named same _ next =>
      cases same.symm.trans request
      exact Or.inl next
  | made same first => exact Or.inr ⟨Option.some.inj (request.symm.trans same), first⟩

theorem Store.Dense.micro (dense : s.Dense id) (ok : s.Ok) (h : Micro c E s s') : s'.Dense id := by
  intro o' ho' g below
  have stays {r : Orbit} (hr : r ∈ s.historyOf id) (gen : r.requestGeneration = g) :
      ∃ r ∈ s'.historyOf id, r.requestGeneration = g := by
    obtain ⟨r', hr', row⟩ := h.history_forth ok hr
    exact ⟨r', hr', row.requestGeneration.trans gen⟩
  rcases h.history_back ok ho' with ⟨o, ho, row⟩ | claimed
  · obtain ⟨r, hr, gen⟩ := dense o ho g (row.requestGeneration ▸ below)
    exact stays hr gen
  · rcases claimed.request.cases (mem_historyOf.mp ho').2.1 with next | ⟨-, first⟩
    · rw [next.next] at below
      obtain ⟨r, hr, above⟩ := exists_of_lt_nextRequestGeneration below
      obtain ⟨mem, rest⟩ := mem_orbitsOfRequest.mp hr
      have old : r ∈ s.historyOf id := mem_historyOf.mpr ⟨Or.inl mem, rest⟩
      rcases above.lt_or_eq with lower | equal
      · obtain ⟨r₁, hr₁, gen⟩ := dense r old g lower
        exact stays hr₁ gen
      · exact stays old equal.symm
    · rw [first] at below
      cases below

/-- The history of every request has no gap in any reachable state. -/
theorem ReachableBy.dense {σ : Sys} {P : Sys → Env × Action → Prop} (h : ReachableBy cfg P σ)
    (id : RequestId) : σ.store.Dense id := by
  refine Sys.Ok.empty.run_invariant (I := fun s => s.Dense id)
    (fun _ _ _ _ ok dense step => dense.micro ok step) h ?_
  intro o ho
  cases ho

/-! ## Requests that are refused -/

/-- No path orbit was inserted. -/
def NoneAdmitted (s s' : Store) : Prop :=
  ∀ o' ∈ s'.orbits, o'.kind = .orbit → ∃ o ∈ s.orbits, o.SameRow o'

theorem NoneAdmitted.of_orbits (h : s'.orbits = s.orbits) : NoneAdmitted s s' :=
  fun o' ho' _ => ⟨o', h ▸ ho', .refl o'⟩

theorem NoneAdmitted.refl (s : Store) : NoneAdmitted s s := .of_orbits rfl

theorem NoneAdmitted.trans {s₁ : Store} (h : NoneAdmitted s s₁) (h' : NoneAdmitted s₁ s') :
    NoneAdmitted s s' := by
  intro o' ho' kind
  obtain ⟨o₁, ho₁, row'⟩ := h' o' ho' kind
  obtain ⟨o, ho, row⟩ := h o₁ ho₁ (row'.kind ▸ kind)
  exact ⟨o, ho, row.trans row'⟩

theorem Micro.noneAdmitted (h : Micro c E s s') (ok : s.Ok) (closed : ¬ c.may .admission) :
    NoneAdmitted s s' := by
  intro o' ho' kind
  rcases (h.orbits ok).back ho' with ⟨o, ho, step⟩ | ⟨row, -⟩
  · exact ⟨o, ho, step.row⟩
  · cases row with
    | held claimed | queued claimed => exact absurd claimed.may closed
    | permit other | lease other | token other =>
        rw [other] at kind
        cases kind

/-- A critical section that may not admit inserts no path orbit. -/
theorem Moves.noneAdmitted (h : Moves c s s') (ok : s.Ok) (closed : ¬ c.may .admission) :
    NoneAdmitted s s' := by
  refine (Moves.invariant (I := NoneAdmitted s) (fun s₁ s₂ ok₁ none move => ?_) h ok (.refl s)).2
  exact move.invariant (fun c' E s₃ s₄ within ok₃ ih change =>
    ih.trans (change.noneAdmitted ok₃ (within.forbids closed (by simp)))) ok₁ none

theorem sweepInline_noneAdmitted (h : sweepInline cfg now s = .ok s') (ok : s.Ok) :
    NoneAdmitted s s' := by
  have sweep : Moves ⟨cfg, now, fun d => d ≠ .admission⟩ s s' :=
    sweepInline_takes (by simp) ⟨by simp, by simp⟩ (by simp) h ok
  exact sweep.noneAdmitted ok (by simp)

/-- The answer refuses the request. -/
def Reply.Refused (r : Reply) : Prop := r.state = some .REJECTED ∨ r.ok = some false

variable {r : Result}

theorem claimDecide_refused {a : ClaimArgs} {generation epoch : ℕ} {rollover : Bool}
    (h : claimDecide cfg s a generation epoch rollover now = .ok (s', r))
    (refused : r.reply.Refused) : s'.orbits = s.orbits := by
  rw [claimDecide, Outcome.bind_eq_ok] at h
  obtain ⟨d, -, h⟩ := h
  split at h
  · rw [claimGrant, Outcome.bind_eq_ok] at h
    obtain ⟨s₁, -, h⟩ := h
    rw [Outcome.bind_eq_ok] at h
    obtain ⟨s₂, -, h⟩ := h
    cases h
    rcases refused with refused | refused <;> cases refused
  split at h
  · rw [claimOverload, Outcome.bind_eq_ok] at h
    obtain ⟨s₁, h₁, h⟩ := h
    cases h
    rw [(assertAdmissionProjection_spec h₁).store]
    rfl
  · rw [claimQueue, Outcome.bind_eq_ok] at h
    obtain ⟨s₁, -, h⟩ := h
    rw [Outcome.bind_eq_ok] at h
    obtain ⟨cycle, -, h⟩ := h
    split at h
    · rw [Outcome.bind_eq_ok] at h
      obtain ⟨s₂, -, h⟩ := h
      cases h
      rcases refused with refused | refused <;> cases refused
    · cases h
      rcases refused with refused | refused <;> cases refused

theorem claimSwept_refused {a : ClaimArgs} {rollover : Option ℕ}
    (h : claimSwept cfg s a rollover now = .ok (s', r)) (refused : r.reply.Refused) :
    s'.orbits = s.orbits := by
  rw [claimSwept] at h
  split at h
  · cases h
    rfl
  dsimp only at h
  rw [Outcome.bind_eq_ok] at h
  obtain ⟨gen, -, h⟩ := h
  cases gen with
  | inl reply =>
      cases h
      exact upsertAgent_orbits _ _
  | inr generation =>
      dsimp only at h
      split at h
      · cases h
        exact upsertAgent_orbits _ _
      split at h
      · cases h
        exact upsertAgent_orbits _ _
      · exact (claimDecide_refused h refused).trans (upsertAgent_orbits _ _)

/-- A claim that is refused after the sweep of its caller inserts no row. -/
theorem claim_refused {a : ClaimArgs} {observedAt : Time} {rollover : Option ℕ} {r : Reply}
    (h : claim cfg now s a (some observedAt) rollover = .ok (s', r)) (refused : r.Refused)
    (ok : s.Ok) : s'.orbits = s.orbits := by
  rw [claim] at h
  split at h
  · cases h
  split at h
  · cases h
    rfl
  rw [claimSection] at h
  split at h
  · cases h
    rfl
  split at h
  · cases h
    rfl
  rw [Outcome.bind_eq_ok] at h
  obtain ⟨⟨s₁, r₁⟩, h₁, h⟩ := h
  cases h
  rcases withIdem_cases ok h₁ with ⟨-, -, -, rfl⟩ | ⟨s₂, s₃, entered, -, body, exit⟩
  · rfl
  · rw [exit]
    exact (claimSwept_refused body refused).trans entered.orbits

theorem rolloverSwept_refused {prior : OrbitId} {agent : AgentId} {expected epoch : ℕ}
    (h : rolloverSwept cfg now s prior agent expected epoch = .ok (s', r))
    (refused : r.reply.ok ≠ some true) (ok : s.Ok) : s'.orbits = s.orbits := by
  rw [rolloverSwept] at h
  split at h
  · cases h
    rfl
  · rename_i o request hgate
    dsimp only at h
    rw [Outcome.bind_eq_ok] at h
    obtain ⟨⟨s₁, r₁⟩, h₁, h⟩ := h
    dsimp only at h
    split at h
    · rename_i rejected
      cases h
      have cleared : (s.clearIdem request).Ok :=
        ok.moves ((clearIdem_requested (c := ⟨cfg, now, fun _ => True⟩) trivial).takes ok)
      have same : s'.orbits = (s.clearIdem request).orbits := claim_refused h₁ rejected cleared
      exact same
    split at h
    · cases h
    · cases h
      exact absurd rfl refused

/-- A rollover that is not a success admits nothing. -/
theorem rolloverClaim_refused {prior : OrbitId} {agent : AgentId} {expected epoch : ℕ}
    {request : RequestId} {r : Reply}
    (h : rolloverClaim cfg now s prior agent expected epoch request = .ok (s', r))
    (refused : r.ok ≠ some true) (ok : s.Ok) : NoneAdmitted s s' := by
  rw [rolloverClaim] at h
  split at h
  · cases h
    exact .refl s
  split at h
  · cases h
    exact .refl s
  split at h
  · cases h
    exact .refl s
  split at h
  · cases h
    exact .refl s
  split at h
  · cases h
    exact .refl s
  rw [Outcome.bind_eq_ok] at h
  obtain ⟨⟨s₁, r₁⟩, h₁, h⟩ := h
  cases h
  rcases withIdem_cases ok h₁ with ⟨-, -, -, same⟩ | ⟨s₂, s₃, entered, ok₂, body, exit⟩
  · rw [same]
    exact .refl s
  · rw [Outcome.bind_eq_ok] at body
    obtain ⟨s₄, sweep, body⟩ := body
    have ok₄ : s₄.Ok :=
      ok₂.moves (sweepInline_takes (c := ⟨cfg, now, fun _ => True⟩) trivial
        ⟨trivial, fun _ => trivial⟩ (fun _ _ => trivial) sweep ok₂)
    have swept : NoneAdmitted s₂ s₄ := sweepInline_noneAdmitted sweep ok₂
    have same : s₃.orbits = s₄.orbits := rolloverSwept_refused body refused ok₄
    rw [exit]
    exact (NoneAdmitted.of_orbits entered.orbits).trans (swept.trans (.of_orbits same))

/-! ## Rows that have ended -/

/-- A row of any kind that has ended keeps its state. -/
theorem OrbitChange.final (h : OrbitChange c E s o o') (ended : o.live = false) :
    o'.state = o.state := by
  have lived (live : o.live = true) : o'.state = o.state := by
    rw [live] at ended
    cases ended
  cases h with
  | keep state | rebind _ _ state => exact state
  | expire due => exact lived (by simp [Orbit.live, (isDue_iff.mp due).2.1])
  | deny pending => exact lived (by simp [Orbit.live, pending])
  | promote pending => exact lived (by simp [Orbit.live, (isPending_iff.mp pending).1])
  | release _ held | lease _ held | permit _ held | token _ held =>
      exact lived (by simp [Orbit.live, held])
  | cancelled _ _ _ _ live | reclaimed _ _ live => exact lived live
  | attempt _ _ _ state =>
      rcases state with state | ⟨held, -⟩
      · exact state
      · exact lived (by simp [Orbit.live, held])

/-- A path orbit that has ended keeps the fence and the decision it ended with. -/
theorem OrbitChange.recorded (h : OrbitChange c E s o o') (kind : o.kind = .orbit)
    (ended : o.live = false) : o'.record = o.record := by
  have lived (live : o.live = true) : o'.record = o.record := by
    rw [live] at ended
    cases ended
  cases h with
  | keep _ _ _ _ record | attempt _ _ _ _ _ record => exact record ended
  | expire due => exact lived (by simp [Orbit.live, (isDue_iff.mp due).2.1])
  | deny pending => exact lived (by simp [Orbit.live, pending])
  | promote pending => exact lived (by simp [Orbit.live, (isPending_iff.mp pending).1])
  | release _ held => exact lived (by simp [Orbit.live, held])
  | cancelled _ _ _ _ live | reclaimed _ _ live => exact lived live
  | lease other | permit other | token other | rebind other => simp [kind] at other

/-- A row of the request that has ended, as the store has it now. -/
def Store.Keeps (s : Store) (o : Orbit) : Prop :=
  ∃ o', (o' ∈ s.orbits ∨ o' ∈ s.orbitsArchive) ∧ o.SameRow o' ∧ o'.state = o.state ∧
    o'.record = o.record

theorem Store.Keeps.micro (kept : s.Keeps o) (kind : o.kind = .orbit) (ended : o.live = false)
    (ok : s.Ok) (h : Micro c E s s') : s'.Keeps o := by
  obtain ⟨r, hr, row, state, record⟩ := kept
  have ended' : r.live = false := by
    rw [Orbit.live, state]
    exact ended
  rcases hr with hr | hr
  · rcases (h.orbits ok).forth hr ok with ⟨r', hr', step⟩ | ⟨archived, -⟩
    · have state' := step.change.final ended'
      have record' := step.change.recorded (row.kind.trans kind) ended'
      exact ⟨r', Or.inl hr', row.trans step.row, state'.trans state, record'.trans record⟩
    · exact ⟨r, Or.inr archived, row, state, record⟩
  · exact ⟨r, Or.inr (h.archive.1 r hr), row, state, record⟩

/-- What has ended is kept as it ended, over a whole run. -/
theorem Sys.Ok.keeps {σ σ' : Sys} {P : Sys → Env × Action → Prop} (ok : σ.Ok)
    (run : Transition.Run (Step cfg) P σ σ') (ho : o ∈ σ.store.orbits) (kind : o.kind = .orbit)
    (ended : o.live = false) : σ'.store.Keeps o :=
  Sys.Ok.run_invariant (I := fun s => s.Keeps o)
    (fun _ _ _ _ ok kept step => kept.micro kind ended ok step) run ok
    ⟨o, Or.inl ho, .refl o, rfl, rfl⟩

end Omd
