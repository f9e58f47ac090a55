import Omd.Generations

/-!
# The generations of a run

The rows of a request in the table are its last ones: each is admitted with the generation
after the one before it, and the collector takes them from the first on, as long as it finds
the earlier ones due when it finds a later one due.  A clock that steps back may stamp a later
row before an earlier one; then the collector leaves a gap, and the generation of the row it
took is made again.  In a run whose collections are orderly the generations in the table are
apart, without a gap and with the live one last, and a row has one successor.
-/

namespace Omd

open Lib

variable {cfg : Cfg} {now : Time} {c : Scope} {E : TaskId → Prop} {s s' s₀ : Store}
  {id : RequestId} {o o' r q : Orbit}

/-- When a row ended: its stamp, or what the collector would stamp it with. -/
def Orbit.endedAt (now : Time) (o : Orbit) : Time := o.terminalAt.getD (o.releasedAt.getD now)

/-- The generations of a request: those in the table are apart, the live one is the last, and there
is no gap between them, nor below any in the history; and what follows a row of the table is one
row, whether it was archived or not. -/
structure Store.Generations (s : Store) (id : RequestId) : Prop where
  distinct : ∀ o ∈ s.orbitsOfRequest id, ∀ r ∈ s.orbitsOfRequest id,
    o.requestGeneration = r.requestGeneration → o = r
  last : ∀ o ∈ s.orbitsOfRequest id, o.live = true → ∀ r ∈ s.orbitsOfRequest id,
    r.requestGeneration ≤ o.requestGeneration
  contiguous : ∀ o ∈ s.orbitsOfRequest id, ∀ r ∈ s.orbitsOfRequest id, ∀ g,
    o.requestGeneration < g → g < r.requestGeneration →
      ∃ q ∈ s.orbitsOfRequest id, q.requestGeneration = g
  successor : ∀ o ∈ s.orbitsOfRequest id, ∀ r ∈ s.historyOf id, ∀ q ∈ s.historyOf id,
    o.orbitId < r.orbitId → o.orbitId < q.orbitId →
      r.requestGeneration = o.requestGeneration + 1 →
        q.requestGeneration = o.requestGeneration + 1 → r.orbitId = q.orbitId
  dense : s.Dense id

/-- When a row of the request is due, those before it are. -/
def Store.DueInOrder (s : Store) (id : RequestId) (now : Time) (retention : ℚ) : Prop :=
  ∀ o ∈ s.orbitsOfRequest id, ∀ r ∈ s.orbitsOfRequest id,
    r.requestGeneration < o.requestGeneration → o.endedAt now ≤ now - retention →
      r.endedAt now ≤ now - retention

/-- A step that names no request that the server has yet to make up, and collects only when the
rows of each request are due in order. -/
structure Orderly (cfg : Cfg) (σ : Sys) (l : Env × Action) : Prop where
  issued : ∀ id, NamesRequest σ l.2 id → ∀ k, σ.store.uuid ≤ k → id ≠ RequestId.internal k
  collects : Collects σ l.2 → ∀ retention, cfg.terminalRetention = some retention →
    ∀ id, σ.store.DueInOrder id l.1.now retention

/-! ## The rows of the requests -/

/-- What the rows say that are about requests: what was made up for one was drawn, what lives has
no stamp, and no token of a task is among them. -/
structure Store.Requests (s : Store) : Prop where
  issued : ∀ o, o ∈ s.orbits ∨ o ∈ s.orbitsArchive → o.kind = .orbit →
    ∀ k, o.requestId = some (RequestId.internal k) → k < s.uuid
  archived : ∀ o ∈ s.orbitsArchive, o.orbitId < s.uuid
  unended : ∀ o ∈ s.orbits, o.kind = .orbit → o.live = true →
    o.releasedAt = none ∧ o.terminalAt = none
  tokens : ∀ t ∈ s.tasks, ∀ o ∈ s.orbits, t.connectTokenId = some o.orbitId →
    o.kind = .merge_token

theorem RequestId.internal_inj {k k' : OrbitId} (h : internal k = internal k') : k = k' := by
  have digits : Nat.toDigits 10 k = Nat.toDigits 10 k' := by
    simpa using congrArg String.toList ((String.append_right_inj _).mp h)
  have value (n : ℕ) : Nat.ofDigitChars 10 (Nat.toDigits 10 n) 0 = n :=
    Nat.ofDigitChars_toDigits (by decide) le_rfl
  rw [← value k, ← value k', digits]

/-- What is made up for a row has no row yet, so that each row has the next generation. -/
theorem Store.Requests.next (h : s.Requests) (claimed : Claimed c s o) (new : o.orbitId = s.uuid)
    (request : o.requestId = some id) :
    NextGeneration s id o.taskId o.requestGeneration := by
  rcases claimed.request.cases request with next | ⟨rfl, first⟩
  · exact next
  · have unused : s.orbitsOfRequest (RequestId.internal o.orbitId) = [] := by
      refine List.eq_nil_iff_forall_not_mem.mpr fun r hr => ?_
      obtain ⟨mem, same, kind⟩ := mem_orbitsOfRequest.mp hr
      exact absurd new (h.issued r (Or.inl mem) kind _ same).ne
    have latest : s.latestOrbitByRequest (some (RequestId.internal o.orbitId)) = none := by
      rw [Store.latestOrbitByRequest, unused]
      rfl
    refine ⟨?_, fun r hr => ?_, fun r hr => ?_⟩
    · rw [first, Store.nextRequestGeneration, unused]
      rfl
    · cases latest.symm.trans hr
    · cases latest.symm.trans hr

theorem Micro.orbit_back (h : Micro c E s s') (ok : s.Ok) (ho' : o' ∈ s'.orbits)
    (kind : o'.kind = .orbit) :
    (∃ o ∈ s.orbits, OrbitStep c E s o o') ∨ Claimed c s o' ∧ o'.orbitId = s.uuid := by
  rcases (h.orbits ok).back ho' with old | ⟨row, new⟩
  · exact Or.inl old
  · cases row with
    | held claimed | queued claimed => exact Or.inr ⟨claimed, new⟩
    | permit other | lease other | token other =>
        rw [other] at kind
        cases kind

theorem OrbitStep.live (h : OrbitStep c E s o o') (live : o'.live = true) : o.live = true :=
  h.change.live live

/-- A change does not move the end of a row: what lives ends now if it ends. -/
theorem OrbitStep.endedAt (h : OrbitStep c E s o o') (kind : o.kind = .orbit)
    (unended : o.live = true → o.releasedAt = none ∧ o.terminalAt = none) :
    o'.endedAt c.now = o.endedAt c.now := by
  rcases h.stamps kind with ⟨stamp, release | ⟨live, -, release⟩⟩ | ⟨-, none, stamp, -⟩
  · rw [Orbit.endedAt, Orbit.endedAt, stamp, release]
  · rw [Orbit.endedAt, Orbit.endedAt, stamp, release, (unended live).1, (unended live).2]
    rfl
  · rw [Orbit.endedAt, Orbit.endedAt, stamp, none]
    rfl

theorem Store.Requests.micro (h : s.Requests) (ok : s.Ok) (step : Micro c E s s')
    (names : ∀ id, c.may (.name id) → ∀ k, id = RequestId.internal k → k < s.uuid) :
    s'.Requests where
  issued := by
    have grown : s.uuid ≤ s'.uuid := step.uuid
    rintro o' (mem | mem) kind k request
    · rcases step.orbit_back ok mem kind with ⟨o, ho, change⟩ | ⟨claimed, new⟩
      · have row := change.row
        exact (h.issued o (Or.inl ho) (row.kind ▸ kind) k (row.requestId ▸ request)).trans_le grown
      · cases claimed.request with
        | named same named =>
            cases request.symm.trans same
            rcases named with may | used
            · exact (names _ may k rfl).trans_le grown
            · obtain ⟨r, hr⟩ := List.exists_mem_of_ne_nil _ used
              obtain ⟨mem, same, kind⟩ := mem_orbitsOfRequest.mp hr
              exact (h.issued r (Or.inl mem) kind k same).trans_le grown
        | made same =>
            rw [RequestId.internal_inj (Option.some.inj (request.symm.trans same))]
            exact (ok.micro step).fresh o' mem
    · exact (h.issued o' (step.archive.2 o' mem) kind k request).trans_le grown
  archived := by
    intro o ho
    rcases step.archive.2 o ho with mem | mem
    · exact (ok.fresh o mem).trans_le step.uuid
    · exact (h.archived o mem).trans_le step.uuid
  unended := by
    intro o' ho' kind live
    rcases step.orbit_back ok ho' kind with ⟨o, ho, change⟩ | ⟨claimed, -⟩
    · have kind₀ : o.kind = .orbit := change.row.kind ▸ kind
      have before := h.unended o ho kind₀ (change.live live)
      rcases change.stamps kind₀ with ⟨stamp, release | ⟨-, ended, -⟩⟩ | ⟨terminal, -⟩
      · exact ⟨release.trans before.1, stamp.trans before.2⟩
      · rw [live] at ended
        cases ended
      · exact absurd (change.live live) (by simp [Orbit.live_of_terminal terminal])
    · exact ⟨claimed.unreleased, claimed.unstamped⟩
  tokens := by
    intro t' ht' o' ho' token
    have old (t : Task) (ht : t ∈ s.tasks) (same : t.connectTokenId = some o'.orbitId) :
        o'.kind = .merge_token := by
      rcases (step.orbits ok).back ho' with ⟨o, ho, change⟩ | ⟨-, new⟩
      · rw [change.row.kind]
        exact h.tokens t ht o ho (change.row.orbitId ▸ same)
      · have drawn := ok.attempts.tokenDrawn t ht _ same
        exact absurd new drawn.ne
    rcases (step.tasks ok).back ht' with ⟨t, ht, change⟩ | new
    · rcases (change.rebinds ok ht).token with same | none | ⟨-, o, ho, same, kind⟩
      · exact old t ht (same ▸ token)
      · rw [none] at token
        cases token
      · rcases (step.orbits ok).back ho' with ⟨o₁, ho₁, row⟩ | ⟨-, new⟩
        · have eq : o₁ = o := ok.orbit_eq ho₁ ho
            (row.row.orbitId.symm.trans (Option.some.inj (token.symm.trans same)))
          rw [row.row.kind, eq]
          exact kind
        · have drawn := (change.rebinds ok ht).tokenDrawn _ token
          exact absurd new drawn.ne
    · rw [new.token] at token
      cases token

/-! ## The rows of a step -/

/-- The rows of a step so far: those it found, with the end they had, and those it inserted, which
end now if they end. -/
def Store.Since (s₀ : Store) (now : Time) (s : Store) : Prop :=
  ∀ o ∈ s.orbits, o.kind = .orbit →
    (∃ o₀ ∈ s₀.orbits, o₀.SameRow o ∧ o.endedAt now = o₀.endedAt now) ∨
      s₀.uuid ≤ o.orbitId ∧ o.endedAt now = now

theorem Store.Since.refl (s : Store) (now : Time) : s.Since now s :=
  fun o ho _ => Or.inl ⟨o, ho, .refl o, rfl⟩

theorem Store.Since.micro (h : s₀.Since c.now s) (requests : s.Requests) (ok : s.Ok)
    (later : s₀.uuid ≤ s.uuid) (step : Micro c E s s') : s₀.Since c.now s' := by
  intro o' ho' kind
  rcases step.orbit_back ok ho' kind with ⟨o, ho, change⟩ | ⟨claimed, new⟩
  · have kind₀ : o.kind = .orbit := change.row.kind ▸ kind
    have ended := change.endedAt kind₀ (requests.unended o ho kind₀)
    rcases h o ho kind₀ with ⟨o₀, ho₀, row, same⟩ | ⟨drawn, same⟩
    · exact Or.inl ⟨o₀, ho₀, row.trans change.row, ended.trans same⟩
    · exact Or.inr ⟨change.row.orbitId ▸ drawn, ended.trans same⟩
  · refine Or.inr ⟨new ▸ later, ?_⟩
    rw [Orbit.endedAt, claimed.unstamped, claimed.unreleased]
    rfl

/-- The rows of a request in their order: later rows have higher generations and are about the same
task, what lives is the last one, no generation is left out, and what was archived came before. -/
structure Store.InOrder (s : Store) (id : RequestId) : Prop where
  task : ∀ o ∈ s.orbitsOfRequest id, ∀ r ∈ s.orbitsOfRequest id, o.taskId = r.taskId
  rising : ∀ o ∈ s.orbitsOfRequest id, ∀ r ∈ s.orbitsOfRequest id, o.orbitId < r.orbitId →
    o.requestGeneration < r.requestGeneration
  last : ∀ o ∈ s.orbitsOfRequest id, o.live = true → ∀ r ∈ s.orbitsOfRequest id,
    r.requestGeneration ≤ o.requestGeneration
  contiguous : ∀ o ∈ s.orbitsOfRequest id, ∀ r ∈ s.orbitsOfRequest id, ∀ g,
    o.requestGeneration < g → g < r.requestGeneration →
      ∃ q ∈ s.orbitsOfRequest id, q.requestGeneration = g
  older : ∀ o ∈ s.orbitsOfRequest id, ∀ r ∈ s.orbitsArchive, r.requestId = some id →
    r.kind = .orbit → r.orbitId < o.orbitId

namespace Store.InOrder

variable (h : s.InOrder id)

include h

theorem eq (ok : s.Ok) (ho : o ∈ s.orbitsOfRequest id) (hr : r ∈ s.orbitsOfRequest id)
    (same : o.requestGeneration = r.requestGeneration) : o = r := by
  rcases lt_trichotomy o.orbitId r.orbitId with lt | eq | gt
  · exact absurd same (h.rising o ho r hr lt).ne
  · exact ok.orbit_eq (mem_orbitsOfRequest.mp ho).1 (mem_orbitsOfRequest.mp hr).1 eq
  · exact absurd same (h.rising r hr o ho gt).ne'

theorem lt_of_generation (ok : s.Ok) (ho : o ∈ s.orbitsOfRequest id)
    (hr : r ∈ s.orbitsOfRequest id) (lt : o.requestGeneration < r.requestGeneration) :
    o.orbitId < r.orbitId := by
  rcases lt_trichotomy o.orbitId r.orbitId with less | eq | gt
  · exact less
  · rw [ok.orbit_eq (mem_orbitsOfRequest.mp ho).1 (mem_orbitsOfRequest.mp hr).1 eq] at lt
    exact absurd lt (lt_irrefl _)
  · exact absurd (h.rising r hr o ho gt) lt.le.not_gt

/-- The collector takes a row only with those before it. -/
theorem collects_below (ok : s.Ok) (requests : s.Requests) (since : s₀.Since c.now s)
    (fresh : ∀ o ∈ s₀.orbits, o.orbitId < s₀.uuid)
    (due : ∀ retention, c.cfg.terminalRetention = some retention →
      0 < retention ∧ s₀.DueInOrder id c.now retention)
    {p : Orbit → Bool} (collected : Collected c s p) (ho : o ∈ s.orbitsOfRequest id)
    (hr : r ∈ s.orbitsOfRequest id) (lt : r.requestGeneration < o.requestGeneration)
    (taken : p o = true) : p r = true := by
  obtain ⟨retention, retains, rfl⟩ := collected.due
  obtain ⟨positive, order⟩ := due retention retains
  obtain ⟨memO, requestO, kindO⟩ := mem_orbitsOfRequest.mp ho
  obtain ⟨memR, requestR, kindR⟩ := mem_orbitsOfRequest.mp hr
  simp only [Store.orbitArchivable, Bool.and_eq_true, List.all_eq_true, Bool.or_eq_true,
    decide_eq_true_eq] at taken ⊢
  obtain ⟨⟨-, stamp⟩, free⟩ := taken
  have endO : o.endedAt c.now ≤ c.now - retention := by
    cases hstamp : o.terminalAt with
    | none => simp [reached, hstamp] at stamp
    | some t => simpa [Orbit.endedAt, reached, hstamp] using stamp
  -- the row was there when the step began, since what ends in it is not due
  obtain ⟨o₀, ho₀, rowO, sameO⟩ : ∃ o₀ ∈ s₀.orbits, o₀.SameRow o ∧
      o.endedAt c.now = o₀.endedAt c.now := by
    rcases since o memO kindO with old | ⟨-, now⟩
    · exact old
    · rw [now] at endO
      linarith
  -- and so was the one before it
  obtain ⟨r₀, hr₀, rowR, sameR⟩ : ∃ r₀ ∈ s₀.orbits, r₀.SameRow r ∧
      r.endedAt c.now = r₀.endedAt c.now := by
    rcases since r memR kindR with old | ⟨new, -⟩
    · exact old
    · have before := h.lt_of_generation ok hr ho lt
      rw [rowO.orbitId] at before
      exact absurd (fresh o₀ ho₀) (new.trans before.le).not_gt
  have endR : r.endedAt c.now ≤ c.now - retention := by
    rw [sameR]
    refine order o₀ ?_ r₀ ?_ ?_ (sameO ▸ endO)
    · exact mem_orbitsOfRequest.mpr ⟨ho₀, rowO.requestId ▸ requestO, rowO.kind ▸ kindO⟩
    · exact mem_orbitsOfRequest.mpr ⟨hr₀, rowR.requestId ▸ requestR, rowR.kind ▸ kindR⟩
    · rwa [← rowO.requestGeneration, ← rowR.requestGeneration]
  have ended : r.state.terminal = true := by
    cases live : r.live with
    | true => exact absurd (h.last r hr live o ho) lt.not_ge
    | false => cases state : r.state <;> simp [Orbit.live, state] at live ⊢ <;> rfl
  refine ⟨⟨ended, ?_⟩, fun t ht => ?_⟩
  · cases hstamp : r.terminalAt with
    | none => exact absurd hstamp (collected.stamped r memR ended)
    | some t => simpa [Orbit.endedAt, reached, hstamp] using endR
  · rcases free t ht with terminal | ⟨task, -⟩
    · exact Or.inl terminal
    · refine Or.inr ⟨h.task r hr o ho ▸ task, fun token => ?_⟩
      rw [requests.tokens t ht r memR token] at kindR
      cases kindR

/-- The rows of the request that the collector leaves are in order. -/
theorem collected (ok : s.Ok) {p : Orbit → Bool}
    (below : ∀ o ∈ s.orbitsOfRequest id, ∀ r ∈ s.orbitsOfRequest id,
      r.requestGeneration < o.requestGeneration → p o = true → p r = true)
    (rows : s'.orbits = s.orbits.filter fun o => !p o)
    (archive : s'.orbitsArchive = s.orbitsArchive ++ s.orbits.filter p) : s'.InOrder id := by
  have left (o : Orbit) :
      o ∈ s'.orbitsOfRequest id ↔ o ∈ s.orbitsOfRequest id ∧ p o = false := by
    simp only [mem_orbitsOfRequest, rows, List.mem_filter, Bool.not_eq_true']
    tauto
  refine ⟨fun o ho r hr => ?_, fun o ho r hr => ?_, fun o ho live r hr => ?_,
    fun o ho r hr g above under => ?_, fun o ho r hr request kind => ?_⟩
  · exact h.task o ((left o).mp ho).1 r ((left r).mp hr).1
  · exact h.rising o ((left o).mp ho).1 r ((left r).mp hr).1
  · exact h.last o ((left o).mp ho).1 live r ((left r).mp hr).1
  · obtain ⟨ho, stays⟩ := (left o).mp ho
    obtain ⟨q, hq, gen⟩ := h.contiguous o ho r ((left r).mp hr).1 g above under
    refine ⟨q, (left q).mpr ⟨hq, ?_⟩, gen⟩
    by_contra taken
    have := below q hq o ho (gen ▸ above) (Bool.eq_true_of_not_eq_false taken)
    rw [stays] at this
    cases this
  · obtain ⟨ho, stays⟩ := (left o).mp ho
    rw [archive, List.mem_append, List.mem_filter] at hr
    rcases hr with hr | ⟨hr, taken⟩
    · exact h.older o ho r hr request kind
    · have hr' : r ∈ s.orbitsOfRequest id := mem_orbitsOfRequest.mpr ⟨hr, request, kind⟩
      have apart : r.orbitId ≠ o.orbitId := by
        intro same
        rw [ok.orbit_eq hr (mem_orbitsOfRequest.mp ho).1 same, stays] at taken
        cases taken
      refine lt_of_le_of_ne (not_lt.mp fun less => ?_) apart
      have := below r hr' o ho (h.rising o ho r hr' less) taken
      rw [stays] at this
      cases this

/-- The next row is about the task of the rows before it. -/
theorem task_eq (ho : o ∈ s.orbitsOfRequest id) {t : Option TaskId} {g : ℕ}
    (next : NextGeneration s id t g) : o.taskId = t := by
  cases hlatest : s.latestOrbitByRequest (some id) with
  | none =>
      rw [latestOf_eq_none hlatest] at ho
      cases ho
  | some l => exact (h.task o ho l (latestOf_spec hlatest).1).trans (next.task l hlatest)

/-- No row is live when the next one comes. -/
theorem idle (ok : s.Ok) (ho : o ∈ s.orbitsOfRequest id) {t : Option TaskId} {g : ℕ}
    (next : NextGeneration s id t g) : o.live = false := by
  by_contra live
  have live : o.live = true := Bool.eq_true_of_not_eq_false live
  cases hlatest : s.latestOrbitByRequest (some id) with
  | none =>
      rw [latestOf_eq_none hlatest] at ho
      cases ho
  | some l =>
      obtain ⟨hl, above⟩ := latestOf_spec hlatest
      have same : l = o := h.eq ok hl ho (le_antisymm (h.last o ho live l hl) (above o ho))
      have ended := next.ended l hlatest
      rw [same, live] at ended
      cases ended

/-- The rows of the request are in order after a change that keeps them: a new row is the next. -/
theorem kept (ok : s.Ok) (requests : s.Requests) (step : Micro c E s s')
    (keeps : ∀ o ∈ s.orbits, ∃ o' ∈ s'.orbits, OrbitStep c E s o o')
    (archive : s'.orbitsArchive = s.orbitsArchive) : s'.InOrder id := by
  have back (o' : Orbit) (ho' : o' ∈ s'.orbitsOfRequest id) :
      (∃ o ∈ s.orbitsOfRequest id, o.SameRow o' ∧ (o'.live = true → o.live = true)) ∨
        NextGeneration s id o'.taskId o'.requestGeneration ∧ o'.orbitId = s.uuid := by
    rcases step.request_back ok ho' with old | ⟨claimed, new⟩
    · exact Or.inl old
    · exact Or.inr ⟨requests.next claimed new (mem_orbitsOfRequest.mp ho').2.1, new⟩
  have forth {q : Orbit} (hq : q ∈ s.orbitsOfRequest id) :
      ∃ q' ∈ s'.orbitsOfRequest id, q'.requestGeneration = q.requestGeneration := by
    obtain ⟨mem, request, kind⟩ := mem_orbitsOfRequest.mp hq
    obtain ⟨q', hq', change⟩ := keeps q mem
    exact ⟨q', mem_orbitsOfRequest.mpr ⟨hq', change.row.requestId.trans request,
      change.row.kind.trans kind⟩, change.row.requestGeneration⟩
  have drawn {q : Orbit} (hq : q ∈ s.orbitsOfRequest id) : q.orbitId < s.uuid :=
    ok.fresh q (mem_orbitsOfRequest.mp hq).1
  refine ⟨fun o' ho' r' hr' => ?_, fun o' ho' r' hr' less => ?_, fun o' ho' live r' hr' => ?_,
    fun o' ho' r' hr' g above under => ?_, fun o' ho' r hr request kind => ?_⟩
  · rcases back o' ho' with ⟨o, ho, row, -⟩ | ⟨next, new⟩ <;>
      rcases back r' hr' with ⟨r, hr, row', -⟩ | ⟨next', new'⟩
    · rw [row.taskId, row'.taskId]
      exact h.task o ho r hr
    · rw [row.taskId]
      exact h.task_eq ho next'
    · rw [row'.taskId]
      exact (h.task_eq hr next).symm
    · rw [(ok.micro step).orbit_eq (mem_orbitsOfRequest.mp ho').1 (mem_orbitsOfRequest.mp hr').1
        (new.trans new'.symm)]
  · rcases back o' ho' with ⟨o, ho, row, -⟩ | ⟨next, new⟩ <;>
      rcases back r' hr' with ⟨r, hr, row', -⟩ | ⟨next', new'⟩
    · rw [row.requestGeneration, row'.requestGeneration]
      exact h.rising o ho r hr (by rwa [← row.orbitId, ← row'.orbitId])
    · rw [row.requestGeneration, next'.next]
      exact lt_nextRequestGeneration ho
    · rw [new, row'.orbitId] at less
      exact absurd (drawn hr) less.le.not_gt
    · rw [new, new'] at less
      exact absurd less (lt_irrefl _)
  · rcases back r' hr' with ⟨r, hr, row', -⟩ | ⟨next', new'⟩
    · rw [row'.requestGeneration]
      rcases back o' ho' with ⟨o, ho, row, lived⟩ | ⟨next, -⟩
      · rw [row.requestGeneration]
        exact h.last o ho (lived live) r hr
      · rw [next.next]
        exact (lt_nextRequestGeneration hr).le
    · rcases back o' ho' with ⟨o, ho, -, lived⟩ | ⟨-, new⟩
      · have ended := h.idle ok ho next'
        rw [lived live] at ended
        cases ended
      · rw [(ok.micro step).orbit_eq (mem_orbitsOfRequest.mp ho').1
          (mem_orbitsOfRequest.mp hr').1 (new.trans new'.symm)]
  · rcases back o' ho' with ⟨o, ho, row, -⟩ | ⟨next, -⟩
    · rw [row.requestGeneration] at above
      rcases back r' hr' with ⟨r, hr, row', -⟩ | ⟨next', -⟩
      · rw [row'.requestGeneration] at under
        obtain ⟨q, hq, gen⟩ := h.contiguous o ho r hr g above under
        obtain ⟨q', hq', same⟩ := forth hq
        exact ⟨q', hq', same.trans gen⟩
      · rw [next'.next] at under
        obtain ⟨q, hq, upper⟩ := exists_of_lt_nextRequestGeneration under
        rcases upper.lt_or_eq with lower | equal
        · obtain ⟨q₁, hq₁, gen⟩ := h.contiguous o ho q hq g above lower
          obtain ⟨q', hq', same⟩ := forth hq₁
          exact ⟨q', hq', same.trans gen⟩
        · obtain ⟨q', hq', same⟩ := forth hq
          exact ⟨q', hq', same.trans equal.symm⟩
    · -- nothing is above a new row
      rcases back r' hr' with ⟨r, hr, row', -⟩ | ⟨next', -⟩
      · have below := lt_nextRequestGeneration hr
        rw [← next.next, ← row'.requestGeneration] at below
        omega
      · rw [next.next] at above
        rw [next'.next] at under
        omega
  · rw [archive] at hr
    rcases back o' ho' with ⟨o, ho, row, -⟩ | ⟨-, new⟩
    · rw [row.orbitId]
      exact h.older o ho r hr request kind
    · rw [new]
      exact requests.archived r hr

theorem generations (dense : s.Dense id) (ok : s.Ok) : s.Generations id where
  distinct := fun _ ho _ hr same => h.eq ok ho hr same
  last := h.last
  contiguous := h.contiguous
  successor := by
    intro o ho r hr q hq afterR afterQ genR genQ
    have stays {x : Orbit} (hx : x ∈ s.historyOf id) (after : o.orbitId < x.orbitId) :
        x ∈ s.orbitsOfRequest id := by
      obtain ⟨mem | mem, request, kind⟩ := mem_historyOf.mp hx
      · exact mem_orbitsOfRequest.mpr ⟨mem, request, kind⟩
      · exact absurd after (h.older o ho x mem request kind).le.not_gt
    rw [h.eq ok (stays hr afterR) (stays hq afterQ) (genR.trans genQ.symm)]
  dense := dense

end Store.InOrder

/-! ## Runs -/

/-- What an orderly run keeps: the rows are of requests, and those of each are in order. -/
structure Store.Succeeds (s : Store) : Prop where
  requests : s.Requests
  inOrder : ∀ id, s.InOrder id

theorem Store.Succeeds.empty : ({} : Store).Succeeds where
  requests := ⟨by simp, by simp, by simp, by simp⟩
  inOrder := fun id => by constructor <;> simp [Store.orbitsOfRequest]

theorem Store.Succeeds.step {σ σ' : Sys} {l : Env × Action}
    (positive : ∀ retention, cfg.terminalRetention = some retention → 0 < retention)
    (h : σ.store.Succeeds) (ok : σ.Ok) (orderly : Orderly cfg σ l) (step : Step cfg σ l σ') :
    σ'.store.Succeeds := by
  have stepped := (step_spec ok step).1
  let I (s : Store) : Prop :=
    s.Succeeds ∧ σ.store.Since l.1.now s ∧ σ.store.uuid ≤ s.uuid
  have run : I σ'.store := by
    refine stepped.invariant (I := I) (fun may E s s' licensed ok' ih change => ?_) ok.store
      ⟨h, .refl _ _, le_rfl⟩
    obtain ⟨⟨requests, inOrder⟩, since, later⟩ := ih
    have names (id : RequestId) (named : may (.name id)) (k : OrbitId)
        (made : id = RequestId.internal k) : k < s.uuid := by
      cases licensed _ named with
      | name names =>
          by_contra late
          exact orderly.issued id names k (later.trans (not_lt.mp late)) made
    refine ⟨⟨requests.micro ok' change names, fun id => ?_⟩, since.micro requests ok' later change,
      later.trans change.uuid⟩
    rcases change.keeps_or_collects ok' with ⟨keeps, archive⟩ | ⟨p, collected, rows, archive⟩
    · exact (inOrder id).kept ok' requests change keeps archive
    · have collects : Collects σ l.2 := by
        cases licensed _ collected.may with
        | lapse collects => exact collects
      refine (inOrder id).collected ok' (fun o ho r hr lt taken => ?_) rows archive
      refine (inOrder id).collects_below ok' requests since ok.store.fresh
        (fun retention retains => ⟨positive retention retains, ?_⟩) collected ho hr lt taken
      exact orderly.collects collects retention retains id
  exact run.1

theorem ReachableBy.succeeds {σ : Sys}
    (positive : ∀ retention, cfg.terminalRetention = some retention → 0 < retention)
    (h : ReachableBy cfg (Orderly cfg) σ) : σ.store.Succeeds := by
  have run : σ.Ok ∧ σ.store.Succeeds := by
    refine Transition.Run.invariant (I := fun τ => τ.Ok ∧ τ.store.Succeeds)
      (fun τ l τ' ih orderly step => ?_) h ⟨.empty, .empty⟩
    exact ⟨(step_spec ih.1 step).2, ih.2.step positive ih.1 orderly step⟩
  exact run.2

/-- In a run whose steps are orderly the generations of every request are in order.  One row at
most is live, a rollover that is refused admits nothing, and a row that has ended says for ever
what it said at its end. -/
theorem generations_in_order {σ : Sys}
    (positive : ∀ retention, cfg.terminalRetention = some retention → 0 < retention)
    (h : ReachableBy cfg (Orderly cfg) σ) (id : RequestId) :
    σ.store.Generations id ∧
      (∀ o ∈ σ.store.orbitsOfRequest id, o.live = true →
        ∀ r ∈ σ.store.orbitsOfRequest id, r.live = true → r = o) ∧
      (∀ now prior agent expected epoch request s' r,
        rolloverClaim cfg now σ.store prior agent expected epoch request = .ok (s', r) →
          r.ok ≠ some true → NoneAdmitted σ.store s') ∧
      ∀ σ', Transition.Run (Step cfg) (fun _ _ => True) σ σ' →
        ∀ o ∈ σ.store.orbitsOfRequest id, o.live = false → σ'.store.Keeps o := by
  have ok : σ.Ok := ReachableBy.ok h
  have inOrder := (ReachableBy.succeeds positive h).inOrder id
  have gens := inOrder.generations (ReachableBy.dense h id) ok.store
  refine ⟨gens, ?_, ?_, ?_⟩
  · intro o ho live r hr live'
    have below : r.requestGeneration ≤ o.requestGeneration := gens.last o ho live r hr
    have above : o.requestGeneration ≤ r.requestGeneration := gens.last r hr live' o ho
    exact gens.distinct r hr o ho (le_antisymm below above)
  · intro now prior agent expected epoch request s' r run refused
    exact rolloverClaim_refused run refused ok.store
  · intro σ' run o ho ended
    obtain ⟨mem, -, kind⟩ := mem_orbitsOfRequest.mp ho
    exact ok.keeps run mem kind ended

/-- The coordinator keeps what has ended for 50. -/
def retains : Cfg := { terminalRetention := some 50 }

/-- A request with a name and one without are claimed, released and rolled over, and the collector
takes the first row. -/
def rolledOverInOrder : List (Env × Action) :=
  [ (Action.call (.claim
      { agentId := "A", pathspec := ["a"], requestId := some "R" })).at 10,
    (Action.call (.claim { agentId := "B", pathspec := ["b"] })).at 11,
    (Action.call (.release 0 "A" (some 1) none none)).at 20,
    (Action.call (.release 1 "B" (some 2) none none)).at 25,
    (Action.call (.rolloverClaim 0 "A" 0 0 "x")).at 30,
    (Action.call (.rolloverClaim 1 "B" 0 0 "y")).at 31,
    (Action.call (.release 2 "A" (some 3) none none)).at 40,
    (Action.call .sweep).at 72,
    (Action.call (.rolloverClaim 2 "A" 1 0 "z")).at 73 ]

/-- The step names no request but `R`, and finds what is due in order. -/
def dueInOrder (σ : Sys) (l : Env × Action) : Bool :=
  (match l.2 with
    | .call (.claim args) => args.requestId = none || args.requestId = some "R"
    | .call _ => true
    | _ => false) &&
  σ.store.orbits.all fun o => σ.store.orbits.all fun r =>
    o.requestId = r.requestId → r.requestGeneration < o.requestGeneration →
      o.endedAt l.1.now ≤ l.1.now - 50 → r.endedAt l.1.now ≤ l.1.now - 50

theorem RequestId.internal_ne (k : OrbitId) : internal k ≠ "R" := by
  intro same
  have first := congrArg (fun id => id.toList.head?) same
  simp [internal] at first

theorem orderly_of_dueInOrder {σ : Sys} {l : Env × Action} (h : dueInOrder σ l = true) :
    Orderly retains σ l := by
  rw [dueInOrder, Bool.and_eq_true] at h
  obtain ⟨names, due⟩ := h
  refine ⟨fun id named k _ => ?_, fun _ retention retains id o ho r hr => ?_⟩
  · cases named with
    | claim call request =>
        rw [call] at names
        simp only [Bool.or_eq_true, decide_eq_true_eq, request] at names
        rcases names with none | same
        · cases none
        · rw [Option.some.inj same]
          exact (RequestId.internal_ne k).symm
    | batch cut =>
        obtain ⟨i, call, -⟩ := cut
        rw [call] at names
        cases names
  · cases retains
    obtain ⟨memO, requestO, -⟩ := mem_orbitsOfRequest.mp ho
    obtain ⟨memR, requestR, -⟩ := mem_orbitsOfRequest.mp hr
    simp only [List.all_eq_true, decide_eq_true_eq] at due
    exact due o memO r memR (requestO.trans requestR.symm)

/-- The row that was collected was the first, and both requests go on with the next generation. -/
theorem rolledOver_in_order : ∃ σ, ReachableBy retains (Orderly retains) σ ∧
    (∃ o ∈ σ.store.orbitsArchive, o.requestId = some "R" ∧ o.requestGeneration = 0) ∧
    (∃ o ∈ σ.store.orbits, o.requestId = some "R" ∧ o.requestGeneration = 2) ∧
    (∃ o ∈ σ.store.orbits, o.requestId = some "internal:orb-1" ∧ o.requestGeneration = 1) ∧
    σ.store.Generations "R" ∧ σ.store.Generations "internal:orb-1" := by
  have run : ∃ σ, ReachableBy retains (Orderly retains) σ ∧
      (∃ o ∈ σ.store.orbitsArchive, o.requestId = some "R" ∧ o.requestGeneration = 0) ∧
      (∃ o ∈ σ.store.orbits, o.requestId = some "R" ∧ o.requestGeneration = 2) ∧
      ∃ o ∈ σ.store.orbits, o.requestId = some "internal:orb-1" ∧ o.requestGeneration = 1 :=
    exists_reachableWhen rolledOverInOrder dueInOrder (fun _ _ => orderly_of_dueInOrder)
      (by decide +kernel)
  obtain ⟨σ, reachable, first, third, internal⟩ := run
  have positive (retention : ℚ) (kept : retains.terminalRetention = some retention) :
      0 < retention := by
    cases kept
    norm_num
  exact ⟨σ, reachable, first, third, internal,
    (generations_in_order positive reachable "R").1,
    (generations_in_order positive reachable "internal:orb-1").1⟩

/-- A request that is claimed, and rolled over at 10 by a clock that was at 100. -/
def rolledOver : List (Env × Action) :=
  [ (Action.call (.claim
      { agentId := "A", pathspec := ["a"], requestId := some "R" })).at 90,
    (Action.call (.release 0 "A" (some 1) none none)).at 100,
    (Action.call (.rolloverClaim 0 "A" 0 0 "x")).at 10,
    (Action.call (.release 1 "A" (some 2) none none)).at 20 ]

/-- The second row leaves the table before the first: then the third leaves a gap, and a
rollover of the first makes the generation of the second again. -/
theorem rolledOver_gap :
    (∃ σ, Reachable retains σ ∧ (σ.store.orbitsOfRequest "R").map
      (fun o => o.requestGeneration) = [0, 2]) ∧
    ∃ σ, Reachable retains σ ∧ (∃ o ∈ σ.store.orbitsArchive,
      o.requestId = some "R" ∧ o.requestGeneration = 1) ∧
        (σ.store.orbitsOfRequest "R").map (fun o => o.requestGeneration) = [0, 1] := by
  constructor
  · exact exists_reachable (rolledOver ++
      [ (Action.call (.rolloverClaim 1 "A" 1 0 "y")).at 30,
        (Action.call .sweep).at 80 ]) (by decide +kernel)
  · exact exists_reachable (rolledOver ++
      [ (Action.call (.rolloverClaim 0 "A" 0 0 "y")).at 80 ]) (by decide +kernel)

end Omd
