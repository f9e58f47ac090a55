import Omd.Intents
import Omd.Lib.Spell

/-!
# The notifications of an orbit

A change of the state of a path orbit enqueues one notification.  So the outbox keeps the history
of every orbit, archived ones too: the notifications about it, in their order, take the admission
machine from the request to the state of the row.  The machine only goes up under these events, so
that none is enqueued twice, and the notification of the next change is never one that the outbox
has.
-/

namespace Omd

open Lib Lib.Machine

variable {cfg : Cfg} {c : Scope} {E : TaskId → Prop} {s s' : Store} {o o' : Orbit}
  {e : AdmissionEvent} {st : SemanticState} {log : List OutboxRow}

/-! ## The machine -/

/-- The state that an event leads to, where the machine takes it. -/
def AdmissionEvent.goal : AdmissionEvent → SemanticState
  | .ADMISSION_GRANTED | .PROMOTION_GRANTED | .RENEW => .HELD
  | .ADMISSION_QUEUED | .PROMOTION_BLOCKED => .PENDING
  | .ADMISSION_DENIED | .PROMOTION_DENIED => .DENIED
  | .ADMISSION_REJECTED => .REJECTED
  | .CANCEL | .WAIT_OWNER_RECLAIMED => .CANCELLED
  | .WAIT_TIMEOUT => .TIMED_OUT
  | .RELEASE => .RELEASED
  | .LEASE_EXPIRED | .LEASE_OWNER_RECLAIMED | .AGENT_RECLAIMED => .EXPIRED

/-- How far a request has come. -/
def SemanticState.rank : SemanticState → ℕ
  | .REQUESTED => 0
  | .PENDING => 1
  | .HELD => 2
  | _ => 3

theorem semanticStep_goal {a : SemanticState} (h : semanticStep a e = some st) : st = e.goal := by
  rw [semanticStep.eq_def] at h
  split at h <;> cases h <;> rfl

/-- Every event that notifies takes a request further. -/
theorem semanticStep_climbs : Climbs semanticStep SemanticState.rank (·.notifies = true) where
  up := by
    intro a b e notifies h
    rw [semanticStep.eq_def] at h
    split at h <;> cases h <;> first | decide | cases notifies
  target := by
    intro a a' b b' e _ h h'
    rw [semanticStep_goal h, semanticStep_goal h']

/-- A row that an event may change is queued or held, so that its state is all there is to know. -/
theorem semantic_of_step {st₀ : SemanticState} {state : OrbitState}
    (h : semanticStep state.semantic e = some st) (project : projectLegacy st₀ = some state) :
    st₀ = state.semantic := by
  cases state with
  | PENDING | HELD => cases st₀ <;> first | rfl | cases project
  | RELEASED | EXPIRED | DENIED => cases e <;> cases h

/-! ## What the outbox tells -/

/-- The notifications about an orbit, less the summaries of reclaims. -/
def Store.newsOf (s : Store) (id : OrbitId) : List OutboxRow :=
  s.outbox.filter fun r => r.orbitId = some id && r.transition ≠ .AGENT_RECLAIMED

/-- The notifications take the machine from the request to the state of the row. -/
def Orbit.Told (log : List OutboxRow) (o : Orbit) : Prop :=
  ∃ es st, log = es.map o.news ∧ (∀ e ∈ es, e.notifies = true) ∧
    Spells semanticStep .REQUESTED es st ∧ projectLegacy st = some o.state

/-- The outbox tells the history of every path orbit. -/
structure Store.Posted (s : Store) : Prop where
  drawn : ∀ r ∈ s.outbox, ∀ i, r.orbitId = some i → i < s.uuid
  archived : ∀ o ∈ s.orbitsArchive, o.orbitId < s.uuid
  apart : ∀ o ∈ s.orbits, ∀ p ∈ s.orbitsArchive, o.orbitId ≠ p.orbitId
  told : ∀ o, o ∈ s.orbits ∨ o ∈ s.orbitsArchive → o.kind = .orbit → o.Told (s.newsOf o.orbitId)

theorem Orbit.SameRow.news (h : o.SameRow o') : o'.news = o.news := by
  funext e
  rw [Orbit.SameRow] at h
  rw [h]
  rfl

/-- Of the notifications about a row, those of events are about its orbit. -/
theorem news_filter (o : Orbit) (step : e ≠ .AGENT_RECLAIMED) (id : OrbitId) :
    ([o.news e].filter fun r => r.orbitId = some id && r.transition ≠ .AGENT_RECLAIMED) =
      if o.orbitId = id then [o.news e] else [] := by
  by_cases same : o.orbitId = id <;> simp [Orbit.news, same, step]

theorem Orbit.Told.row (h : o.Told log) (row : o.SameRow o') (state : o'.state = o.state) :
    o'.Told log := by
  obtain ⟨es, st, tells, notify, spells, project⟩ := h
  exact ⟨es, st, by rw [row.news, tells], notify, spells, by rw [state, project]⟩

/-- The notification of a change goes on where the others ended. -/
theorem Orbit.Told.event (h : o.Told log) (row : o.SameRow o') (notifies : e.notifies = true)
    (step : semanticStep o.state.semantic e = some st) (state : projectLegacy st = some o'.state) :
    o'.Told (log ++ [o.news e]) := by
  obtain ⟨es, st₀, tells, notify, spells, project⟩ := h
  rw [← semantic_of_step step project] at step
  refine ⟨es ++ [e], st, ?_, ?_, spells.concat step, state⟩
  · rw [row.news, tells, List.map_append, List.map_singleton]
  · intro x hx
    rcases List.mem_append.mp hx with hx | hx
    · exact notify x hx
    · rw [List.mem_singleton.mp hx]
      exact notifies

theorem not_reclaimed_of_step {a : SemanticState} (h : semanticStep a e = some st) :
    e ≠ .AGENT_RECLAIMED := by
  rintro rfl
  cases a <;> cases h

/-! ## One change -/

/-- Rows of which nothing is told but what was. -/
theorem Store.Posted.quiet (h : s.Posted) (outbox : s'.outbox = s.outbox)
    (archive : s'.orbitsArchive = s.orbitsArchive) (uuid : s.uuid ≤ s'.uuid)
    (back : ∀ o' ∈ s'.orbits, ∃ o ∈ s.orbits, o.SameRow o' ∧
      (o.kind = .orbit → o'.state = o.state)) : s'.Posted where
  drawn := fun r hr i id => (h.drawn r (outbox ▸ hr) i id).trans_le uuid
  archived := fun o ho => (h.archived o (archive ▸ ho)).trans_le uuid
  apart := by
    intro o' ho' p hp
    obtain ⟨o, ho, row, -⟩ := back o' ho'
    rw [row.orbitId]
    exact h.apart o ho p (archive ▸ hp)
  told := by
    intro o' ho' kind
    have same : s'.newsOf o'.orbitId = s.newsOf o'.orbitId := by rw [Store.newsOf, outbox]; rfl
    rw [same]
    rcases ho' with ho' | ho'
    · obtain ⟨o, ho, row, state⟩ := back o' ho'
      rw [row.kind] at kind
      rw [row.orbitId]
      exact (h.told o (Or.inl ho) kind).row row (state kind)
    · exact h.told o' (Or.inr (archive ▸ ho')) kind

/-- The same rows tell the same. -/
theorem Store.Posted.same (h : s.Posted) (outbox : s'.outbox = s.outbox)
    (archive : s'.orbitsArchive = s.orbitsArchive) (uuid : s.uuid ≤ s'.uuid)
    (orbits : s'.orbits = s.orbits) : s'.Posted :=
  h.quiet outbox archive uuid fun o ho => ⟨o, orbits ▸ ho, .refl o, fun _ => rfl⟩

/-- A notification that no row is about. -/
theorem Store.Posted.post (h : s.Posted) {r : OutboxRow}
    (drawn : ∀ i, r.orbitId = some i → i < s'.uuid)
    (about : ∀ o, o ∈ s.orbits ∨ o ∈ s.orbitsArchive → o.kind = .orbit →
      r.orbitId = some o.orbitId → r.transition = .AGENT_RECLAIMED)
    (outbox : s'.outbox = s.outbox ++ [r]) (orbits : s'.orbits = s.orbits)
    (archive : s'.orbitsArchive = s.orbitsArchive) (uuid : s.uuid ≤ s'.uuid) : s'.Posted where
  drawn := by
    intro r' hr' i id
    rw [outbox] at hr'
    rcases List.mem_append.mp hr' with hr' | hr'
    · exact (h.drawn r' hr' i id).trans_le uuid
    · rw [List.mem_singleton.mp hr'] at id
      exact drawn i id
  archived := fun o ho => (h.archived o (archive ▸ ho)).trans_le uuid
  apart := fun o ho p hp => h.apart o (orbits ▸ ho) p (archive ▸ hp)
  told := by
    intro o ho kind
    rw [orbits, archive] at ho
    have same : s'.newsOf o.orbitId = s.newsOf o.orbitId := by
      rw [Store.newsOf, outbox, List.filter_append, Store.newsOf]
      refine (congrArg _ ?_).trans (List.append_nil _)
      simp only [List.filter_cons, List.filter_nil]
      rw [if_neg]
      simp only [Bool.and_eq_true, decide_eq_true_eq, not_and_not_right]
      exact about o ho kind
    rw [same]
    exact h.told o ho kind

/-- A row changes its state and its notification is posted. -/
theorem Store.Posted.turn (h : s.Posted) (ok : s.Ok) (ho : o ∈ s.orbits) (row : o.SameRow o')
    (notifies : e.notifies = true) (step : semanticStep o.state.semantic e = some st)
    (state : projectLegacy st = some o'.state)
    (outbox : s'.outbox = s.outbox ++ [o.news e])
    (rows : ∀ r, r ∈ s'.orbits ↔ r ∈ s.orbits ∧ r.orbitId ≠ o.orbitId ∨ r = o')
    (archive : s'.orbitsArchive = s.orbitsArchive) (uuid : s.uuid ≤ s'.uuid) : s'.Posted where
  drawn := by
    intro r hr i id
    rw [outbox] at hr
    rcases List.mem_append.mp hr with hr | hr
    · exact (h.drawn r hr i id).trans_le uuid
    · rw [List.mem_singleton.mp hr] at id
      cases id
      exact (ok.fresh o ho).trans_le uuid
  archived := fun o ho => (h.archived o (archive ▸ ho)).trans_le uuid
  apart := by
    intro r hr p hp
    rw [archive] at hp
    rcases (rows r).mp hr with ⟨hr, -⟩ | rfl
    · exact h.apart r hr p hp
    · rw [row.orbitId]
      exact h.apart o ho p hp
  told := by
    have log (id : OrbitId) : s'.newsOf id =
        s.newsOf id ++ if o.orbitId = id then [o.news e] else [] := by
      rw [← news_filter o (not_reclaimed_of_step step), Store.newsOf, outbox]
      exact List.filter_append ..
    intro r hr kind
    rw [archive, rows] at hr
    rw [log]
    rcases hr with (⟨hr, other⟩ | rfl) | hr
    · rw [if_neg other.symm, List.append_nil]
      exact h.told r (Or.inl hr) kind
    · rw [row.orbitId, if_pos rfl]
      exact (h.told o (Or.inl ho) (row.kind ▸ kind)).event row notifies step state
    · rw [if_neg (h.apart o ho r hr), List.append_nil]
      exact h.told r (Or.inr hr) kind

/-- A new row and its first notification. -/
theorem Store.Posted.insert (h : s.Posted) (ok : s.Ok) {news : List OutboxRow}
    (introduced : Introduced o news) (id : o.orbitId = s.uuid) (drawn : s.uuid < s'.uuid)
    (outbox : s'.outbox = s.outbox ++ news) (orbits : s'.orbits = s.orbits ++ [o])
    (archive : s'.orbitsArchive = s.orbitsArchive) : s'.Posted where
  drawn := by
    intro r hr i about
    rw [outbox] at hr
    rcases List.mem_append.mp hr with hr | hr
    · exact (h.drawn r hr i about).trans drawn
    · cases introduced with
      | silent => cases hr
      | event =>
          rw [List.mem_singleton.mp hr] at about
          cases about
          rw [id]
          exact drawn
  archived := fun o ho => (h.archived o (archive ▸ ho)).trans drawn
  apart := by
    intro r hr p hp
    rw [archive] at hp
    rw [orbits] at hr
    rcases List.mem_append.mp hr with hr | hr
    · exact h.apart r hr p hp
    · rw [List.mem_singleton.mp hr, id]
      exact (h.archived p hp).ne'
  told := by
    -- nothing was told about the new identifier
    have untold : s.newsOf s.uuid = [] := by
      refine List.filter_eq_nil_iff.mpr fun r hr about => ?_
      simp only [Bool.and_eq_true, decide_eq_true_eq] at about
      exact lt_irrefl _ (h.drawn r hr _ about.1)
    have old : ∀ r, r ∈ s.orbits ∨ r ∈ s.orbitsArchive → o.orbitId ≠ r.orbitId := by
      rintro r (hr | hr) same
      · exact (ok.fresh r hr).ne (same.symm.trans id)
      · exact (h.archived r hr).ne (same.symm.trans id)
    intro r hr kind
    have split : (r ∈ s.orbits ∨ r ∈ s.orbitsArchive) ∨ r = o := by
      rw [orbits, archive, List.mem_append, List.mem_singleton] at hr
      tauto
    cases introduced with
    | silent other =>
        have log : s'.newsOf r.orbitId = s.newsOf r.orbitId := by
          rw [Store.newsOf, outbox, List.append_nil]
          rfl
        rw [log]
        rcases split with hr | rfl
        · exact h.told r hr kind
        · exact absurd kind other
    | @event e st _ notifies step state =>
        have log : s'.newsOf r.orbitId =
            s.newsOf r.orbitId ++ if o.orbitId = r.orbitId then [o.news e] else [] := by
          rw [← news_filter o (not_reclaimed_of_step step), Store.newsOf, outbox]
          exact List.filter_append ..
        rw [log]
        rcases split with hr | rfl
        · rw [if_neg (old r hr), List.append_nil]
          exact h.told r hr kind
        · rw [if_pos rfl, id, untold]
          exact ⟨[e], st, rfl, by simpa using notifies, spells_cons.mpr ⟨st, step, by simp⟩, state⟩

theorem Store.Posted.micro (h : s.Posted) (ok : s.Ok) (step : Micro c E s s') : s'.Posted := by
  cases step with
  | orbit id f news step announced known frame =>
      cases found : s.getOrbit id with
      | none =>
          rw [known found] at frame
          exact h.same (frame.outbox.trans (List.append_nil _)) frame.orbitsArchive frame.uuid
            (frame.orbits.trans (setOrbit_of_none found f))
      | some o =>
          obtain ⟨ho, rfl⟩ := ok.getOrbit.mp found
          have rows (r : Orbit) : r ∈ s'.orbits ↔ r ∈ s.orbits ∧ r.orbitId ≠ o.orbitId ∨ r = f o :=
            frame.orbits ▸ ok.mem_setOrbit ho f r
          have row := (step o found).row
          have outbox := frame.outbox
          cases announced o found with
          | silent same =>
              refine h.quiet (outbox.trans (List.append_nil _)) frame.orbitsArchive frame.uuid ?_
              intro o' ho'
              rcases (rows o').mp ho' with ⟨ho', -⟩ | rfl
              · exact ⟨o', ho', .refl o', fun _ => rfl⟩
              · exact ⟨o, ho, row, fun kind => (same kind).1⟩
          | event kind notifies step state =>
              exact h.turn ok ho row notifies step state outbox rows frame.orbitsArchive frame.uuid
  | insert o news row introduced id drawn ticket line frame =>
      exact h.insert ok introduced id drawn frame.outbox frame.orbits frame.orbitsArchive
  | reject r event id drawn frame =>
      refine h.post (fun i about => ?_) (fun o ho _ about => ?_) frame.outbox frame.orbits
        frame.orbitsArchive frame.uuid
      · rw [id] at about
        cases about
        exact drawn
      · have same : s.uuid = o.orbitId := Option.some.inj (id.symm.trans about)
        rcases ho with ho | ho
        · exact absurd same (ok.fresh o ho).ne'
        · exact absurd same (h.archived o ho).ne'
  | summary r event subject frame =>
      refine h.post (fun i about => ?_) (fun _ _ _ _ => event) frame.outbox frame.orbits
        frame.orbitsArchive frame.uuid
      rcases subject with ⟨o, ho, -, rfl⟩ | ⟨a, -, rfl⟩
      · cases about
        exact (ok.fresh o ho).trans_le frame.uuid
      · cases about
  | stamp now frame =>
      refine h.quiet frame.outbox frame.orbitsArchive frame.uuid fun o' ho' => ?_
      obtain ⟨o, ho, stamped⟩ := (stampTerminal_orbits s now).1 o' (frame.orbits ▸ ho')
      exact ⟨o, ho, stamped.sameRow, fun _ => stamped.state⟩
  | archiveOrbits p terminal unused frame =>
      have rows (r : Orbit) : r ∈ s'.orbits ↔ r ∈ s.orbits ∧ p r = false := by
        rw [frame.orbits, List.mem_filter, Bool.not_eq_true']
      have archive (r : Orbit) :
          r ∈ s'.orbitsArchive ↔ r ∈ s.orbitsArchive ∨ r ∈ s.orbits ∧ p r = true := by
        rw [frame.orbitsArchive, List.mem_append, List.mem_filter]
      refine ⟨fun r hr i about => ?_, fun o ho => ?_, fun o ho r hr => ?_, fun o ho kind => ?_⟩
      · exact (h.drawn r (frame.outbox ▸ hr) i about).trans_le frame.uuid
      · rcases (archive o).mp ho with ho | ⟨ho, -⟩
        · exact (h.archived o ho).trans_le frame.uuid
        · exact (ok.fresh o ho).trans_le frame.uuid
      · obtain ⟨ho, stays⟩ := (rows o).mp ho
        rcases (archive r).mp hr with hr | ⟨hr, goes⟩
        · exact h.apart o ho r hr
        · intro same
          rw [ok.orbit_eq ho hr same, goes] at stays
          cases stays
      · have same : s'.newsOf o.orbitId = s.newsOf o.orbitId := by
          rw [Store.newsOf, frame.outbox]
          rfl
        rw [same]
        refine h.told o ?_ kind
        rw [rows, archive] at ho
        tauto
  | frame frame | enroll _ _ _ _ frame | agent _ _ _ _ frame | task _ _ _ frame
  | declare _ _ frame | publish _ _ _ frame | request _ frame | waiters _ frame
  | slots _ _ _ _ frame | flags _ frame | arm _ _ _ _ _ _ _ _ frame | trip _ _ _ frame
  | archiveTasks _ _ _ _ frame =>
      exact h.same frame.outbox frame.orbitsArchive frame.uuid frame.orbits

theorem Store.Posted.empty : ({} : Store).Posted where
  drawn := fun r hr => by cases hr
  archived := fun o ho => by cases ho
  apart := fun o ho => by cases ho
  told := fun o ho => by rcases ho with ho | ho <;> cases ho

/-- The outbox tells the history of every path orbit in every reachable state. -/
theorem ReachableBy.posted {σ : Sys} {P : Sys → Env × Action → Prop} (h : ReachableBy cfg P σ) :
    σ.store.Posted :=
  Sys.Ok.empty.run_invariant (I := Store.Posted) (fun _ _ _ _ ok ih step => ih.micro ok step) h
    .empty

/-! ## The history -/

/-- The notification of the next change of a row is not in the outbox. -/
theorem Store.Posted.unposted (h : s.Posted) (there : o ∈ s.orbits ∨ o ∈ s.orbitsArchive)
    (kind : o.kind = .orbit) (notifies : e.notifies = true)
    (step : semanticStep o.state.semantic e = some st) : o.news e ∉ s.outbox := by
  intro posted
  obtain ⟨es, st₀, tells, notify, spells, project⟩ := h.told o there kind
  have mem : o.news e ∈ s.newsOf o.orbitId := by
    refine List.mem_filter.mpr ⟨posted, ?_⟩
    simp only [Bool.and_eq_true, decide_eq_true_eq]
    exact ⟨rfl, not_reclaimed_of_step step⟩
  rw [tells] at mem
  obtain ⟨e', taken, same⟩ := List.mem_map.mp mem
  have event : e' = e := congrArg OutboxRow.transition same
  subst event
  rw [← semantic_of_step step project] at step
  exact spells.fresh semanticStep_climbs notify notifies step taken

/-- A change that the machine allows is never refused for its notification. -/
theorem Store.Posted.asserts (h : s.Posted) (ho : o ∈ s.orbits) (kind : o.kind = .orbit)
    {id : AdmissionIdentity} (identity : admissionIdentity o = .ok id)
    (step : semanticStep o.state.semantic e = some st) {expected : Option OrbitState}
    (project : projectLegacy st = expected) :
    ∃ s', assertAdmissionProjection s o.state.semantic e id true expected = .ok s' := by
  rw [assertAdmissionProjection, if_pos rfl, step]
  dsimp only
  rw [if_pos project, Store.enqueueNotification]
  split
  · rename_i notifies
    have row : (⟨e, id.requestId, id.requestGeneration, some id.orbitId⟩ : OutboxRow) =
        o.news e := by
      rw [admissionIdentity_eq identity]
      rfl
    rw [Store.enqueueOutbox, row, if_neg (h.unposted (Or.inl ho) kind notifies step)]
    exact ⟨_, rfl⟩
  · exact ⟨s, rfl⟩

/-- In every reachable state the notifications about a path orbit, one that was archived too, are
the events that took it from its request to its state, each once and in their order; and the outbox
has no notification of a change that is still to come. -/
theorem news_chain {σ : Sys} (reach : Reachable cfg σ)
    (there : o ∈ σ.store.orbits ∨ o ∈ σ.store.orbitsArchive) (kind : o.kind = .orbit) :
    (∃ es st, σ.store.newsOf o.orbitId = es.map o.news ∧ es.Nodup ∧
        Spells semanticStep .REQUESTED es st ∧ projectLegacy st = some o.state) ∧
      ∀ e st, e.notifies = true → semanticStep o.state.semantic e = some st →
        o.news e ∉ σ.store.outbox := by
  have posted : σ.store.Posted := ReachableBy.posted reach
  refine ⟨?_, fun e st notifies step => posted.unposted there kind notifies step⟩
  obtain ⟨es, st, tells, notify, spells, project⟩ := posted.told o there kind
  exact ⟨es, st, tells, spells.nodup semanticStep_climbs notify, spells, project⟩

/-- A claim that waits for another one, until that is released. -/
def grantedLater : List (Env × Action) :=
  [ (Action.call (.claim { agentId := "A", pathspec := ["a"] })).at 1,
    (Action.call (.claim { agentId := "B", pathspec := ["a"] })).at 2,
    (Action.call (.release 0 "A" (some 1) none none)).at 3 ]

/-- It was queued first and granted then. -/
theorem news_chain_grantedLater : ∃ σ, Reachable {} σ ∧ ∃ o ∈ σ.store.orbits,
    σ.store.newsOf o.orbitId = [o.news .ADMISSION_QUEUED, o.news .PROMOTION_GRANTED] ∧
      (∃ es st, σ.store.newsOf o.orbitId = es.map o.news ∧ es.Nodup ∧
        Spells semanticStep .REQUESTED es st ∧ projectLegacy st = some o.state) ∧
      ∀ e st, e.notifies = true → semanticStep o.state.semantic e = some st →
        o.news e ∉ σ.store.outbox := by
  obtain ⟨σ, reach, o, ho, kind, tells⟩ : ∃ σ, Reachable {} σ ∧ ∃ o ∈ σ.store.orbits,
      o.kind = .orbit ∧
        σ.store.newsOf o.orbitId = [o.news .ADMISSION_QUEUED, o.news .PROMOTION_GRANTED] :=
    exists_reachable grantedLater (by decide +kernel)
  exact ⟨σ, reach, o, ho, tells, news_chain reach (Or.inl ho) kind⟩

end Omd
