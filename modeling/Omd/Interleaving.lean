import Omd.Begun
import Omd.Heartbeats
import Omd.Poison

/-!
# Tasks between the cuts

Between two cuts of a begin any other call may run.  A row of a task keeps an end that it has
reached, and comes back from the agent it was handed out to through a reclaim, as long as the one
write that goes by an old read, the `READY` of a begin, finds a task that still waits.  And a begin
starts its task with all that it has acquired when no action takes a row of it away in between,
and no request of its batch was answered by a row that is gone.
-/

namespace Omd

open Lib

variable {cfg : Cfg} {env : Env} {σ σ' : Sys} {a : Action} {l : Env × Action} {c : Scope}
  {E : TaskId → Prop} {s s' : Store} {t t' : Task} {o o' : Orbit}

/-! ## One row of a task -/

/-- A row before and after changes that write over no read. -/
structure Survives (t t' : Task) : Prop where
  id : t'.taskId = t.taskId
  count : t.reclaims ≤ t'.reclaims
  ended : t.state.terminal = true → t'.state = t.state
  out : t.state.admission = false → t'.reclaims = t.reclaims → t'.state.admission = false

theorem Survives.refl (t : Task) : Survives t t := ⟨rfl, le_rfl, fun _ => rfl, fun out _ => out⟩

theorem Survives.trans {t₁ : Task} (h : Survives t t₁) (h' : Survives t₁ t') : Survives t t' where
  id := h'.id.trans h.id
  count := h.count.trans h'.count
  ended := by
    intro ended
    have same := h.ended ended
    rw [← same] at ended
    exact (h'.ended ended).trans same
  out := by
    intro out same
    have le := h.count
    have le' := h'.count
    exact h'.out (h.out out (by omega)) (by omega)

theorem TaskState.admission_of_terminal {st : TaskState} (h : st.terminal = true) :
    st.admission = false := by
  cases st <;> simp [TaskState.terminal, TaskState.admission] at h ⊢

/-- One change of a row. -/
theorem TaskStep.survives (h : TaskStep c E s t t') (no : ¬ c.may (.overwrite t.taskId)) :
    Survives t t' := by
  have count : t.reclaims ≤ t'.reclaims := by
    rcases h.count with same | ⟨requeued, -⟩
    · exact same.ge
    · exact requeued.count ▸ Nat.le_succ _
  have kept (state : t'.state = t.state) : Survives t t' :=
    ⟨h.id, count, fun _ => state, fun out _ => by rw [state]; exact out⟩
  have moved (before : t.state.terminal = false)
      (out : t.state.admission = false → t'.reclaims = t.reclaims → t'.state.admission = false) :
      Survives t t' :=
    ⟨h.id, count, fun ended => by simp [before] at ended, out⟩
  cases h.change with
  | keep state | sync state | refresh _ state => exact kept state
  | ready waiting =>
      have waits : t.state = .PENDING ∨ t.state = .BLOCKED := by
        rcases waiting with pending | blocked | overwrite
        · exact Or.inl pending
        · exact Or.inr blocked
        · exact absurd overwrite no
      rcases waits with waits | waits <;>
        exact moved (by rw [waits]; rfl) fun out => by rw [waits] at out; cases out
  | start _ admitted state =>
      rcases admitted with admitted | admitted <;>
        exact moved (by rw [admitted]; rfl) fun _ _ => by rw [state]; rfl
  | finish started state => exact moved (by rw [started]; rfl) fun _ _ => by rw [state]; rfl
  | abort _ waiting state =>
      refine moved ?_ fun _ _ => by rw [state]; rfl
      cases hs : t.state <;> simp [hs, TaskState.admission, TaskState.terminal] at waiting ⊢
  | reclaim _ _ _ requeued =>
      have busy := requeued.busy
      refine moved ?_ fun _ same => ?_
      · cases hs : t.state <;> simp [hs, TaskState.inProgress, TaskState.terminal] at busy ⊢
      · have more := requeued.count
        omega
  | attempt _ state =>
      rcases state with ⟨before | before, after⟩ | ⟨before, after | after | after⟩ <;>
        exact moved (by rw [before]; rfl) fun _ _ => by rw [after]; rfl

/-- What a step without an overwrite makes of a row that is not archived. -/
theorem Stepped.survives (h : Stepped cfg env σ a s') (ok : σ.store.Ok) (ht : t ∈ σ.store.tasks)
    (no : ¬ Licence cfg env σ a (.overwrite t.taskId)) : σ.store.RowTo s' t (Survives t) := by
  refine (h.invariant (I := fun s => σ.store.departures t.taskId ≤ s.departures t.taskId ∧
    σ.store.RowTo s t (Survives t)) (fun may E s₁ s₂ licensed ok₁ ih step => ?_) ok
    ⟨le_rfl, fun _ => ⟨t, ht, .refl t⟩⟩).2
  obtain ⟨le, row⟩ := ih
  have le' := step.departures t.taskId
  refine ⟨le.trans le', fun same => ?_⟩
  obtain ⟨t₁, ht₁, h₁⟩ := row (by omega)
  obtain ⟨t₂, ht₂, h₂⟩ := step.stays ok₁ ht₁ (by rw [h₁.id]; omega)
  exact ⟨t₂, ht₂, h₁.trans (h₂.survives fun may => no (h₁.id ▸ licensed _ may))⟩

/-- The write of `READY` of a begin. -/
theorem step_beginReady {i : ℕ} {input : Input} {b : BeginArgs} {claims : List Acquired}
    {state : TaskState} (found : σ.procs[i]? = some (.begin b (.ready claims state)))
    (h : step cfg env σ (.resume i input) = .ok σ') :
    σ'.store = σ.store.setTask b.taskId fun r => { r with state := .READY } := by
  rw [step, found] at h
  dsimp only at h
  rw [Outcome.bind_eq_ok] at h
  obtain ⟨⟨s₁, p⟩, h₁, h⟩ := h
  cases h
  rw [procStep, Outcome.bind_eq_ok] at h₁
  obtain ⟨⟨s₂, pc⟩, h₂, h₁⟩ := h₁
  cases h₁
  rw [beginStep, Outcome.bind_eq_ok] at h₂
  obtain ⟨s₃, h₃, h₂⟩ := h₂
  cases h₂
  rw [beginReady, Outcome.bind_eq_ok] at h₃
  obtain ⟨next, ready, h₃⟩ := h₃
  cases h₃
  cases state <;> cases ready
  all_goals rfl

/-! ## One row that is held -/

/-- Each row is there, in its state. -/
def Store.Stands (s s' : Store) : Prop :=
  ∀ o ∈ s.orbits, ∃ o' ∈ s'.orbits, o.SameRow o' ∧ o'.state = o.state

theorem Store.Stands.of_orbits (h : s'.orbits = s.orbits) : s.Stands s' :=
  fun o ho => ⟨o, h ▸ ho, .refl o, rfl⟩

theorem Store.Stands.trans {s₁ : Store} (h : s.Stands s₁) (h' : s₁.Stands s') : s.Stands s' := by
  intro o ho
  obtain ⟨o₁, ho₁, row, state⟩ := h o ho
  obtain ⟨o', ho', row', state'⟩ := h' o₁ ho₁
  exact ⟨o', ho', row.trans row', state'.trans state⟩

theorem setOrbit_stands {id : OrbitId} {f : Orbit → Orbit}
    (same : ∀ o ∈ s.orbits, o.orbitId = id → o.SameRow (f o) ∧ (f o).state = o.state) :
    s.Stands (s.setOrbit id f) := by
  intro o ho
  by_cases hid : o.orbitId = id
  · exact ⟨f o, Table.mem_modify.mpr (Or.inr ⟨o, ho, hid, rfl⟩), same o ho hid⟩
  · exact ⟨o, Table.mem_modify.mpr (Or.inl ⟨ho, hid⟩), .refl o, rfl⟩

theorem heartbeatLeases_stands {now : Time} (xs : List Orbit) :
    s.Stands (xs.foldl (heartbeatLease cfg now) s) := by
  induction xs generalizing s with
  | nil => exact .of_orbits rfl
  | cons o xs ih =>
      refine Store.Stands.trans ?_ ih
      rw [heartbeatLease]
      split
      · exact .of_orbits rfl
      · exact setOrbit_stands fun _ _ _ => ⟨rfl, rfl⟩

theorem heartbeat_stands {now : Time} {agent : AgentId} {ttl : Option ℚ} :
    s.Stands (heartbeat cfg now s agent ttl).1 := by
  rw [heartbeat]
  split
  · exact .of_orbits rfl
  split
  · exact .of_orbits rfl
  · refine Store.Stands.trans ?_ (Store.Stands.trans (heartbeatLeases_stands _)
      (heartbeatLeases_stands _))
    cases ttl with
    | none => exact .of_orbits (upsertAgent_orbits _ _)
    | some ttl => exact .of_orbits (upsertAgent_orbits agent now)

theorem renew_stands {now : Time} {orbit : OrbitId} {agent : AgentId} {fence : Option ℕ} {ttl : ℚ}
    {requestId : Option RequestId} {epoch : Option ℕ} {r : Reply} (ok : s.Ok)
    (h : renew now s orbit agent fence ttl requestId epoch = .ok (s', r)) : s.Stands s' := by
  rw [renew] at h
  split at h
  · cases h
    exact .of_orbits rfl
  rw [Outcome.bind_eq_ok] at h
  obtain ⟨⟨s₁, r₁⟩, h₁, h⟩ := h
  cases h
  rcases withIdem_cases ok h₁ with ⟨_, -, -, same⟩ | ⟨s₂, s₃, apart, ok₂, h₂, same⟩
  · exact .of_orbits (congrArg Store.orbits same)
  refine Store.Stands.trans (.of_orbits apart.orbits) (Store.Stands.trans ?_
    (.of_orbits (congrArg Store.orbits same)))
  rw [renewBody] at h₂
  split at h₂
  · cases h₂
    exact .of_orbits rfl
  have upserted := upsertAgent_orbits (s := s₂) agent now
  refine Store.Stands.trans (.of_orbits upserted) ?_
  dsimp only at h₂
  split at h₂
  · cases h₂
    exact .of_orbits rfl
  rename_i o found
  split at h₂
  · cases h₂
    exact .of_orbits rfl
  rename_i held
  split at h₂
  · cases h₂
    exact .of_orbits rfl
  rw [Outcome.bind_eq_ok] at h₂
  obtain ⟨s₄, h₄, h₂⟩ := h₂
  cases h₂
  rw [renewOrbit, Outcome.bind_eq_ok] at h₄
  obtain ⟨s₅, h₅, h₄⟩ := h₄
  obtain ⟨_, _, -, -, reduced⟩ := reduceOrbitLifecycle_spec h₅
  cases h₄
  rw [reduced.silent rfl]
  refine setOrbit_stands fun p hp id => ?_
  have row : p = o := by
    rw [upserted] at hp
    refine ok₂.orbit_eq hp ?_ id
    have mem := Table.mem_of_get found
    rwa [upserted] at mem
  subst row
  exact ⟨rfl, (not_not.mp held).symm⟩

/-- The renewals leave every row in its state. -/
theorem step_renews {id : OrbitId} (ok : σ.Ok) (may : Licence cfg env σ a (.renew id))
    (h : step cfg env σ a = .ok σ') : σ.store.Stands σ'.store := by
  cases may with
  | renew call =>
      subst call
      rw [step, Verb.run, Outcome.bind_eq_ok] at h
      obtain ⟨⟨s₁, r⟩, h₁, h⟩ := h
      cases h
      exact renew_stands ok.store h₁
  | heartbeat call =>
      subst call
      rw [step, Verb.run, Outcome.bind_eq_ok] at h
      obtain ⟨⟨s₁, r⟩, h₁, h⟩ := h
      cases h
      have stands : σ.store.Stands (s₁, r).1 := Except.ok.inj h₁ ▸ heartbeat_stands
      exact stands
  | liveness cut =>
      obtain ⟨i, rfl, found⟩ := cut
      rw [step, found] at h
      dsimp only at h
      rw [Outcome.bind_eq_ok] at h
      obtain ⟨⟨s₁, p⟩, h₁, h⟩ := h
      cases h
      rw [procStep, Outcome.bind_eq_ok] at h₁
      obtain ⟨⟨s₂, pc⟩, h₂, h₁⟩ := h₁
      cases h₁
      rw [beginStep] at h₂
      split at h₂ <;> (cases h₂; exact heartbeat_stands)

/-- The action takes the row from its holder: its time is up, it is released, its holder is
reclaimed, its task is cancelled, or its merge is published. -/
inductive TakesAway (cfg : Cfg) (σ : Sys) (l : Env × Action) (o : Orbit) : Prop
  | due (h : reached o.expiresAt l.1.now = true)
  | released {agent : AgentId} {fence : Option ℕ} {id : Option RequestId} {epoch : Option ℕ}
      (h : l.2 = .call (.release o.orbitId agent fence id epoch))
  | reclaimed (h : Reclaims cfg σ l o.agentId)
  | cancelled {task : TaskId} {id : Option RequestId} (h : l.2 = .call (.cancel task id))
      (of : o.taskId = some task)
  | repaired {t : Task} (h : Recovers σ l.2) (row : t ∈ σ.store.tasks)
      (aborted : t.state = .ABORTED) (of : o.taskId = some t.taskId)
  | merged {task : TaskId} (h : Marks l.1 σ l.2 task "merged") (of : o.taskId = some task)

/-- One change of a row that is held. -/
theorem OrbitStep.stays (h : OrbitStep ⟨cfg, env.now, c.may⟩ E s o o')
    (licensed : ∀ d, c.may d → Licence cfg env σ a d) (kind : o.kind = .orbit)
    (held : o.state = .HELD) (no : ¬ TakesAway cfg σ (env, a) o) : o'.state = .HELD := by
  cases h.change with
  | keep state | rebind _ _ state => exact state.trans held
  | expire due => exact absurd (.due (isDue_iff.mp due).2.2.2) no
  | deny pending => cases held.symm.trans pending
  | promote pending => cases held.symm.trans (isPending_iff.mp pending).1
  | release _ _ _ may =>
      cases licensed _ may with
      | release call => exact absurd (.released call) no
  | lease other | permit other | token other => cases kind.symm.trans other
  | @cancelled t _ of _ _ _ _ may =>
      generalize t.taskId = task at of may
      cases licensed _ may with
      | close call => exact absurd (.cancelled call of) no
      | repair recovers row aborted => exact absurd (.repaired recovers row aborted of) no
  | reclaimed may =>
      refine absurd (.reclaimed ?_) no
      rcases may with may | may
      · cases licensed _ may with
        | zombie sweeps overdue => exact .zombie sweeps overdue
      · cases licensed _ may with
        | bail cut => exact .bail cut
  | attempt of _ _ state =>
      rcases state with state | ⟨-, -, may⟩
      · exact state.trans held
      · cases licensed _ may with
        | mark marks => exact absurd (.merged marks of) no

/-- The row is there and held. -/
def Store.Held (s : Store) (id : OrbitId) : Prop := ∃ o ∈ s.orbits, o.orbitId = id ∧ o.state = .HELD

/-- A row that no action takes away is still held after a step. -/
theorem step_held (ok : σ.Ok) (h : step cfg env σ a = .ok σ') (ho : o ∈ σ.store.orbits)
    (kind : o.kind = .orbit) (held : o.state = .HELD) (no : ¬ TakesAway cfg σ (env, a) o) :
    ∃ o' ∈ σ'.store.orbits, o.SameRow o' ∧ o'.state = .HELD := by
  by_cases renews : Licence cfg env σ a (.renew o.orbitId)
  · obtain ⟨o', ho', row, state⟩ := step_renews ok renews h o ho
    exact ⟨o', ho', row, state.trans held⟩
  suffices kept : ∃ o' ∈ σ'.store.orbits, o.SameRow o' ∧ o'.state = .HELD ∧
      o'.expiresAt = o.expiresAt by
    obtain ⟨o', ho', row, state, -⟩ := kept
    exact ⟨o', ho', row, state⟩
  refine (step_spec ok h).1.invariant
    (I := fun s => ∃ o' ∈ s.orbits, o.SameRow o' ∧ o'.state = .HELD ∧ o'.expiresAt = o.expiresAt)
    (fun may E s₁ s₂ licensed ok₁ ih step => ?_) ok.store ⟨o, ho, .refl o, held, rfl⟩
  obtain ⟨o₁, ho₁, row₁, state₁, deadline₁⟩ := ih
  have kind₁ := row₁.kind.trans kind
  rcases (step.orbits ok₁).forth ho₁ ok₁ with ⟨o₂, ho₂, change⟩ | ⟨-, ended, -⟩
  · have still : ¬ TakesAway cfg σ (env, a) o₁ := by
      intro takes
      refine no ?_
      cases takes with
      | due h => exact .due (deadline₁ ▸ h)
      | released h => exact .released (row₁.orbitId ▸ h)
      | reclaimed h => exact .reclaimed (row₁.agentId ▸ h)
      | cancelled h of => exact .cancelled h (row₁.taskId ▸ of)
      | repaired h row aborted of => exact .repaired h row aborted (row₁.taskId ▸ of)
      | merged h of => exact .merged h (row₁.taskId ▸ of)
    have held₂ := change.stays (c := ⟨cfg, env.now, may⟩) licensed kind₁ state₁ still
    refine ⟨o₂, ho₂, row₁.trans change.row, held₂, ?_⟩
    cases change.change with
    | keep _ _ _ deadline =>
        rcases deadline (Or.inl kind₁) with same | renew
        · exact same.trans deadline₁
        · exact absurd (row₁.orbitId ▸ licensed _ renew) renews
    | attempt _ _ _ _ deadline => exact deadline.trans deadline₁
    | expire _ state => cases held₂.symm.trans state
    | deny pending => cases state₁.symm.trans pending
    | promote pending => cases state₁.symm.trans (isPending_iff.mp pending).1
    | release _ _ _ _ state => cases held₂.symm.trans state
    | lease other | permit other | token other | rebind other => cases kind₁.symm.trans other
    | cancelled _ _ _ _ _ state | reclaimed _ _ _ state =>
        rw [held₂] at state
        cases state
  · rw [state₁] at ended
    cases ended

/-! ## What a begin has acquired -/

/-- The leases that a begin goes on with, up to its start. -/
def BeginPc.acquired : BeginPc → List Acquired
  | .read claims | .ready claims _ | .start claims => claims
  | _ => []

/-- The requests of the batch that were answered name rows that are held, in the store that its
sweep leaves. -/
def BeginArgs.AnsweredTruly (b : BeginArgs) (cfg : Cfg) (s : Store) : Prop :=
  ∀ spec ∈ b.specs, b.ownIntent s spec = none → ∀ c id reply,
    (b.claimArgs spec).validate cfg = .ok c → Answered s c id reply →
      reply.state = some (.orbit .HELD) → ∃ o ∈ s.orbits, reply.orbitId = some o.orbitId ∧
        o.state = .HELD

/-- A begin writes `READY` on a task that still waits, its batch is answered truly, and nothing
takes away what it has acquired. -/
structure Undisturbed (cfg : Cfg) (σ : Sys) (l : Env × Action) : Prop where
  written : ∀ b claims state input, σ.Cut l.2 (.begin b (.ready claims state)) input →
    ∀ t ∈ σ.store.tasks, t.taskId = b.taskId → t.state.admission = true
  answered : ∀ b legacy input, σ.Cut l.2 (.begin b (.batch legacy)) input →
    ∀ s, sweepInline cfg l.1.now σ.store = .ok s → b.AnsweredTruly cfg s
  keeps : ∀ b pc, Proc.begin b pc ∈ σ.procs → ∀ c ∈ pc.acquired, ∀ o ∈ σ.store.orbits,
    o.orbitId = c.orbitId → ¬ TakesAway cfg σ l o

variable {b : BeginArgs}

/-- A claim of a batch that is answered as held names a row that is, or was answered before. -/
theorem claim_named {now : Time} {spec : Spec} {r : Reply} {id : OrbitId} (ok : s.Ok)
    (intents : s.Intents) (h : claim cfg now s (b.claimArgs spec) (some now) = .ok (s', r))
    (positive : r.state = some (.orbit .HELD)) (named : r.orbitId = some id) :
    s'.Held id ∨ ∃ c rid reply, (b.claimArgs spec).validate cfg = .ok c ∧
      Answered s c rid reply ∧ reply.state = some (.orbit .HELD) ∧ reply.orbitId = some id := by
  rw [claim] at h
  split at h
  · cases h
  split at h
  · rename_i reply invalid
    cases h
    rw [ClaimArgs.validate_refused invalid] at positive
    cases positive
  rename_i c valid
  rcases (claimSection_left ok.drawn intents h).1 with
    ⟨-, rid, reply, answered, state, name⟩ | left
  · exact Or.inr ⟨c, rid, reply, valid, answered, state.symm.trans positive, name.symm.trans named⟩
  cases left with
  | known dup mem kind intent reply orbits fence name =>
      rw [positive, Option.some.injEq, ReplyState.orbit.injEq] at reply
      have same : dup.orbitId = id := Option.some.inj (name.symm.trans named)
      exact Or.inl ⟨dup, orbits ▸ mem, same, reply.symm⟩
  | refused reply => exact absurd positive reply
  | granted o kind intent held reply free decided rows name =>
      have same : o.orbitId = id := Option.some.inj (name.symm.trans named)
      exact Or.inl ⟨o, (rows o held).mpr (Or.inr rfl), same, held⟩
  | queued o waits reply =>
      rw [positive, Option.some.injEq, ReplyState.orbit.injEq] at reply
      rw [← reply] at waits
      rcases waits with waits | waits <;> cases waits

/-- What an acquisition adds is held in the end, or was answered before it began. -/
theorem beginAcquire_named {now : Time} {specs : List Spec} {claims final : List Acquired}
    (ok : s.Ok) (intents : s.Intents)
    (apart : specs.Pairwise fun x y => x.mode ≠ y.mode ∧ x.suffix ≠ y.suffix)
    (h : beginAcquire cfg now b specs s claims = .ok (.inr (s', final))) :
    ∀ c ∈ final, c ∈ claims ∨ s'.Held c.orbitId ∨ ∃ spec ∈ specs,
      (claims.any fun c => c.mode = spec.mode) = false ∧ ∃ a rid reply,
        (b.claimArgs spec).validate cfg = .ok a ∧ Answered s a rid reply ∧
          reply.state = some (.orbit .HELD) ∧ reply.orbitId = some c.orbitId := by
  induction specs generalizing s claims with
  | nil =>
      cases h
      exact fun c hc => Or.inl hc
  | cons spec specs ih =>
      rw [List.pairwise_cons] at apart
      rw [beginAcquire] at h
      split at h
      · intro c hc
        rcases ih ok intents apart.2 h c hc with old | held | ⟨spec', hspec', answered⟩
        · exact Or.inl old
        · exact Or.inr (Or.inl held)
        · exact Or.inr (Or.inr ⟨spec', List.mem_cons_of_mem _ hspec', answered⟩)
      · rename_i absent
        rw [Bool.not_eq_true] at absent
        rw [Outcome.bind_eq_ok] at h
        obtain ⟨⟨s₁, r₁⟩, h₁, h⟩ := h
        dsimp only at h
        split at h
        · rename_i id positive named
          have takes : Moves ⟨cfg, now, fun _ => True⟩ s s₁ :=
            batchClaim_takes trivial trivial (fun _ _ _ => trivial)
              (fun _ _ _ _ _ _ _ => trivial) h₁ ok
          have ok₁ := ok.moves takes
          have intents₁ := intents.moves ok takes
          have first := claim_held ok intents h₁ positive
          have rest := beginAcquire_spec ok₁ intents₁ apart.2 h
          intro c hc
          rcases ih ok₁ intents₁ apart.2 h c hc with old | held | ⟨spec', hspec', none_, a, rid,
            reply, valid, answered, state, orbit⟩
          · rcases List.mem_append.mp old with old | new
            · exact Or.inl old
            · rw [List.mem_singleton.mp new]
              rcases claim_named ok intents h₁ positive named with ⟨o, ho, id, held⟩ | answered
              · exact Or.inr (Or.inl ⟨o, rest.forth o ho held, id, held⟩)
              · exact Or.inr (Or.inr ⟨spec, List.mem_cons_self, absent, answered⟩)
          · exact Or.inr (Or.inl held)
          · refine Or.inr (Or.inr ⟨spec', List.mem_cons_of_mem _ hspec', ?_, a, rid, reply, valid,
              ?_, state, orbit⟩)
            · rw [List.any_append, Bool.or_eq_false_iff] at none_
              exact none_.1
            · -- the claim of another member leaves this request as it was
              obtain ⟨request, prior, found, done, agent, args, response⟩ := answered
              refine ⟨request, prior, ?_, done, agent, args, response⟩
              obtain ⟨mem, key⟩ := ok₁.getIdem.mp found
              have asked : b.rid spec'.suffix = some rid :=
                (ClaimArgs.validate_request valid).symm.trans request
              refine ok.getIdem.mpr ⟨(first.spares.requests prior ?_).mp mem, key⟩
              rw [key]
              exact rid_ne (apart.1 spec' hspec').2.symm asked
        · cases h

/-- What a batch ends with is held, when its requests were answered truly. -/
theorem beginBatch_held {now : Time} {legacy : Bool} {claims : List Acquired} (ok : s.Ok)
    (intents : s.Intents)
    (truly : ∀ s₀, sweepInline cfg now s = .ok s₀ → b.AnsweredTruly cfg s₀)
    (h : beginBatch cfg now s b legacy = .ok (s', .inr claims)) :
    ∀ c ∈ claims, s'.Held c.orbitId := by
  rw [beginBatch, Outcome.bind_eq_ok] at h
  obtain ⟨s₁, swept, h⟩ := h
  have free : Collecting fun _ => True := ⟨trivial, fun _ => trivial⟩
  have sweep : Moves ⟨cfg, now, fun _ => True⟩ s s₁ :=
    sweepInline_takes trivial free (fun _ _ => trivial) swept ok
  have ok₁ := ok.moves sweep
  have intents₁ := intents.moves ok sweep
  split at h
  · cases h
  rw [Outcome.bind_eq_ok] at h
  obtain ⟨pre, hpre, h⟩ := h
  cases pre with
  | inl stopped => cases h
  | inr held =>
      dsimp only at h
      rw [Outcome.bind_eq_ok] at h
      obtain ⟨acquired, hacquire, h⟩ := h
      cases acquired with
      | inl reply => cases h
      | inr left =>
          cases h
          have stays := (beginAcquire_spec ok₁ intents₁ (specs_apart b) hacquire).forth
          intro c hc
          rcases beginAcquire_named ok₁ intents₁ (specs_apart b) hacquire c hc with
            found | held | ⟨spec, hspec, absent, a, rid, reply, valid, answered, state, orbit⟩
          · rcases (beginPreflight_found hpre).2 c found with none_ |
                ⟨spec, -, dup, own, state, rfl⟩
            · cases none_
            · obtain ⟨mem, -⟩ := member_of_ownIntent intents₁ own
              exact ⟨dup, stays dup mem state, rfl, state⟩
          · exact held
          · have own : b.ownIntent s₁ spec = none := by
              by_contra known
              have present := ((beginPreflight_passes hpre).2 spec.mode).mpr
                (Or.inr ⟨spec, hspec, rfl, known⟩)
              rw [absent] at present
              cases present
            obtain ⟨o, ho, same, held⟩ :=
              truly s₁ swept spec hspec own a rid reply valid answered state
            exact ⟨o, stays o ho held, Option.some.inj (same.symm.trans orbit), held⟩

/-- A cut of a begin acquires in its batch only. -/
theorem beginStep_acquired {pc pc' : BeginPc} (h : beginStep cfg env s b pc = .ok (s', pc')) :
    (∃ legacy claims, pc = .batch legacy ∧ pc' = .read claims ∧
        beginBatch cfg env.now s b legacy = .ok (s', .inr claims)) ∨
      ∀ c ∈ pc'.acquired, c ∈ pc.acquired := by
  have none_ {pc' : BeginPc} (none_ : pc'.acquired = []) : ∀ c ∈ pc'.acquired, c ∈ pc.acquired := by
    rw [none_]
    exact fun c hc => by cases hc
  cases pc with
  | declare legacy | liveness legacy =>
      rw [beginStep] at h
      split at h <;> (cases h; exact Or.inr (none_ rfl))
  | deps legacy rest unmet =>
      cases rest with
      | nil =>
          rw [beginStep] at h
          split at h
          · cases h
            exact Or.inr (none_ rfl)
          · cases h
            refine Or.inr (none_ ?_)
            rw [BeginArgs.afterDeps]
            split <;> rfl
      | cons d rest =>
          cases h
          exact Or.inr (none_ rfl)
  | batch legacy =>
      rw [beginStep, Outcome.bind_eq_ok] at h
      obtain ⟨⟨s₁, x⟩, h₁, h⟩ := h
      cases x with
      | inl reply =>
          cases h
          exact Or.inr (none_ rfl)
      | inr claims =>
          cases h
          exact Or.inl ⟨legacy, claims, rfl, rfl, h₁⟩
  | read claims =>
      rw [beginStep] at h
      split at h
      · cases h
      · split at h <;> (cases h; exact Or.inr fun c hc => hc)
  | ready claims state =>
      rw [beginStep, Outcome.bind_eq_ok] at h
      obtain ⟨s₁, -, h⟩ := h
      cases h
      exact Or.inr fun c hc => hc
  | start claims =>
      rw [beginStep, Outcome.bind_eq_ok] at h
      obtain ⟨⟨s₁, r⟩, -, h⟩ := h
      dsimp only at h
      split at h <;> (cases h; exact Or.inr (none_ rfl))
  | final | ended =>
      cases h
      exact Or.inr (none_ rfl)

/-- What the begins under way have acquired is held. -/
def Sys.Secured (σ : Sys) : Prop :=
  ∀ b pc, Proc.begin b pc ∈ σ.procs → ∀ c ∈ pc.acquired, σ.store.Held c.orbitId

/-- What a begin has acquired is held by its agent, and stays so. -/
theorem Sys.Secured.stays {pc : BeginPc} (secured : σ.Secured) (ok : σ.Ok) (begun : σ.Begun cfg)
    (hp : Proc.begin b pc ∈ σ.procs) (calm : Undisturbed cfg σ (env, a))
    (h : step cfg env σ a = .ok σ') : ∀ c ∈ pc.acquired, ∃ o ∈ σ'.store.orbits,
      o.orbitId = c.orbitId ∧ o.state = .HELD ∧ o.agentId = b.agentId := by
  intro c hc
  obtain ⟨o, ho, id, held⟩ := secured b pc hp c hc
  have sound := (begun.begins b pc hp).2
  have acquires : ∃ claims, c ∈ claims ∧ b.Acquires cfg σ.store claims := by
    cases pc with
    | read | ready | start => exact ⟨_, hc, sound.2⟩
    | declare | deps | liveness | batch | final | ended => cases hc
  obtain ⟨claims, mem, acquires⟩ := acquires
  obtain ⟨spec, -, -, knows⟩ := acquires.known c mem
  have member := (knows.row o ho id).member
  have stays := calm.keeps b pc hp c hc o ho id
  obtain ⟨o', ho', row, held'⟩ := step_held ok h ho member.kind held stays
  exact ⟨o', ho', row.orbitId.trans id, held', row.agentId.trans member.agent⟩

theorem Sys.Secured.step (secured : σ.Secured) (ok : σ.Ok) (intents : σ.store.Intents)
    (begun : σ.Begun cfg) (calm : Undisturbed cfg σ (env, a)) (h : step cfg env σ a = .ok σ') :
    σ'.Secured := by
  have stays {b : BeginArgs} {pc : BeginPc} (hp : Proc.begin b pc ∈ σ.procs) :
      ∀ c ∈ pc.acquired, σ'.store.Held c.orbitId := by
    intro c hc
    obtain ⟨o, ho, id, held, -⟩ := secured.stays ok begun hp calm h c hc
    exact ⟨o, ho, id, held⟩
  intro b pc hp
  rcases step_begins h hp with old | ⟨legacy, -, rfl, -⟩ | ⟨pc₀, input, old, cut⟩
  · exact stays old
  · exact fun c hc => by cases hc
  · intro c hc
    rcases beginStep_acquired cut with ⟨legacy, claims, rfl, rfl, batch⟩ | sub
    · exact beginBatch_held ok.store intents (calm.answered b legacy input old) batch c hc
    · exact stays old.mem c (sub c hc)

/-! ## Runs -/

/-- A task that an agent works on, or has finished. -/
def TaskState.handedOut : TaskState → Bool
  | .CLAIMED | .IN_ORBIT | .DONE | .CONNECTING => true
  | _ => false

/-- A row at two times of a run: an end is kept, and the way back is a reclaim. -/
structure Abides (t t' : Task) : Prop where
  id : t'.taskId = t.taskId
  ended : t.state.terminal = true → t'.state = t.state
  back : t.state.handedOut = true → t'.state = .READY → t.reclaims < t'.reclaims

theorem Survives.abides (h : Survives t t') : Abides t t' where
  id := h.id
  ended := h.ended
  back := by
    intro out ready
    have le := h.count
    by_contra more
    have waits : t'.state.admission = false := by
      refine h.out ?_ (by omega)
      cases hs : t.state <;> simp [hs, TaskState.handedOut, TaskState.admission] at out ⊢
    rw [ready] at waits
    cases waits

theorem step_survives (ok : σ.Ok) (calm : Undisturbed cfg σ (env, a))
    (h : step cfg env σ a = .ok σ') (ht : t ∈ σ.store.tasks) :
    σ.store.RowTo σ'.store t (Survives t) := by
  by_cases cut : ∃ b claims state input, σ.Cut a (.begin b (.ready claims state)) input
  · obtain ⟨b, claims, state, input, cut⟩ := cut
    have waits := calm.written b claims state input cut t ht
    obtain ⟨i, rfl, found⟩ := cut
    rw [step_beginReady found h]
    intro _
    by_cases id : t.taskId = b.taskId
    · refine ⟨_, Table.mem_modify.mpr (Or.inr ⟨t, ht, id, rfl⟩), rfl, le_rfl, fun ended => ?_,
        fun out => ?_⟩
      · have settled := TaskState.admission_of_terminal ended
        rw [waits id] at settled
        cases settled
      · rw [waits id] at out
        cases out
    · exact ⟨t, Table.mem_modify.mpr (Or.inl ⟨ht, id⟩), .refl t⟩
  · refine (step_spec ok h).1.survives ok.store ht fun may => ?_
    generalize t.taskId = task at may
    cases may with
    | overwrite found => exact cut ⟨_, _, _, _, found⟩

/-- In the runs that nothing disturbs a row of a task keeps its end and comes back through a
reclaim only, and a begin starts its task with all that it has acquired. -/
theorem task_survives (reach : ReachableBy cfg (Undisturbed cfg) σ)
    (run : Transition.Run (Step cfg) (Undisturbed cfg) σ σ') :
    (∀ t ∈ σ.store.tasks, σ.store.RowTo σ'.store t (Abides t)) ∧
      ∀ env i input b claims σ'', σ'.procs[i]? = some (.begin b (.start claims)) →
        Undisturbed cfg σ' (env, .resume i input) → Step cfg σ' (env, .resume i input) σ'' →
          (claims.map Acquired.mode).Perm (b.specs.map Spec.mode) ∧
            ∀ c ∈ claims, ∃ o ∈ σ''.store.orbits, o.orbitId = c.orbitId ∧ o.state = .HELD ∧
              o.agentId = b.agentId := by
  constructor
  · intro t ht
    suffices (σ'.Ok ∧ σ.store.departures t.taskId ≤ σ'.store.departures t.taskId) ∧
        σ.store.RowTo σ'.store t (Survives t) by
      intro same
      obtain ⟨t', ht', h⟩ := this.2 same
      exact ⟨t', ht', h.abides⟩
    refine run.invariant (I := fun τ => (τ.Ok ∧
      σ.store.departures t.taskId ≤ τ.store.departures t.taskId) ∧
        σ.store.RowTo τ.store t (Survives t)) (fun τ l τ' ih calm next => ?_)
      ⟨⟨reach.ok, le_rfl⟩, fun _ => ⟨t, ht, .refl t⟩⟩
    obtain ⟨⟨ok, le⟩, row⟩ := ih
    obtain ⟨left, ok'⟩ := step_spec ok next
    have le' : τ.store.departures t.taskId ≤ τ'.store.departures t.taskId :=
      left.invariant (I := fun s => τ.store.departures t.taskId ≤ s.departures t.taskId)
        (fun _ _ _ _ _ _ ih change => ih.trans (change.departures _)) ok.store le_rfl
    refine ⟨⟨ok', le.trans le'⟩, fun same => ?_⟩
    obtain ⟨t₁, ht₁, h₁⟩ := row (by omega)
    obtain ⟨t₂, ht₂, h₂⟩ := step_survives ok calm next ht₁ (by rw [h₁.id]; omega)
    exact ⟨t₂, ht₂, h₁.trans h₂⟩
  · intro env i input b claims σ'' found calm next
    have reach' : ReachableBy cfg (Undisturbed cfg) σ' := reach.trans run
    have begun : σ'.Begun cfg := reach'.begun
    have secured : σ'.Secured := by
      refine (Transition.Run.invariant (I := fun τ => ((τ.Ok ∧ τ.store.Intents) ∧ τ.Begun cfg) ∧
        τ.Secured) (fun τ l τ' ih calm next => ?_) reach' ⟨⟨⟨.empty, .empty⟩, ?_, ?_⟩, ?_⟩).2
      · obtain ⟨⟨⟨ok, intents⟩, begun⟩, secured⟩ := ih
        have next : Omd.step cfg l.1 τ l.2 = .ok τ' := next
        obtain ⟨left, ok'⟩ := step_spec ok next
        refine ⟨⟨⟨ok', ?_⟩, begun.step ok intents next⟩,
          secured.step ok intents begun calm next⟩
        exact left.invariant (I := Store.Intents) (fun _ _ _ _ _ ok ih step => ih.micro ok step)
          ok.store intents
      · intro b pc hp
        cases hp
      · intro row hrow
        cases hrow
      · intro b pc hp
        cases hp
    have hp := List.mem_of_getElem? found
    refine ⟨((begun.begins b _ hp).2.2).modes, ?_⟩
    have stays := secured.stays reach'.ok begun hp calm next
    exact stays

/-- A coordinator that no agent is late for. -/
def unhurried : Cfg := { agentTtl := none }

/-- A begin without a request. -/
def Proc.unrequested : Proc → Bool
  | .begin b _ => b.requestId.isNone
  | _ => false

theorem Proc.begin_of_unrequested {p : Proc} (h : p.unrequested = true) :
    ∃ b pc, p = .begin b pc ∧ b.requestId = none := by
  unfold Proc.unrequested at h
  split at h
  · exact ⟨_, _, rfl, Option.isNone_iff_eq_none.mp h⟩
  · cases h

/-- Begins without requests are under way, and go on in time: one that writes `READY` does so on a
task that waits, and what is cancelled has no rows. -/
def begunInTime (σ : Sys) (l : Env × Action) : Bool :=
  σ.procs.all Proc.unrequested && (σ.store.orbits.all fun o => !reached o.expiresAt l.1.now) &&
    match l.2 with
    | .begin _ | .call (.declare _) => true
    | .call (.cancel task _) => σ.store.orbits.all fun o => o.taskId ≠ some task
    | .resume k _ =>
        match σ.procs[k]? with
        | some (.begin b (.ready _ _)) =>
            σ.store.tasks.all fun t => t.taskId ≠ b.taskId || t.state.admission
        | _ => true
    | _ => false

theorem begunInTime_sound (h : begunInTime σ l = true) : Undisturbed unhurried σ l := by
  obtain ⟨env, a⟩ := l
  rw [begunInTime, Bool.and_eq_true, Bool.and_eq_true, List.all_eq_true, List.all_eq_true] at h
  obtain ⟨⟨begins, inTime⟩, gentle⟩ := h
  have begun {p : Proc} {input : Input} (cut : σ.Cut a p input) :
      ∃ b pc, p = .begin b pc ∧ b.requestId = none :=
    Proc.begin_of_unrequested (begins p cut.mem)
  refine ⟨?_, ?_, ?_⟩
  · rintro b claims state input ⟨k, rfl, found⟩ t ht id
    dsimp only at gentle
    rw [found] at gentle
    simpa [id] using List.all_eq_true.mp gentle t ht
  · intro b legacy input cut s _ spec _ _ c id reply valid answered
    obtain ⟨b', pc, same, unrequested⟩ := begun cut
    cases same
    obtain ⟨paths, -, rfl⟩ := ClaimArgs.validate_eq valid
    have request := answered.request
    simp [BeginArgs.claimArgs, BeginArgs.rid, unrequested] at request
  · intro b pc hp c hc o ho _ takes
    have recovers : ¬ Recovers σ a := by
      intro h
      cases h with
      | action h =>
          subst h
          cases gentle
      | connect h | arrive h | bail h =>
          obtain ⟨_, _, same, -⟩ := begun h
          cases same
    cases takes with
    | due due =>
        have := inTime o ho
        rw [due] at this
        cases this
    | released h =>
        cases h
        cases gentle
    | cancelled h of =>
        cases h
        simpa [of] using List.all_eq_true.mp gentle o ho
    | reclaimed h =>
        cases h with
        | zombie _ overdue =>
            obtain ⟨ttl, limit, -⟩ := overdue
            cases limit
        | bail h =>
            obtain ⟨_, _, same, -⟩ := begun h
            cases same
    | repaired h => exact recovers h
    | merged h =>
        generalize "merged" = mark at h
        cases h with
        | finish h =>
            cases h
            cases gentle
        | phaseC h =>
            cases h with
            | connect h | trip h =>
                obtain ⟨_, _, same, -⟩ := begun h
                cases same
        | recovery h => exact recovers h

/-- A begin over one path, up to its start. -/
def beginA : BeginArgs := { taskId := "T", agentId := "A", writes := ["a"] }

/-- What a begin is about to start with. -/
def Proc.startOf (b : BeginArgs) : Proc → Option (List Acquired)
  | .begin b' (.start claims) => if b' = b then some claims else none
  | _ => none

theorem startOf_eq {p : Proc} {claims : List Acquired} (h : p.startOf b = some claims) :
    p = .begin b (.start claims) := by
  unfold Proc.startOf at h
  split at h
  · split at h
    · rename_i same
      cases h
      rw [same]
    · cases h
  · cases h

/-- The cut that a begin goes on with. -/
def goesOn (k : ℕ) : Env × Action := (Action.resume k {}).at 1

/-- One task has ended, another begin has started its own, and a begin declares its task. -/
def endedAndStarted : List (Env × Action) :=
  [ (Action.call (.declare { taskId := "U", writes := ["c"] })).at 1,
    (Action.call (.cancel "U" none)).at 1,
    (Action.begin { taskId := "V", agentId := "B", writes := ["b"] }).at 1 ] ++
  List.replicate 7 (goesOn 0) ++ [(Action.begin beginA).at 1, goesOn 1]

/-- The begin goes on up to its start, and a third one goes on between its cuts. -/
def takeTurns : List (Env × Action) :=
  [ (Action.begin { taskId := "W", agentId := "C", writes := ["d"] }).at 1,
    goesOn 1, goesOn 2, goesOn 1, goesOn 2, goesOn 2, goesOn 1, goesOn 2, goesOn 1 ]

/-- The begins take turns up to the start of the second one, and it starts. -/
def startsInTurn (σ : Sys) : Bool :=
  match execWhen unhurried begunInTime takeTurns σ with
  | .ok σ' =>
      begunInTime σ' (goesOn 1) && (step unhurried (goesOn 1).1 σ' (goesOn 1).2).toOption.isSome &&
        match σ'.procs[1]?.bind (Proc.startOf beginA) with
        | some claims => !claims.isEmpty
        | none => false
  | .error _ => false

/-- A task that ended and one that was handed out stay so while two begins take turns, and the one
of them that starts has what it acquired. -/
theorem task_survives_turns : ∃ σ σ', Transition.Run (Step unhurried) (Undisturbed unhurried) σ σ' ∧
    (∃ t ∈ σ.store.tasks, t.state = .ABORTED) ∧ (∃ t ∈ σ.store.tasks, t.state = .IN_ORBIT) ∧
      (∀ t ∈ σ.store.tasks, σ.store.RowTo σ'.store t (Abides t)) ∧
        ∃ claims σ'', claims ≠ [] ∧ σ'.procs[1]? = some (.begin beginA (.start claims)) ∧
          Step unhurried σ' (goesOn 1) σ'' ∧ ∀ c ∈ claims, ∃ o ∈ σ''.store.orbits,
            o.orbitId = c.orbitId ∧ o.state = .HELD ∧ o.agentId = "A" := by
  obtain ⟨σ, reach, ⟨ended, started⟩, later⟩ :
      ∃ σ, ReachableBy unhurried (Undisturbed unhurried) σ ∧
      ((∃ t ∈ σ.store.tasks, t.state = .ABORTED) ∧ ∃ t ∈ σ.store.tasks, t.state = .IN_ORBIT) ∧
        startsInTurn σ = true :=
    exists_reachableWhen endedAndStarted begunInTime (fun _ _ => begunInTime_sound)
      (by decide +kernel)
  rw [startsInTurn] at later
  split at later
  · rename_i σ' exec
    obtain ⟨⟨calm, some_⟩, starts⟩ := by simpa only [Bool.and_eq_true] using later
    split at starts
    · rename_i claims found
      obtain ⟨p, hp, start⟩ := Option.bind_eq_some_iff.mp found
      cases startOf_eq start
      obtain ⟨σ'', next⟩ := Option.isSome_iff_exists.mp some_
      have next : step unhurried (goesOn 1).1 σ' (goesOn 1).2 = .ok σ'' := by
        cases h : step unhurried (goesOn 1).1 σ' (goesOn 1).2 with
        | error e => rw [h] at next; cases next
        | ok τ => rw [h] at next; cases next; rfl
      have run : Transition.Run (Step unhurried) (Undisturbed unhurried) σ σ' :=
        run_of_execWhen (fun _ _ => begunInTime_sound) exec
      obtain ⟨abides, keeps⟩ := task_survives reach run
      refine ⟨σ, σ', run, ended, started, abides, claims, σ'', ?_, hp, next, ?_⟩
      · rintro rfl
        cases starts
      · exact (keeps _ 1 {} beginA claims σ'' hp (begunInTime_sound calm) next).2
    · cases starts
  · cases later

/-- A begin has read its task `READY`, and the task is cancelled. -/
def cancelAtReady : List (Env × Action) :=
  (Action.begin beginA).at 1 :: List.replicate 4 (goesOn 0) ++
    [(Action.call (.cancel "T" none)).at 1]

/-- The begin writes `READY` over the end of its task. -/
theorem cancelled_comes_back : ¬ ∀ σ σ', Reachable {} σ →
    Transition.Run (Step {}) (fun _ _ => True) σ σ' → ∀ t ∈ σ.store.tasks,
      t.state = .ABORTED → σ.store.RowTo σ'.store t fun t' => t'.taskId = t.taskId ∧
        t'.state = .ABORTED := by
  intro keeps
  obtain ⟨σ, reach, ⟨t, ht, aborted, id⟩, next⟩ : ∃ σ, Reachable {} σ ∧
      (∃ t ∈ σ.store.tasks, t.state = .ABORTED ∧ t.taskId = "T") ∧
        (step {} (goesOn 0).1 σ (goesOn 0).2).toOption.any (fun σ' =>
          σ'.store.departures "T" = σ.store.departures "T" ∧
            ∀ t ∈ σ'.store.tasks, t.state = .READY) = true :=
    exists_reachable cancelAtReady (by decide +kernel)
  obtain ⟨σ', next, same, ready⟩ := exists_step next
  obtain ⟨t', ht', -, stays⟩ := keeps σ σ' reach (.tail (.refl σ) trivial next) t ht aborted
    (by rw [id, same])
  cases (ready t' ht').symm.trans stays

end Omd
