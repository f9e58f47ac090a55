import Omd.Begun
import Omd.Heartbeats
import Omd.Retirement

/-!
# A begin that is repeated

A begin that returned is made again, with the same arguments, while its leases are live and its
task is in orbit under its agent; other calls may run before each of its cuts.  The batch finds
each lease by the intent of its list, which it sorts only: a path that is given twice hides the
lease, whose row has its paths once, and the claim that is made instead is turned away, since the
task is no longer one that may be admitted.
-/

namespace Omd

open Lib

variable {cfg : Cfg} {now : Time} {s s' : Store} {b : BeginArgs} {claims : List Acquired}

/-! ## What stays -/

/-- A lease is live: its row is held, with the fence that came with it. -/
def Acquired.Live (s : Store) (c : Acquired) : Prop :=
  ∃ o ∈ s.orbits, o.orbitId = c.orbitId ∧ o.state = .HELD ∧ o.fence = c.fence

namespace BeginArgs

variable (b)

/-- The task is in orbit under the agent. -/
def InOrbit (s : Store) : Prop :=
  ∃ t, s.getTask b.taskId = some t ∧ t.state = .IN_ORBIT ∧ t.agentId = some b.agentId

/-- The leases of the begin are live, and its task is still in orbit. -/
structure Stands (claims : List Acquired) (s : Store) : Prop where
  leases : ∀ c ∈ claims, c.Live s
  task : b.InOrbit s

/-- The cut of the batch, after the declaration, the dependencies and the window. -/
def batchCut : ℕ := (b.deps.getD []).length + 2 + if b.livenessTtl.isSome then 1 else 0

end BeginArgs

/-- The begin returned ok: where it is read for the last time, in a run. -/
structure Returned (cfg : Cfg) (σ : Sys) (b : BeginArgs) (claims : List Acquired)
    (started : Reply) : Prop where
  reach : Reachable cfg σ
  call : .begin b (.final claims started) ∈ σ.procs
  ok : (beginReply σ.store b claims started).ok = some true

/-- A system that is reached afterwards, while the begin stands. -/
structure Meanwhile (cfg : Cfg) (σ : Sys) (b : BeginArgs) (claims : List Acquired) (τ : Sys) :
    Prop where
  run : Transition.Run (Step cfg) (fun _ _ => True) σ τ
  stands : b.Stands claims τ.store

/-! ## The begin that is made again -/

/-- What a cut finds once it has swept; only the batch sweeps. -/
def BeginPc.swept (cfg : Cfg) (now : Time) (s : Store) : BeginPc → Except Fault Store
  | .batch _ => sweepInline cfg now s
  | _ => .ok s

/-- No row is added, no fence and no ticket is drawn. -/
structure AddsNothing (s s' : Store) : Prop where
  rows : s'.orbits.map Orbit.orbitId = s.orbits.map Orbit.orbitId
  fence : s'.fence = s.fence
  ticket : s'.seq = s.seq

/-- A begin that goes on to its last read and returns with these leases and this reply.  Its cuts
see the stores of `sees` one after the other, and add nothing to what they find. -/
inductive Returns (cfg : Cfg) (b : BeginArgs) :
    (ℕ → Env × Sys) → BeginPc → List Acquired → Reply → Prop
  | read {sees : ℕ → Env × Sys} {claims : List Acquired} {started : Reply} :
      Returns cfg b sees (.final claims started) claims
        (beginReply (sees 0).2.store b claims started)
  | cut {sees : ℕ → Env × Sys} {pc pc' : BeginPc} {s₀ s' : Store} {claims : List Acquired}
      {r : Reply} (cut : beginStep cfg (sees 0).1 (sees 0).2.store b pc = .ok (s', pc'))
      (swept : pc.swept cfg (sees 0).1.now (sees 0).2.store = .ok s₀) (adds : AddsNothing s₀ s')
      (rest : Returns cfg b (fun n => sees (n + 1)) pc' claims r) : Returns cfg b sees pc claims r

/-- From here on the begin returns ok, with the same leases and fences. -/
def Repeats (cfg : Cfg) (b : BeginArgs) (claims : List Acquired) (sees : ℕ → Env × Sys)
    (pc : BeginPc) : Prop :=
  ∃ again r, Returns cfg b sees pc again r ∧ r.ok = some true ∧ again.Perm claims

namespace BeginArgs

variable (b)

/-- The dependencies of the begin close no cycle. -/
def Acyclic (s : Store) : Prop :=
  b.deps.getD [] = [] ∨ wouldCycle s b.taskId (b.deps.getD []) = none

/-- The start of the begin is not refused: not at its request, and when the request is new or there
is none, not for its agent. -/
structure Starts (s : Store) : Prop where
  answered : ∀ id reply, b.rid "start" = some id →
    enterIdem s id (some b.agentId) (.start b.taskId) = .ok (.inl reply) → reply.ok ≠ some false
  alive : (∀ id reply, b.rid "start" = some id →
    enterIdem s id (some b.agentId) (.start b.taskId) ≠ .ok (.inl reply)) →
      checkAlive s (some b.agentId) b.bailEpoch = none

/-- What a begin that is made again asks of its lists, and of what its cuts see. -/
structure MayRepeat (sees : ℕ → Env × Sys) : Prop where
  distinct : ∀ spec ∈ b.specs, spec.paths.Nodup
  acyclic : b.Acyclic (sees 0).2.store
  merged : ∀ i (h : i < (b.deps.getD []).length),
    ((sees (1 + i)).2.store.getTask (b.deps.getD [])[i]).map Task.state = some .MERGED
  starts : b.Starts (sees (b.batchCut + 2)).2.store

end BeginArgs

/-! ## Its cuts -/

section

variable {sees : ℕ → Env × Sys} {pc : BeginPc}

theorem AddsNothing.refl (s : Store) : AddsNothing s s := ⟨rfl, rfl, rfl⟩

/-- A begin that ended does not go on. -/
theorem Returns.ended {again : List Acquired} {r reply : Reply} :
    ¬ Returns cfg b sees (.ended reply) again r := by
  intro h
  generalize hpc : BeginPc.ended reply = pc at h
  induction h with
  | read => cases hpc
  | cut cut _ _ _ ih =>
      subst hpc
      rw [beginStep] at cut
      cases cut
      exact ih rfl

/-- A cut before the last read. -/
theorem repeats_cut (before : ∀ cs st, pc ≠ .final cs st) :
    Repeats cfg b claims sees pc ↔ ∃ s₀ s' pc',
      beginStep cfg (sees 0).1 (sees 0).2.store b pc = .ok (s', pc') ∧
      pc.swept cfg (sees 0).1.now (sees 0).2.store = .ok s₀ ∧ AddsNothing s₀ s' ∧
      Repeats cfg b claims (fun n => sees (n + 1)) pc' := by
  constructor
  · rintro ⟨again, r, returns, rest⟩
    cases returns with
    | read => exact absurd rfl (before _ _)
    | cut cut swept adds returns => exact ⟨_, _, _, cut, swept, adds, again, r, returns, rest⟩
  · rintro ⟨s₀, s', pc', cut, swept, adds, again, r, returns, rest⟩
    exact ⟨again, r, .cut cut swept adds returns, rest⟩

/-- A cut that leaves the store goes on. -/
theorem repeats_next {pc pc' : BeginPc} (before : ∀ cs st, pc ≠ .final cs st)
    (swept : pc.swept cfg (sees 0).1.now (sees 0).2.store = .ok (sees 0).2.store)
    (next : beginStep cfg (sees 0).1 (sees 0).2.store b pc = .ok ((sees 0).2.store, pc')) :
    Repeats cfg b claims sees pc ↔ Repeats cfg b claims (fun n => sees (n + 1)) pc' := by
  rw [repeats_cut before]
  constructor
  · rintro ⟨s₀, s₁, pc'', cut, -, -, rest⟩
    cases next.symm.trans cut
    exact rest
  · intro rest
    exact ⟨_, _, _, next, swept, .refl _, rest⟩

theorem not_repeats_ended {reply : Reply} : ¬ Repeats cfg b claims sees (.ended reply) := by
  rintro ⟨again, r, returns, -⟩
  exact returns.ended

theorem repeats_final {cs : List Acquired} {started : Reply} (stands : b.InOrbit (sees 0).2.store) :
    Repeats cfg b claims sees (.final cs started) ↔ cs.Perm claims := by
  constructor
  · rintro ⟨again, r, returns, -, same⟩
    cases returns with
    | read => exact same
    | cut cut _ _ returns =>
        rw [beginStep] at cut
        cases cut
        exact absurd returns Returns.ended
  · intro same
    obtain ⟨t, found, state, -⟩ := stands
    exact ⟨cs, _, .read, by simp [beginReply, found, state], same⟩

/-! ### The start -/

/-- The wrapper answers or reserves. -/
theorem enterIdem_total (s : Store) (id : RequestId) (agent : Option AgentId) (args : IdemArgs) :
    ∃ hit, enterIdem s id agent args = .ok hit := by
  rw [enterIdem]
  split
  · exact ⟨_, rfl⟩
  split
  · exact ⟨_, rfl⟩
  rename_i prior found
  split
  · exact ⟨_, rfl⟩
  rename_i same
  rw [not_or, not_not, not_not] at same
  split
  · exact ⟨_, rfl⟩
  · rename_i retryable
    have exact : s.idempotency.any (Store.idemExact id agent args .RETRYABLE) = true := by
      rw [List.any_eq_true]
      exact ⟨prior, Table.mem_of_get found,
        idemExact_iff.mpr ⟨Table.key_of_get found, same.1, same.2, retryable⟩⟩
    rw [Store.reopenIdemExact, Store.updateIdem, if_pos exact]
    exact ⟨_, rfl⟩
  · exact ⟨_, rfl⟩

/-- What the wrapper reserved is in flight. -/
theorem enterIdem_inflight {id : RequestId} {agent : Option AgentId} {args : IdemArgs}
    (h : enterIdem s id agent args = .ok (.inr s')) :
    s'.idempotency.any (Store.idemExact id agent args .INFLIGHT) = true := by
  rw [enterIdem] at h
  split at h
  · cases h
  split at h
  · rename_i new
    cases h
    rw [Store.beginIdem, new]
    simp [Store.idemExact]
  split at h
  · cases h
  split at h
  · cases h
  · split at h
    · cases h
    rename_i reopened
    cases h
    rw [Store.reopenIdemExact, Store.updateIdem] at reopened
    split at reopened
    · rename_i hit
      cases reopened
      obtain ⟨row, hrow, exact⟩ := List.any_eq_true.mp hit
      rw [List.any_eq_true]
      refine ⟨_, List.mem_map_of_mem hrow, ?_⟩
      rw [if_pos exact]
      obtain ⟨same, agent, args, -⟩ := idemExact_iff.mp exact
      exact idemExact_iff.mpr ⟨same, agent, args, rfl⟩
    · cases reopened
  · cases h

theorem exitIdem_total {id : RequestId} {agent : Option AgentId} {args : IdemArgs} (now : Time)
    (r : Result) (inflight : s.idempotency.any (Store.idemExact id agent args .INFLIGHT) = true) :
    ∃ s', exitIdem now s id agent args r = .ok s' := by
  rw [exitIdem]
  split
  · exact ⟨_, rfl⟩
  split
  · rw [Store.finishIdemExact, Store.updateIdem, if_pos inflight]
    exact ⟨_, rfl⟩
  · exact ⟨_, rfl⟩

/-- What the start of a task that is in orbit leaves for the wrapper. -/
def BeginArgs.restarted (b : BeginArgs) (s : Store) : Result :=
  match checkAlive s (some b.agentId) b.bailEpoch with
  | some dead => .set dead
  | none => .set { state := some (.task .IN_ORBIT), dedup := true }

theorem restarted_refuses :
    (b.restarted s).reply.ok = some false ↔ checkAlive s (some b.agentId) b.bailEpoch ≠ none := by
  rw [BeginArgs.restarted]
  cases alive : checkAlive s (some b.agentId) b.bailEpoch with
  | none => simp [Result.set]
  | some dead => simp [Result.set, ok_of_dead alive]

theorem startBody_inOrbit (env : Env) (inOrbit : b.InOrbit s) :
    startBody env s b.taskId b.agentId b.bailEpoch = .ok (s, b.restarted s) := by
  obtain ⟨t, found, state, agent⟩ := inOrbit
  rw [startBody, BeginArgs.restarted]
  cases checkAlive s (some b.agentId) b.bailEpoch with
  | some dead => rfl
  | none => simp [found, state, agent, TaskState.started]

theorem restarted_congr (agents : s'.agents = s.agents) : b.restarted s' = b.restarted s := by
  rw [BeginArgs.restarted, BeginArgs.restarted, checkAlive_congr agents]

theorem BeginArgs.InOrbit.of_apart (h : b.InOrbit s) (apart : Apart s s') : b.InOrbit s' := by
  rw [BeginArgs.InOrbit, Store.getTask, apart.tasks]
  exact h

theorem AddsNothing.of_apart (h : Apart s s') : AddsNothing s s' := by
  rw [Apart] at h
  rw [h]
  exact ⟨rfl, rfl, rfl⟩

/-- A start of a task in orbit returns, changes the requests at most, and refuses where it may not
start. -/
theorem start_inOrbit (env : Env) (ok : s.Ok) (inOrbit : b.InOrbit s) :
    ∃ s' r, start env s b.taskId b.agentId (b.rid "start") b.bailEpoch = .ok (s', r) ∧
      Apart s s' ∧ (r.ok = some false ↔ ¬ b.Starts s) := by
  rw [start]
  cases request : b.rid "start" with
  | none =>
      refine ⟨s, (b.restarted s).reply, ?_, .refl s, ?_⟩
      · rw [withIdem, startBody_inOrbit env inOrbit]
        rfl
      · rw [restarted_refuses, not_iff_not]
        refine ⟨fun alive => ⟨?_, fun _ => alive⟩, fun starts => starts.alive ?_⟩ <;>
          (intro id reply same; cases request.symm.trans same)
  | some id =>
      obtain ⟨hit, henter⟩ := enterIdem_total s id (some b.agentId) (.start b.taskId)
      cases hit with
      | inl reply =>
          refine ⟨s, reply, ?_, .refl s, ?_⟩
          · rw [withIdem, henter]
            rfl
          constructor
          · exact fun refused starts => starts.answered id reply request henter refused
          · intro stuck
            by_contra answers
            refine stuck ⟨fun id' reply' same entered => ?_, fun new => ?_⟩
            · cases request.symm.trans same
              cases henter.symm.trans entered
              exact answers
            · exact absurd henter (new id reply request)
      | inr s₁ =>
          obtain ⟨entered, ok₁⟩ := enterIdem_apart ok henter
          obtain ⟨s₂, exits⟩ := exitIdem_total env.now (b.restarted s) (enterIdem_inflight henter)
          refine ⟨s₂, (b.restarted s).reply, ?_, entered.trans (exitIdem_eq exits), ?_⟩
          · rw [Outcome.bind_eq_ok]
            refine ⟨(s₂, b.restarted s), ?_, rfl⟩
            rw [withIdem, Outcome.bind_eq_ok]
            refine ⟨.inr s₁, henter, ?_⟩
            dsimp only
            rw [startBody_inOrbit env (inOrbit.of_apart entered), restarted_congr entered.agents,
              Outcome.bind_eq_ok]
            refine ⟨(s₁, b.restarted s), rfl, ?_⟩
            rw [Outcome.bind_eq_ok]
            exact ⟨s₂, exits, rfl⟩
          · rw [restarted_refuses, not_iff_not]
            refine ⟨fun alive => ⟨?_, fun _ => alive⟩, fun starts => starts.alive ?_⟩
            · intro id' reply same entered'
              cases request.symm.trans same
              cases henter.symm.trans entered'
            · intro id' reply same entered'
              cases request.symm.trans same
              cases henter.symm.trans entered'

theorem repeats_start {cs : List Acquired} (ok : (sees 0).2.store.Ok)
    (inOrbit : ∀ n, b.InOrbit (sees n).2.store) :
    Repeats cfg b claims sees (.start cs) ↔ b.Starts (sees 0).2.store ∧ cs.Perm claims := by
  obtain ⟨s', r, run, apart, refuses⟩ := start_inOrbit (sees 0).1 ok (inOrbit 0)
  rw [repeats_cut (by simp)]
  constructor
  · rintro ⟨s₀, s₁, pc', cut, -, -, rest⟩
    rw [beginStep, Outcome.bind_eq_ok] at cut
    obtain ⟨x, hx, cut⟩ := cut
    cases run.symm.trans hx
    dsimp only at cut
    split at cut
    · cases cut
      exact absurd rest not_repeats_ended
    · rename_i accepted
      cases cut
      rw [repeats_final (inOrbit 1)] at rest
      exact ⟨not_not.mp fun stuck => accepted (refuses.mpr stuck), rest⟩
  · rintro ⟨starts, same⟩
    refine ⟨(sees 0).2.store, s', .final cs r, ?_, rfl, .of_apart apart,
      (repeats_final (inOrbit 1)).mpr same⟩
    rw [beginStep, Outcome.bind_eq_ok]
    exact ⟨(s', r), run, if_neg fun refused => refuses.mp refused starts⟩

theorem repeats_read {cs : List Acquired} (ok : (sees 1).2.store.Ok)
    (inOrbit : ∀ n, b.InOrbit (sees n).2.store) :
    Repeats cfg b claims sees (.read cs) ↔ b.Starts (sees 1).2.store ∧ cs.Perm claims := by
  have next : beginStep cfg (sees 0).1 (sees 0).2.store b (.read cs) =
      .ok ((sees 0).2.store, .start cs) := by
    obtain ⟨t, found, state, -⟩ := inOrbit 0
    simp [beginStep, found, state]
  rw [repeats_next (by simp) rfl next]
  exact repeats_start ok fun n => inOrbit (n + 1)

/-! ### The batch -/

/-- The preflight finds every list whose row the agent holds. -/
theorem beginPreflight_all {specs : List Spec} {offset : ℤ} {cs : List Acquired}
    (own : ∀ spec ∈ specs, ∃ dup, b.ownIntent s spec = some dup ∧ dup.state = .HELD) :
    ∃ held, beginPreflight cfg now s b specs offset cs = .ok (.inr held) := by
  induction specs generalizing offset cs with
  | nil => exact ⟨cs, rfl⟩
  | cons spec specs ih =>
      obtain ⟨dup, found, held⟩ := own spec List.mem_cons_self
      rw [beginPreflight, found]
      dsimp only
      rw [if_neg (not_not.mpr held)]
      exact ih fun spec' hspec' => own spec' (List.mem_cons_of_mem _ hspec')

/-- An acquisition that has a lease for every list claims nothing. -/
theorem beginAcquire_all {specs : List Spec} {held : List Acquired}
    (present : ∀ spec ∈ specs, (held.any fun c => c.mode = spec.mode) = true) :
    beginAcquire cfg now b specs s held = .ok (.inr (s, held)) := by
  induction specs with
  | nil => rfl
  | cons spec specs ih =>
      rw [beginAcquire, if_pos (present spec List.mem_cons_self)]
      exact ih fun spec' hspec' => present spec' (List.mem_cons_of_mem _ hspec')

/-- While the task is in orbit a list that has no lease is not acquired. -/
theorem beginAcquire_stuck {specs : List Spec} {held final : List Acquired}
    (inOrbit : b.InOrbit s) {spec : Spec} (hspec : spec ∈ specs)
    (absent : (held.any fun c => c.mode = spec.mode) = false) :
    beginAcquire cfg now b specs s held ≠ .ok (.inr (s', final)) := by
  intro h
  induction specs with
  | nil => cases hspec
  | cons first specs ih =>
      rw [beginAcquire] at h
      split at h
      · rename_i present
        rcases List.mem_cons.mp hspec with rfl | hspec
        · rw [absent] at present
          cases present
        · exact ih hspec h
      · rw [Outcome.bind_eq_ok] at h
        obtain ⟨⟨s₁, r₁⟩, h₁, h⟩ := h
        obtain ⟨t, found, state, -⟩ := inOrbit
        obtain ⟨-, rejected⟩ := claim_ineligible found (by rw [state]; rfl) rfl h₁
        dsimp only at h
        rw [rejected] at h
        cases h

/-- The rows that the agent has of a list have its paths once. -/
theorem distinct_of_ownIntent (intents : s.Intents) {spec : Spec} {o : Orbit}
    (h : b.ownIntent s spec = some o) : spec.paths.Nodup := by
  rw [BeginArgs.ownIntent, Option.filter_eq_some_iff] at h
  obtain ⟨mem, key, -⟩ := orbitByIntent_spec h.1
  obtain ⟨kind, same⟩ := intents.of_key mem key
  have paths : o.pathspec = spec.paths.insertionSort (· ≤ ·) := (IntentKey.mk.inj same).2.1
  have distinct := (normalizePathspec_sorted (intents.paths o mem kind)).2
  rw [paths] at distinct
  exact (List.perm_insertionSort _ _).nodup_iff.mp distinct

/-- A list that has each path once finds the row that is held. -/
theorem ownIntent_of_distinct (intents : s.Intents) {spec : Spec} {o : Orbit} (ho : o ∈ s.orbits)
    (member : b.Member spec o) (held : o.state = .HELD) (distinct : spec.paths.Nodup) :
    b.ownIntent s spec = some o := by
  have paths : o.pathspec = spec.paths.insertionSort (· ≤ ·) := by
    obtain ⟨sorted, nodup⟩ := normalizePathspec_sorted (intents.paths o ho member.kind)
    have perm : o.pathspec.Perm (spec.paths.insertionSort (· ≤ ·)) := by
      refine ((List.perm_ext_iff_of_nodup nodup distinct).mpr member.paths).trans ?_
      exact (List.perm_insertionSort _ _).symm
    exact perm.eq_of_pairwise (fun q r _ _ => le_antisymm) sorted (List.pairwise_insertionSort _ _)
  have key : o.intent = b.intentKey spec := by
    rw [Orbit.intent, BeginArgs.intentKey, member.agent, member.task, member.mode, paths]
  have live : o.live = true := by rw [Orbit.live, held]; rfl
  have found : s.orbitByIntent (b.intentKey spec) = some o := by
    cases found : s.orbitByIntent (b.intentKey spec) with
    | none =>
        have dead := intents.none_live (by simp [found]) ho member.kind key
        rw [live] at dead
        cases dead
    | some r =>
        obtain ⟨mem, key', live'⟩ := orbitByIntent_spec found
        obtain ⟨kind, same⟩ := intents.of_key mem key'
        rw [intents.single r mem o ho kind member.kind live' live (same.trans key.symm)]
  rw [BeginArgs.ownIntent, found]
  simp [member.agent]

/-- The lease of a list, and its row. -/
theorem lease_of_spec (acquires : b.Acquires cfg s claims) (live : ∀ c ∈ claims, c.Live s)
    {spec : Spec} (hspec : spec ∈ b.specs) :
    ∃ o ∈ s.orbits, b.Lease cfg spec o ∧ o.state = .HELD ∧
      (⟨spec.mode, o.orbitId, o.fence⟩ : Acquired) ∈ claims := by
  have mode : spec.mode ∈ claims.map Acquired.mode :=
    acquires.modes.mem_iff.mpr (List.mem_map_of_mem hspec)
  obtain ⟨c, hc, mode⟩ := List.mem_map.mp mode
  obtain ⟨spec', hspec', mode', knows⟩ := acquires.known c hc
  cases specs_eq b hspec' hspec (mode'.trans mode)
  obtain ⟨o, ho, id, held, fence⟩ := live c hc
  refine ⟨o, ho, knows.row o ho id, held, ?_⟩
  rw [id, fence, ← mode]
  exact hc

/-- A batch that goes on while the task is in orbit has each path once. -/
theorem beginBatch_distinct {legacy : Bool} {s₀ : Store} {final : List Acquired}
    (intents : s₀.Intents) (inOrbit : b.InOrbit s₀) (swept : sweepInline cfg now s = .ok s₀)
    (h : beginBatch cfg now s b legacy = .ok (s', .inr final)) :
    ∀ spec ∈ b.specs, spec.paths.Nodup := by
  rw [beginBatch, Outcome.bind_eq_ok] at h
  obtain ⟨s₁, h₁, h⟩ := h
  cases h₁.symm.trans swept
  split at h
  · cases h
  rw [Outcome.bind_eq_ok] at h
  obtain ⟨pre, hpre, h⟩ := h
  cases pre with
  | inl stopped => cases h
  | inr held =>
      dsimp only at h
      rw [Outcome.bind_eq_ok] at h
      obtain ⟨acquired, hacquire, h⟩ := h
      cases acquired with
      | inl reply => cases h
      | inr left =>
          intro spec hspec
          cases own : b.ownIntent s₀ spec with
          | some dup => exact distinct_of_ownIntent intents own
          | none =>
              refine absurd hacquire (beginAcquire_stuck inOrbit hspec ?_)
              rw [← Bool.not_eq_true, (beginPreflight_passes hpre).2 spec.mode]
              rintro (none | ⟨spec', hspec', mode, known⟩)
              · cases none
              · cases specs_eq b hspec' hspec mode
                exact known own

theorem specs_nodup (b : BeginArgs) : (b.specs.map Spec.mode).Nodup :=
  List.pairwise_map.mpr ((specs_apart b).imp And.left)

/-- The leases that are there are found by their lists. -/
theorem own_of_live (intents : s.Intents) (acquires : b.Acquires cfg s claims)
    (live : ∀ c ∈ claims, c.Live s) (distinct : ∀ spec ∈ b.specs, spec.paths.Nodup) {spec : Spec}
    (hspec : spec ∈ b.specs) :
    ∃ o, b.ownIntent s spec = some o ∧ o.state = .HELD ∧ b.Lease cfg spec o ∧
      (⟨spec.mode, o.orbitId, o.fence⟩ : Acquired) ∈ claims := by
  obtain ⟨o, ho, lease, held, mem⟩ := lease_of_spec acquires live hspec
  exact ⟨o, ownIntent_of_distinct intents ho lease.member held (distinct spec hspec), held, lease,
    mem⟩

/-- A priority of an older policy is that of the leases. -/
theorem resumes_of_live (intents : s.Intents) (acquires : b.Acquires cfg s claims)
    (live : ∀ c ∈ claims, c.Live s) (distinct : ∀ spec ∈ b.specs, spec.paths.Nodup)
    (rejects : cfg.policy.acceptsBasePriority b.priority = false) :
    b.legacyResumeLive cfg s = true := by
  rw [BeginArgs.legacyResumeLive, Bool.and_eq_true, List.all_eq_true]
  refine ⟨?_, fun spec hspec => ?_⟩
  · have lists := acquires.accepted.resolve_left (by rw [rejects]; simp)
    simpa using lists
  · obtain ⟨o, found, -, lease, -⟩ := own_of_live intents acquires live distinct hspec
    obtain ⟨priority, accepted⟩ := lease.accepted.resolve_left (by rw [rejects]; simp)
    rw [found, Option.any_some, Bool.and_eq_true, decide_eq_true_eq]
    exact ⟨priority, accepted⟩

/-- The batch of lists that have each path once ends with the leases that are there. -/
theorem beginBatch_again {legacy : Bool} {s₀ : Store} (intents : s₀.Intents)
    (acquires : b.Acquires cfg s₀ claims) (live : ∀ c ∈ claims, c.Live s₀)
    (resumes : legacy = true → cfg.policy.acceptsBasePriority b.priority = false)
    (distinct : ∀ spec ∈ b.specs, spec.paths.Nodup) (swept : sweepInline cfg now s = .ok s₀) :
    ∃ held, beginBatch cfg now s b legacy = .ok (s₀, .inr held) ∧ held.Perm claims := by
  have own : ∀ spec ∈ b.specs, ∃ o, b.ownIntent s₀ spec = some o ∧ o.state = .HELD ∧
      b.Lease cfg spec o ∧ (⟨spec.mode, o.orbitId, o.fence⟩ : Acquired) ∈ claims :=
    fun spec hspec => own_of_live intents acquires live distinct hspec
  have resumed : legacy = true → b.legacyResumeLive cfg s₀ = true :=
    fun legacy => resumes_of_live intents acquires live distinct (resumes legacy)
  obtain ⟨held, hpre⟩ : ∃ held, beginPreflight cfg now s₀ b b.specs 1 [] = .ok (.inr held) := by
    refine beginPreflight_all fun spec hspec => ?_
    obtain ⟨o, found, state, -⟩ := own spec hspec
    exact ⟨o, found, state⟩
  obtain ⟨modes, known⟩ := beginPreflight_found hpre
  have present : ∀ spec ∈ b.specs, (held.any fun c => c.mode = spec.mode) = true := by
    intro spec hspec
    obtain ⟨o, found, -⟩ := own spec hspec
    exact ((beginPreflight_passes hpre).2 spec.mode).mpr
      (Or.inr ⟨spec, hspec, rfl, by rw [found]; simp⟩)
  refine ⟨held, ?_, ?_⟩
  · rw [beginBatch, Outcome.bind_eq_ok]
    refine ⟨s₀, swept, ?_⟩
    have lives : ¬ (legacy ∧ !b.legacyResumeLive cfg s₀) := by
      rintro ⟨legacy, dead⟩
      rw [resumed legacy] at dead
      cases dead
    rw [if_neg lives, Outcome.bind_eq_ok]
    refine ⟨.inr held, hpre, ?_⟩
    dsimp only
    rw [beginAcquire_all present]
    rfl
  · have all : held.map Acquired.mode = b.specs.map Spec.mode := by
      rw [modes, List.map_nil, List.nil_append, List.filter_eq_self.mpr]
      intro spec hspec
      obtain ⟨o, found, -⟩ := own spec hspec
      rw [found]
      rfl
    have once : held.Nodup := List.Nodup.of_map _ (all ▸ specs_nodup b)
    have among : held ⊆ claims := by
      intro c hc
      rcases known c hc with hc | ⟨spec, hspec, dup, found, -, rfl⟩
      · cases hc
      · obtain ⟨o, found', -, -, mem⟩ := own spec hspec
        cases found.symm.trans found'
        exact mem
    have length : claims.length = held.length := by
      have perm := acquires.modes.length_eq
      rw [← all, List.length_map, List.length_map] at perm
      exact perm
    exact (List.subperm_of_subset once among).perm_of_length_le length.le

theorem repeats_batch {legacy : Bool} {s₀ : Store} (intents : s₀.Intents)
    (acquires : b.Acquires cfg s₀ claims) (stands : b.Stands claims s₀)
    (resumes : legacy = true → cfg.policy.acceptsBasePriority b.priority = false)
    (swept : sweepInline cfg (sees 0).1.now (sees 0).2.store = .ok s₀)
    (ok : (sees 2).2.store.Ok) (inOrbit : ∀ n, b.InOrbit (sees n).2.store) :
    Repeats cfg b claims sees (.batch legacy) ↔
      (∀ spec ∈ b.specs, spec.paths.Nodup) ∧ b.Starts (sees 2).2.store := by
  have tail (cs : List Acquired) : Repeats cfg b claims (fun n => sees (n + 1)) (.read cs) ↔
      b.Starts (sees 2).2.store ∧ cs.Perm claims := repeats_read ok fun n => inOrbit (n + 1)
  rw [repeats_cut (by simp)]
  constructor
  · rintro ⟨s₁, s', pc', cut, -, -, rest⟩
    rw [beginStep, Outcome.bind_eq_ok] at cut
    obtain ⟨⟨s₂, x⟩, hbatch, cut⟩ := cut
    dsimp only at cut
    split at cut
    · cases cut
      exact absurd rest not_repeats_ended
    · cases cut
      exact ⟨beginBatch_distinct intents stands.task swept hbatch, ((tail _).mp rest).1⟩
  · rintro ⟨distinct, starts⟩
    obtain ⟨held, hbatch, same⟩ :=
      beginBatch_again intents acquires stands.leases resumes distinct swept
    refine ⟨s₀, s₀, .read held, ?_, swept, .refl s₀, (tail held).mpr ⟨starts, same⟩⟩
    rw [beginStep, Outcome.bind_eq_ok]
    exact ⟨(s₀, .inr held), hbatch, rfl⟩

/-! ### Before the batch -/

theorem AddsNothing.trans {s₁ : Store} (h : AddsNothing s s₁) (h' : AddsNothing s₁ s') :
    AddsNothing s s' :=
  ⟨h'.rows.trans h.rows, h'.fence.trans h.fence, h'.ticket.trans h.ticket⟩

theorem heartbeatLeases_add (xs : List Orbit) (s : Store) :
    AddsNothing s (xs.foldl (heartbeatLease cfg now) s) := by
  induction xs generalizing s with
  | nil => exact .refl s
  | cons o xs ih =>
      have first : AddsNothing s (heartbeatLease cfg now s o) := by
        rw [heartbeatLease_eq]
        refine ⟨Table.map_key_modify fun r _ same => ?_, rfl, rfl⟩
        exact (Orbit.beaten_orbitId o r).trans same
      exact first.trans (ih _)

/-- A heartbeat renews rows, and adds none. -/
theorem heartbeat_adds (agent : AgentId) (ttl : Option ℚ) :
    AddsNothing s (heartbeat cfg now s agent ttl).1 := by
  rw [heartbeat]
  split
  · exact .refl s
  split
  · exact .refl s
  have enrolled : AddsNothing s (s.upsertAgent agent now) := by
    rw [upsertAgent_eq]
    exact ⟨rfl, rfl, rfl⟩
  refine enrolled.trans ?_
  dsimp only
  refine AddsNothing.trans ?_ (heartbeatLeases_add _ _)
  refine AddsNothing.trans ?_ (heartbeatLeases_add _ _)
  cases ttl with
  | none => exact .refl _
  | some t => exact ⟨rfl, rfl, rfl⟩

/-- The agent of a task in orbit is not retired. -/
theorem heartbeat_beats (valid : b.Valid) (ok : s.Ok) (orphans : s.NoOrphan)
    (inOrbit : b.InOrbit s) :
    (heartbeat cfg now s b.agentId b.livenessTtl).2.ok = some true := by
  have serves : ((s.getAgent b.agentId).any fun a => a.state = .RETIRED) = false := by
    rw [← Bool.not_eq_true, Option.any_eq_true]
    rintro ⟨a, found, retired⟩
    obtain ⟨t, task, state, agent⟩ := inOrbit
    obtain ⟨mem, id⟩ := ok.getAgent.mp found
    have bereft := orphans b.agentId ⟨a, mem, id, of_decide_eq_true retired⟩
    exact (bereft.tasks t (Table.mem_of_get task) agent).2 state
  rw [heartbeat, valid.positive, if_neg (by simp), serves, if_neg (by simp)]

theorem repeats_liveness {legacy : Bool} (valid : b.Valid) (ok : (sees 0).2.store.Ok)
    (orphans : (sees 0).2.store.NoOrphan) (inOrbit : b.InOrbit (sees 0).2.store) :
    Repeats cfg b claims sees (.liveness legacy) ↔
      Repeats cfg b claims (fun n => sees (n + 1)) (.batch legacy) := by
  have beats : (heartbeat cfg (sees 0).1.now (sees 0).2.store b.agentId b.livenessTtl).2.ok =
      some true := heartbeat_beats valid ok orphans inOrbit
  have next : beginStep cfg (sees 0).1 (sees 0).2.store b (.liveness legacy) =
      .ok ((heartbeat cfg (sees 0).1.now (sees 0).2.store b.agentId b.livenessTtl).1,
        .batch legacy) := by
    rw [beginStep, beats, if_neg (by simp)]
  rw [repeats_cut (by simp)]
  constructor
  · rintro ⟨s₀, s₁, pc', cut, -, -, rest⟩
    cases next.symm.trans cut
    exact rest
  · intro rest
    exact ⟨_, _, _, next, rfl, heartbeat_adds _ _, rest⟩

theorem not_repeats_unmet {legacy : Bool} {deps unmet : List TaskId} (some : unmet ≠ []) :
    ¬ Repeats cfg b claims sees (.deps legacy deps unmet) := by
  induction deps generalizing sees unmet with
  | nil =>
      intro h
      rw [repeats_next (by simp) rfl (by rw [beginStep, if_pos some])] at h
      exact not_repeats_ended h
  | cons d deps ih =>
      intro h
      rw [repeats_next (by simp) rfl rfl] at h
      refine ih ?_ h
      split
      · exact some
      · simp

/-- The reads of the dependencies. -/
theorem repeats_deps {legacy : Bool} {deps : List TaskId} :
    Repeats cfg b claims sees (.deps legacy deps []) ↔
      (∀ i (h : i < deps.length),
        ((sees i).2.store.getTask deps[i]).map Task.state = some .MERGED) ∧
      Repeats cfg b claims (fun n => sees (deps.length + 1 + n)) (b.afterDeps legacy) := by
  induction deps generalizing sees with
  | nil =>
      rw [repeats_next (by simp) rfl (by rw [beginStep, if_neg (by simp)])]
      have shift : (fun n => sees (n + 1)) = fun n => sees (0 + 1 + n) := by
        funext n
        rw [Nat.zero_add, Nat.add_comm]
      simp [shift]
  | cons d deps ih =>
      rw [repeats_next (by simp) rfl rfl]
      by_cases met : ((sees 0).2.store.getTask d).map Task.state = some .MERGED
      · rw [if_pos met, ih]
        have shift : (fun n => sees (deps.length + 1 + n + 1)) =
            fun n => sees ((d :: deps).length + 1 + n) := by
          funext n
          rw [List.length_cons]
          congr 1
          omega
        rw [shift, and_congr_left_iff]
        intro _
        constructor
        · intro rest i hi
          cases i with
          | zero => exact met
          | succ i => exact rest i (Nat.lt_of_succ_lt_succ hi)
        · exact fun all i hi => all (i + 1) (Nat.succ_lt_succ hi)
      · rw [if_neg met]
        refine iff_of_false (not_repeats_unmet (by simp)) fun h => met ?_
        exact h.1 0 (Nat.succ_pos _)

theorem addTask_adds (s : Store) (t : Task) : AddsNothing s (s.addTask t) := by
  rw [Store.addTask]
  split <;> exact ⟨rfl, rfl, rfl⟩

theorem repeats_declare {legacy : Bool} (apart : b.Disjoint) :
    Repeats cfg b claims sees (.declare legacy) ↔ b.Acyclic (sees 0).2.store ∧
      Repeats cfg b claims (fun n => sees (n + 1)) (.deps legacy (b.deps.getD []) []) := by
  have apart : (b.declareArgs.writes.any fun w =>
    b.declareArgs.shared.any fun h => setsOverlap [w] [h]) = false := apart
  by_cases acyclic : b.Acyclic (sees 0).2.store
  · obtain ⟨s', next, adds⟩ : ∃ s', beginStep cfg (sees 0).1 (sees 0).2.store b (.declare legacy) =
        .ok (s', .deps legacy (b.deps.getD []) []) ∧ AddsNothing (sees 0).2.store s' := by
      have open_ : ¬ (b.declareArgs.deps.getD [] ≠ [] ∧ (wouldCycle (sees 0).2.store
          b.declareArgs.taskId (b.declareArgs.deps.getD [])).isSome = true) := by
        rintro ⟨some, cycle⟩
        rcases acyclic with none | acyclic
        · exact some none
        · rw [Option.isSome_iff_ne_none] at cycle
          exact cycle acyclic
      have declared : ∃ t, declare (sees 0).1.now (sees 0).2.store b.declareArgs =
          ((sees 0).2.store.addTask t, { ok := some true, state := some (.task .PENDING) }) := by
        rw [declare, apart, if_neg (by simp), if_neg open_]
        exact ⟨_, rfl⟩
      obtain ⟨t, declared⟩ := declared
      refine ⟨(sees 0).2.store.addTask t, ?_, addTask_adds _ _⟩
      rw [beginStep, declared]
      rfl
    rw [repeats_cut (by simp), and_iff_right acyclic]
    constructor
    · rintro ⟨s₀, s₁, pc', cut, -, -, rest⟩
      cases next.symm.trans cut
      exact rest
    · intro rest
      exact ⟨_, _, _, next, rfl, adds, rest⟩
  · refine iff_of_false (fun h => ?_) fun h => acyclic h.1
    rw [BeginArgs.Acyclic, not_or] at acyclic
    have closes : b.declareArgs.deps.getD [] ≠ [] ∧ (wouldCycle (sees 0).2.store
        b.declareArgs.taskId (b.declareArgs.deps.getD [])).isSome = true :=
      ⟨acyclic.1, Option.isSome_iff_ne_none.mpr acyclic.2⟩
    have refused : declare (sees 0).1.now (sees 0).2.store b.declareArgs =
        ((sees 0).2.store, .refuse "dep_cycle") := by
      rw [declare, apart, if_neg (by simp), if_pos closes]
    have next : beginStep cfg (sees 0).1 (sees 0).2.store b (.declare legacy) =
        .ok ((sees 0).2.store, .ended (.refuse "dep_cycle")) := by
      rw [beginStep, refused]
      rfl
    rw [repeats_next (by simp) rfl next] at h
    exact not_repeats_ended h

/-! ## The whole call -/

/-- The begin passes its validation again, where it is resumed only for an older policy. -/
theorem beginValidate_again (valid : b.Valid) (intents : s.Intents)
    (acquires : b.Acquires cfg s claims) (live : ∀ c ∈ claims, c.Live s)
    (distinct : ∀ spec ∈ b.specs, spec.paths.Nodup) :
    ∃ legacy, beginValidate cfg s b = .inr legacy := by
  rw [beginValidate, if_neg (not_le.mpr valid.ttl), valid.positive, if_neg (by simp), valid.bounded,
    if_neg (by simp)]
  by_cases accepts : cfg.policy.acceptsBasePriority b.priority = true
  · exact ⟨false, if_pos accepts⟩
  · rw [if_neg accepts, resumes_of_live intents acquires live distinct (by simpa using accepts)]
    exact ⟨true, rfl⟩

theorem beginValidate_resumes {legacy : Bool} (h : beginValidate cfg s b = .inr legacy) :
    legacy = true → cfg.policy.acceptsBasePriority b.priority = false := by
  rintro rfl
  rw [← Bool.not_eq_true]
  intro accepts
  rw [beginValidate, if_pos accepts] at h
  split_ifs at h
  cases h

/-- What holds of a system that is reached while the begin stands. -/
structure Sees (cfg : Cfg) (b : BeginArgs) (claims : List Acquired) (s : Store) : Prop where
  ok : s.Ok
  intents : s.Intents
  orphans : s.NoOrphan
  acquires : b.Acquires cfg s claims
  stands : b.Stands claims s

theorem Returned.sound {σ : Sys} {started : Reply} (returned : Returned cfg σ b claims started) :
    b.Valid ∧ b.Disjoint ∧ b.Acquires cfg σ.store claims :=
  (returned.reach.begun).begins b _ returned.call

theorem Meanwhile.seen {σ τ : Sys} {started : Reply} (returned : Returned cfg σ b claims started)
    (meanwhile : Meanwhile cfg σ b claims τ) : Sees cfg b claims τ.store := by
  have ok := returned.reach.ok
  have reach : Reachable cfg τ := returned.reach.trans meanwhile.run
  obtain ⟨-, -, acquires⟩ := returned.sound
  refine ⟨reach.ok.store, reach.intents, ?_, ?_, meanwhile.stands⟩
  · exact Sys.Ok.empty.run_invariant (I := Store.NoOrphan)
      (fun _ _ _ _ ok h step => h.micro ok step) reach nofun
  · refine ⟨acquires.modes, fun c hc => ?_, acquires.accepted⟩
    obtain ⟨spec, hspec, mode, knows⟩ := acquires.known c hc
    refine ⟨spec, hspec, mode, ?_⟩
    exact ok.run_invariant (I := fun s => s.Knows (b.Lease cfg spec) c.orbitId)
      (fun _ _ _ _ ok ih step => ih.micro (b.lease_lasting spec) ok step) meanwhile.run knows

/-- From the dependencies on. -/
theorem repeats_afterDeps {legacy : Bool} {s₀ : Store} {k : ℕ} (valid : b.Valid)
    (first : k = if b.livenessTtl.isSome then 1 else 0)
    (known : ∀ n, Sees cfg b claims (sees n).2.store)
    (resumes : legacy = true → cfg.policy.acceptsBasePriority b.priority = false)
    (swept : sweepInline cfg (sees k).1.now (sees k).2.store = .ok s₀)
    (stands : b.Stands claims s₀) :
    Repeats cfg b claims sees (b.afterDeps legacy) ↔
      (∀ spec ∈ b.specs, spec.paths.Nodup) ∧ b.Starts (sees (k + 2)).2.store := by
  have sweep := sweepInline_unreceipted swept (known k).ok
  have intents : s₀.Intents := (known k).intents.moves (known k).ok sweep
  have acquires : b.Acquires cfg s₀ claims := (known k).acquires.moves (known k).ok sweep
  rw [BeginArgs.afterDeps]
  split at first
  · rename_i window
    subst first
    rw [if_pos window, repeats_liveness valid (known 0).ok (known 0).orphans (known 0).stands.task]
    exact repeats_batch intents acquires stands resumes swept (known 3).ok
      fun n => (known (n + 1)).stands.task
  · rename_i none
    subst first
    rw [if_neg none]
    exact repeats_batch intents acquires stands resumes swept (known 2).ok
      fun n => (known n).stands.task

end

/-- A begin that is made again returns ok with the same leases and adds nothing, if and only if its
lists have each path once, and what its cuts see asks for no more: no cycle, no dependency that is
no longer merged, no start that is refused. -/
theorem begin_again_iff {σ asked : Sys} {sees : ℕ → Env × Sys} {started : Reply} {s₀ : Store}
    (returned : Returned cfg σ b claims started) (call : Meanwhile cfg σ b claims asked)
    (cuts : ∀ n, Meanwhile cfg σ b claims (sees n).2)
    (swept : sweepInline cfg (sees b.batchCut).1.now (sees b.batchCut).2.store = .ok s₀)
    (stands : b.Stands claims s₀) :
    (∃ legacy, beginValidate cfg asked.store b = .inr legacy ∧
      Repeats cfg b claims sees (.declare legacy)) ↔ b.MayRepeat sees := by
  obtain ⟨valid, apart, -⟩ := returned.sound
  have known (n : ℕ) := (cuts n).seen returned
  let k : ℕ := if b.livenessTtl.isSome then 1 else 0
  let rest : ℕ → Env × Sys := fun n => sees ((b.deps.getD []).length + 1 + n + 1)
  have index (n : ℕ) : rest (k + n) = sees (b.batchCut + n) := by
    show sees _ = sees _
    congr 1
    rw [BeginArgs.batchCut]
    omega
  have whole {legacy : Bool} (validated : beginValidate cfg asked.store b = .inr legacy) :
      Repeats cfg b claims sees (.declare legacy) ↔ b.MayRepeat sees := by
    have cut : sweepInline cfg (rest k).1.now (rest k).2.store = .ok s₀ := by
      have := index 0
      rw [Nat.add_zero, Nat.add_zero] at this
      rw [this, swept]
    rw [repeats_declare apart, repeats_deps, repeats_afterDeps valid rfl
      (fun n => known ((b.deps.getD []).length + 1 + n + 1)) (beginValidate_resumes validated) cut
      stands]
    constructor
    · rintro ⟨acyclic, merged, distinct, starts⟩
      refine ⟨distinct, acyclic, fun i h => ?_, ?_⟩
      · rw [Nat.add_comm]
        exact merged i h
      · rw [← index 2]
        exact starts
    · rintro ⟨distinct, acyclic, merged, starts⟩
      refine ⟨acyclic, fun i h => ?_, distinct, ?_⟩
      · have := merged i h
        rw [Nat.add_comm] at this
        exact this
      · rw [← index 2] at starts
        exact starts
  constructor
  · rintro ⟨legacy, validated, again⟩
    exact (whole validated).mp again
  · intro may
    have seen := call.seen returned
    obtain ⟨legacy, validated⟩ :=
      beginValidate_again valid seen.intents seen.acquires seen.stands.leases may.distinct
    exact ⟨legacy, validated, (whole validated).mpr may⟩

/-! ### Begins without a request -/

instance (s : Store) (c : Acquired) : Decidable (c.Live s) :=
  inferInstanceAs (Decidable (∃ o ∈ s.orbits, _))

instance (s : Store) : Decidable (b.InOrbit s) :=
  decidable_of_iff ((s.getTask b.taskId).any fun t =>
    t.state = .IN_ORBIT ∧ t.agentId = some b.agentId)
    (by simp [BeginArgs.InOrbit, Option.any_eq_true])

instance (s : Store) : Decidable (b.Stands claims s) :=
  decidable_of_iff ((∀ c ∈ claims, c.Live s) ∧ b.InOrbit s)
    ⟨fun h => ⟨h.1, h.2⟩, fun h => ⟨h.leases, h.task⟩⟩

/-- What a begin is about to return with. -/
def Proc.finalOf (b : BeginArgs) : Proc → Option (List Acquired × Reply)
  | .begin b' (.final claims started) => if b' = b then some (claims, started) else none
  | _ => none

/-- What a begin has returned. -/
def Proc.endOf (b : BeginArgs) : Proc → Option Reply
  | .begin b' (.ended r) => if b' = b then some r else none
  | _ => none

theorem finalOf_mem {σ : Sys} {x : List Acquired × Reply}
    (h : x ∈ σ.procs.filterMap (Proc.finalOf b)) : .begin b (.final x.1 x.2) ∈ σ.procs := by
  obtain ⟨p, hp, final⟩ := List.mem_filterMap.mp h
  unfold Proc.finalOf at final
  split at final
  · split at final
    · rename_i same
      cases final
      cases same
      exact hp
    · cases final
  · cases final

theorem endOf_mem {σ : Sys} {r : Reply} (h : r ∈ σ.procs.filterMap (Proc.endOf b)) :
    .begin b (.ended r) ∈ σ.procs := by
  obtain ⟨p, hp, ended⟩ := List.mem_filterMap.mp h
  unfold Proc.endOf at ended
  split at ended
  · split at ended
    · rename_i same
      cases ended
      cases same
      exact hp
    · cases ended
  · cases ended

/-- The cuts of a begin of a new task, before its last read. -/
def beginOnce (b : BeginArgs) : List (Env × Action) :=
  (Action.begin b).at 1 :: List.replicate 6 ((Action.resume 0 {}).at 1)

/-- A begin over two lists, one of them unsorted. -/
def twoLists : BeginArgs :=
  { taskId := "T", agentId := "A", writes := ["b", "a"], shared := ["c"] }

theorem begin_again_iff_twoLists : ∃ σ claims started, Returned {} σ twoLists claims started ∧
    ∃ legacy, beginValidate {} σ.store twoLists = .inr legacy ∧
      Repeats {} twoLists claims (fun _ => ({ now := 1, instanceId := "c" }, σ))
        (.declare legacy) := by
  obtain ⟨σ, reach, ⟨claims, started⟩, final, ok, stands, alive, swept⟩ :
      ∃ σ, Reachable {} σ ∧ ∃ x ∈ σ.procs.filterMap (Proc.finalOf twoLists),
        (beginReply σ.store twoLists x.1 x.2).ok = some true ∧ twoLists.Stands x.1 σ.store ∧
        (checkAlive σ.store (some "A") none).isNone = true ∧
        (sweepInline {} 1 σ.store).toOption.any (fun s₀ => twoLists.Stands x.1 s₀) = true :=
    exists_reachable (beginOnce twoLists) (by decide +kernel)
  have returned : Returned {} σ twoLists claims started := ⟨reach, finalOf_mem final, ok⟩
  have here : Meanwhile {} σ twoLists claims σ := ⟨.refl σ, stands⟩
  refine ⟨σ, claims, started, returned, ?_⟩
  let sees : ℕ → Env × Sys := fun _ => ({ now := 1, instanceId := "c" }, σ)
  cases hsweep : sweepInline {} 1 σ.store with
  | error e =>
      rw [hsweep] at swept
      cases swept
  | ok s₀ =>
      rw [hsweep] at swept
      refine (@begin_again_iff {} twoLists claims σ σ sees started s₀ returned here (fun _ => here)
        hsweep (of_decide_eq_true swept)).mpr ?_
      have unrequested : twoLists.rid "start" = none := rfl
      refine ⟨by decide, Or.inl rfl, fun i h => absurd h (Nat.not_lt_zero i), ?_, fun _ => ?_⟩
      · intro id reply request
        rw [unrequested] at request
        cases request
      · exact Option.isNone_iff_eq_none.mp alive

/-- A begin whose list has a path twice. -/
def twiceA : BeginArgs := { taskId := "T", agentId := "A", writes := ["a", "a"] }

/-- The same begin, up to its batch. -/
def beginTwice (b : BeginArgs) : List (Env × Action) :=
  (Action.begin b).at 1 :: List.replicate 3 ((Action.resume 1 {}).at 1)

/-- The begin is made again, while it stands, and refused. -/
def refusesAgain (b : BeginArgs) (claims : List Acquired) (σ : Sys) : Bool :=
  match execWhen {} (fun τ _ => decide (b.Stands claims τ.store)) (beginTwice b) σ with
  | .ok τ => decide (b.Stands claims τ.store) &&
      (τ.procs.filterMap (Proc.endOf b)).any fun r => r.ok = some false
  | .error _ => false

theorem run_of_refusesAgain {σ : Sys} (h : refusesAgain b claims σ = true) :
    ∃ τ, Transition.Run (Step {}) (fun τ _ => b.Stands claims τ.store) σ τ ∧
      b.Stands claims τ.store ∧ ∃ r, Proc.begin b (.ended r) ∈ τ.procs ∧ r.ok = some false := by
  rw [refusesAgain] at h
  split at h
  · rename_i τ exec
    obtain ⟨stands, refused⟩ := Bool.and_eq_true_iff.mp h
    obtain ⟨r, hr, no⟩ := List.any_eq_true.mp refused
    refine ⟨τ, ?_, of_decide_eq_true stands, r, endOf_mem hr, of_decide_eq_true no⟩
    exact run_of_execWhen (fun _ _ checked => of_decide_eq_true checked) exec
  · cases h

/-- A begin returns ok; the same begin is made again at once, and refused. -/
theorem begin_again_refused : ∃ σ claims started, Returned {} σ twiceA claims started ∧
    ∃ τ, Transition.Run (Step {}) (fun τ _ => twiceA.Stands claims τ.store) σ τ ∧
      twiceA.Stands claims τ.store ∧
      ∃ r, Proc.begin twiceA (.ended r) ∈ τ.procs ∧ r.ok = some false := by
  obtain ⟨σ, reach, ⟨claims, started⟩, final, ok, later⟩ :
      ∃ σ, Reachable {} σ ∧ ∃ x ∈ σ.procs.filterMap (Proc.finalOf twiceA),
        (beginReply σ.store twiceA x.1 x.2).ok = some true ∧ refusesAgain twiceA x.1 σ = true :=
    exists_reachable (beginOnce twiceA) (by decide +kernel)
  exact ⟨σ, claims, started, ⟨reach, finalOf_mem final, ok⟩, run_of_refusesAgain later⟩

end Omd
