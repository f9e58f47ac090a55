import Omd.Receipts

/-!
# What a begin has acquired

A begin goes on with the leases its batch ended with, one for each of its lists.  Each was read off
a row of its intent or named by the answer to a claim, so that a row that has the identifier is of
the agent, the task, the mode and the paths, whatever ran in between.
-/

namespace Omd

open Lib

variable {cfg : Cfg} {now : Time} {s s' : Store} {b : BeginArgs}

namespace BeginArgs

variable (b : BeginArgs)

/-- A row of one of the lists, which the policy admits at the priority of the begin. -/
structure Lease (cfg : Cfg) (spec : Spec) (o : Orbit) : Prop where
  member : b.Member spec o
  accepted : cfg.policy.acceptsBasePriority b.priority = true ∨
    o.priority = b.priority ∧ cfg.policy.acceptsBasePriority b.priority o.policyVersion = true

/-- The claims are leases of the lists, one of each. -/
structure Acquires (cfg : Cfg) (s : Store) (claims : List Acquired) : Prop where
  modes : (claims.map Acquired.mode).Perm (b.specs.map Spec.mode)
  known : ∀ c ∈ claims, ∃ spec ∈ b.specs, spec.mode = c.mode ∧
    s.Knows (b.Lease cfg spec) c.orbitId
  accepted : cfg.policy.acceptsBasePriority b.priority = true ∨ b.specs ≠ []

theorem member_lasting (spec : Spec) : Lasting (b.Member spec) := by
  intro o o' row h
  refine ⟨row.kind.trans h.kind, row.agentId.trans h.agent, row.taskId.trans h.task,
    row.mode.trans h.mode, ?_⟩
  rw [row.pathspec]
  exact h.paths

theorem lease_lasting (spec : Spec) : Lasting (b.Lease cfg spec) := by
  intro o o' row h
  refine ⟨b.member_lasting spec o o' row h.member, ?_⟩
  rw [row.priority, row.policyVersion]
  exact h.accepted

end BeginArgs

/-! ## The batch -/

/-- The preflight goes on with the rows that the agent has. -/
theorem beginPreflight_found {specs : List Spec} {offset : ℤ} {claims held : List Acquired}
    (h : beginPreflight cfg now s b specs offset claims = .ok (.inr held)) :
    held.map Acquired.mode = claims.map Acquired.mode ++
        (specs.filter fun spec => (b.ownIntent s spec).isSome).map Spec.mode ∧
      ∀ c ∈ held, c ∈ claims ∨ ∃ spec ∈ specs, ∃ dup, b.ownIntent s spec = some dup ∧
        dup.state = .HELD ∧ c = ⟨spec.mode, dup.orbitId, dup.fence⟩ := by
  induction specs generalizing offset claims with
  | nil =>
      cases h
      exact ⟨by simp, fun c hc => Or.inl hc⟩
  | cons spec specs ih =>
      rw [beginPreflight] at h
      split at h
      · rename_i dup own
        split at h
        · cases h
        rename_i state
        obtain ⟨modes, known⟩ := ih h
        refine ⟨by simp [modes, own], fun c hc => ?_⟩
        rcases known c hc with hc | ⟨spec', hspec', found⟩
        · rcases List.mem_append.mp hc with hc | hc
          · exact Or.inl hc
          · exact Or.inr ⟨spec, List.mem_cons_self, dup, own, not_not.mp state,
              List.mem_singleton.mp hc⟩
        · exact Or.inr ⟨spec', List.mem_cons_of_mem _ hspec', found⟩
      · rename_i own
        rw [Outcome.bind_eq_ok] at h
        obtain ⟨d, -, h⟩ := h
        split at h
        · obtain ⟨modes, known⟩ := ih h
          refine ⟨by simp [modes, own], fun c hc => ?_⟩
          rcases known c hc with hc | ⟨spec', hspec', found⟩
          · exact Or.inl hc
          · exact Or.inr ⟨spec', List.mem_cons_of_mem _ hspec', found⟩
        · rw [Outcome.bind_eq_ok] at h
          obtain ⟨_, -, h⟩ := h
          cases h

theorem beginPreflight_receipts {specs : List Spec} {offset : ℤ} {claims : List Acquired}
    {r : Reply} (ok : s.Ok) (intents : s.Intents) (receipts : s.Receipts)
    (h : beginPreflight cfg now s b specs offset claims = .ok (.inl (s', r))) : s'.Receipts := by
  induction specs generalizing offset claims with
  | nil => cases h
  | cons spec specs ih =>
      rw [beginPreflight] at h
      split at h
      · split at h
        · cases h
          exact receipts
        · exact ih h
      · rw [Outcome.bind_eq_ok] at h
        obtain ⟨d, -, h⟩ := h
        split at h
        · exact ih h
        · rw [Outcome.bind_eq_ok] at h
          obtain ⟨⟨s₁, r₁⟩, h₁, h⟩ := h
          cases h
          exact (claim_receipts ok intents receipts (by simp) (by simp) h₁).1

/-- What an acquisition adds: leases that its claims were answered by. -/
structure Gains (b : BeginArgs) (specs : List Spec) (claims final : List Acquired) (s' : Store) :
    Prop where
  modes : final.map Acquired.mode = claims.map Acquired.mode ++
    (specs.filter fun spec => !claims.any fun c => c.mode = spec.mode).map Spec.mode
  known : ∀ c ∈ final, c ∈ claims ∨ ∃ spec ∈ specs, spec.mode = c.mode ∧
    (claims.any fun c => c.mode = spec.mode) = false ∧ s'.Knows (b.Member spec) c.orbitId

theorem beginAcquire_gains {specs : List Spec} {claims final : List Acquired} (ok : s.Ok)
    (intents : s.Intents) (receipts : s.Receipts)
    (apart : specs.Pairwise fun x y => x.mode ≠ y.mode ∧ x.suffix ≠ y.suffix)
    (h : beginAcquire cfg now b specs s claims = .ok (.inr (s', final))) :
    s'.Receipts ∧ Gains b specs claims final s' := by
  induction specs generalizing s claims with
  | nil =>
      cases h
      exact ⟨receipts, by simp, fun c hc => Or.inl hc⟩
  | cons spec specs ih =>
      rw [List.pairwise_cons] at apart
      rw [beginAcquire] at h
      split at h
      · rename_i own
        obtain ⟨receipts', gains⟩ := ih ok intents receipts apart.2 h
        refine ⟨receipts', by simp [gains.modes, own], fun c hc => ?_⟩
        rcases gains.known c hc with hc | ⟨spec', hspec', new⟩
        · exact Or.inl hc
        · exact Or.inr ⟨spec', List.mem_cons_of_mem _ hspec', new⟩
      · rename_i absent
        rw [Bool.not_eq_true] at absent
        rw [Outcome.bind_eq_ok] at h
        obtain ⟨⟨s₁, r₁⟩, h₁, h⟩ := h
        dsimp only at h
        split at h
        · rename_i id positive named
          have takes : Moves ⟨cfg, now, fun _ => True⟩ s s₁ :=
            batchClaim_takes trivial trivial (fun _ _ _ => trivial)
              (fun _ _ _ _ _ _ _ => trivial) h₁ ok
          have ok₁ := ok.moves takes
          have intents₁ := intents.moves ok takes
          obtain ⟨receipts₁, answer⟩ := claim_receipts ok intents receipts (by simp) (by simp) h₁
          have rest : Moves ⟨cfg, now, fun _ => True⟩ s₁ s' :=
            beginAcquire_takes trivial trivial (fun _ _ _ => trivial)
              (fun _ _ _ _ _ _ _ => trivial) h ok₁
          obtain ⟨receipts', gains⟩ := ih ok₁ intents₁ receipts₁ apart.2 h
          let new : Acquired := ⟨spec.mode, id, r₁.fence⟩
          have same : ∀ spec' ∈ specs, ((claims ++ [new]).any fun c => c.mode = spec'.mode) =
              claims.any fun c => c.mode = spec'.mode := by
            intro spec' hspec'
            simp [new, (apart.1 spec' hspec').1]
          refine ⟨receipts', ?_, fun c hc => ?_⟩
          · rw [gains.modes, List.filter_congr fun x hx => by rw [same x hx]]
            simp [absent]
          · rcases gains.known c hc with hc | ⟨spec', hspec', mode, none, knows⟩
            · rcases List.mem_append.mp hc with hc | hc
              · exact Or.inl hc
              · rw [List.mem_singleton.mp hc]
                obtain ⟨a, valid, names⟩ := answer positive
                obtain ⟨id', named', knows⟩ := names positive
                cases named.symm.trans named'
                refine Or.inr ⟨spec, List.mem_cons_self, rfl, absent, ?_⟩
                refine Store.Knows.moves (b.member_lasting spec) (knows.mono fun o asks => ?_) ok₁
                  rest
                exact member_of_claim valid asks.kind asks.intent
            · rw [same spec' hspec'] at none
              exact Or.inr ⟨spec', List.mem_cons_of_mem _ hspec', mode, none, knows⟩
        · cases h

/-- The preflight and the acquisition answer for one list each. -/
theorem modes_perm {held final : List Acquired}
    (found : held.map Acquired.mode =
      (b.specs.filter fun spec => (b.ownIntent s spec).isSome).map Spec.mode)
    (modes : final.map Acquired.mode = held.map Acquired.mode ++
      (b.specs.filter fun spec => !held.any fun c => c.mode = spec.mode).map Spec.mode) :
    (final.map Acquired.mode).Perm (b.specs.map Spec.mode) := by
  have own : ∀ spec ∈ b.specs,
      (held.any fun c => c.mode = spec.mode) = (b.ownIntent s spec).isSome := by
    intro spec hspec
    have any : (held.any fun c => c.mode = spec.mode) =
        (held.map Acquired.mode).any fun m => m = spec.mode := by
      rw [List.any_map]
      rfl
    rw [any, found, Bool.eq_iff_iff, List.any_eq_true]
    simp only [List.mem_map, List.mem_filter, decide_eq_true_eq]
    constructor
    · rintro ⟨-, ⟨spec', ⟨hspec', some⟩, rfl⟩, mode⟩
      cases specs_eq b hspec' hspec mode
      exact some
    · intro some
      exact ⟨spec.mode, ⟨spec, ⟨hspec, some⟩, rfl⟩, rfl⟩
  have rest : (b.specs.filter fun spec => !held.any fun c => c.mode = spec.mode) =
      b.specs.filter fun spec => !(b.ownIntent s spec).isSome :=
    List.filter_congr fun spec hspec => by rw [own spec hspec]
  rw [modes, found, rest, ← List.map_append]
  exact (List.filter_append_perm _ b.specs).map _

theorem resumes_own {spec : Spec} (h : b.legacyResumeLive cfg s = true) (hspec : spec ∈ b.specs) :
    ∃ dup, b.ownIntent s spec = some dup ∧ dup.priority = b.priority ∧
      cfg.policy.acceptsBasePriority b.priority dup.policyVersion = true := by
  rw [BeginArgs.legacyResumeLive, Bool.and_eq_true, List.all_eq_true] at h
  have own := h.2 spec hspec
  rw [Option.any_eq_true] at own
  obtain ⟨dup, own, accepted⟩ := own
  rw [Bool.and_eq_true, decide_eq_true_eq] at accepted
  exact ⟨dup, own, accepted⟩

/-- A batch that ends with leases has one for each list. -/
theorem beginBatch_acquires {legacy : Bool} {x : Reply ⊕ List Acquired} (ok : s.Ok)
    (intents : s.Intents) (receipts : s.Receipts)
    (accepts : legacy = false → cfg.policy.acceptsBasePriority b.priority = true)
    (h : beginBatch cfg now s b legacy = .ok (s', x)) :
    s'.Receipts ∧ ∀ claims, x = .inr claims → b.Acquires cfg s' claims := by
  rw [beginBatch, Outcome.bind_eq_ok] at h
  obtain ⟨s₁, swept, h⟩ := h
  have sweep : Moves ⟨cfg, now, Deed.Unreceipted⟩ s s₁ := sweepInline_unreceipted swept ok
  have ok₁ := ok.moves sweep
  have intents₁ := intents.moves ok sweep
  have receipts₁ := receipts.sweep ok sweep
  split at h
  · cases h
    exact ⟨receipts₁, by simp⟩
  rename_i lives
  have live : legacy = true → b.legacyResumeLive cfg s₁ = true := by
    intro legacy
    by_contra dead
    exact lives ⟨legacy, by simpa using dead⟩
  rw [Outcome.bind_eq_ok] at h
  obtain ⟨pre, hpre, h⟩ := h
  cases pre with
  | inl stopped =>
      cases h
      exact ⟨beginPreflight_receipts ok₁ intents₁ receipts₁ hpre, by simp⟩
  | inr held =>
      dsimp only at h
      rw [Outcome.bind_eq_ok] at h
      obtain ⟨acquired, hacquire, h⟩ := h
      cases acquired with
      | inl reply =>
          cases h
          exact ⟨receipts₁, by simp⟩
      | inr left =>
          obtain ⟨s₂, final⟩ := left
          cases h
          obtain ⟨found, known⟩ := beginPreflight_found hpre
          obtain ⟨receipts', gains⟩ :=
            beginAcquire_gains ok₁ intents₁ receipts₁ (specs_apart b) hacquire
          refine ⟨receipts', fun claims same => ?_⟩
          cases same
          have takes : Moves ⟨cfg, now, fun _ => True⟩ s₁ s' :=
            beginAcquire_takes trivial trivial (fun _ _ _ => trivial)
              (fun _ _ _ _ _ _ _ => trivial) hacquire ok₁
          have resumed (rejects : ¬ cfg.policy.acceptsBasePriority b.priority = true) :
              b.legacyResumeLive cfg s₁ = true := by
            refine live ?_
            by_contra fresh
            exact rejects (accepts (by simpa using fresh))
          refine ⟨modes_perm (by simpa using found) gains.modes, fun c hc => ?_, ?_⟩
          · rcases gains.known c hc with hc | ⟨spec, hspec, mode, absent, knows⟩
            · rcases known c hc with hc | ⟨spec, hspec, dup, own, -, rfl⟩
              · cases hc
              · obtain ⟨mem, member⟩ := member_of_ownIntent intents₁ own
                refine ⟨spec, hspec, rfl, ?_⟩
                refine (ok₁.knows mem ⟨member, ?_⟩).moves (b.lease_lasting spec) ok₁ takes
                by_cases policy : cfg.policy.acceptsBasePriority b.priority = true
                · exact Or.inl policy
                · obtain ⟨dup', own', accepted⟩ := resumes_own (resumed policy) hspec
                  cases own.symm.trans own'
                  exact Or.inr accepted
            · refine ⟨spec, hspec, mode, knows.mono fun o member => ⟨member, Or.inl ?_⟩⟩
              by_contra policy
              -- a begin that resumes has all its rows, and claims nothing
              obtain ⟨dup, own, -⟩ := resumes_own (resumed policy) hspec
              have present := ((beginPreflight_passes hpre).2 spec.mode).mpr
                (Or.inr ⟨spec, hspec, rfl, by rw [own]; simp⟩)
              rw [absent] at present
              cases present
          · by_cases policy : cfg.policy.acceptsBasePriority b.priority = true
            · exact Or.inl policy
            · have := resumed policy
              simp only [BeginArgs.legacyResumeLive, Bool.and_eq_true, decide_eq_true_eq] at this
              exact Or.inr this.1

/-! ## The calls under way -/

/-- The checks of `begin` on its arguments alone. -/
structure BeginArgs.Valid (b : BeginArgs) : Prop where
  ttl : 0 < b.ttl
  positive : (b.livenessTtl.any fun t => t ≤ 0) = false
  bounded : (b.livenessTtl.any fun t => b.ttl < t) = false

/-- No list of the writes overlaps one that is shared. -/
def BeginArgs.Disjoint (b : BeginArgs) : Prop :=
  (b.writes.any fun w => b.shared.any fun h => setsOverlap [w] [h]) = false

/-- The priority is one of the policy, or the begin resumes rows of another one. -/
def BeginArgs.Resumes (cfg : Cfg) (b : BeginArgs) (legacy : Bool) : Prop :=
  legacy = false → cfg.policy.acceptsBasePriority b.priority = true

/-- What is known where a begin is. -/
def BeginPc.Sound (cfg : Cfg) (b : BeginArgs) (s : Store) : BeginPc → Prop
  | .declare legacy => b.Resumes cfg legacy
  | .deps legacy _ _ | .liveness legacy | .batch legacy => b.Disjoint ∧ b.Resumes cfg legacy
  | .read claims | .ready claims _ | .start claims | .final claims _ =>
      b.Disjoint ∧ b.Acquires cfg s claims
  | .ended _ => True

theorem beginValidate_valid {legacy : Bool} (h : beginValidate cfg s b = .inr legacy) :
    b.Valid ∧ b.Resumes cfg legacy := by
  rw [beginValidate] at h
  split at h
  · cases h
  rename_i ttl
  split at h
  · cases h
  rename_i positive
  split at h
  · cases h
  rename_i bounded
  have valid : b.Valid := ⟨not_le.mp ttl, by simpa using positive, by simpa using bounded⟩
  split at h
  · rename_i accepts
    exact ⟨valid, fun _ => accepts⟩
  · split at h
    · cases h
      exact ⟨valid, fun fresh => by cases fresh⟩
    · cases h

theorem declare_apart {d : DeclareArgs} (h : (declare now s d).2.ok ≠ some false) :
    (d.writes.any fun w => d.shared.any fun h => setsOverlap [w] [h]) = false := by
  rw [declare] at h
  split at h
  · exact absurd rfl h
  · rename_i apart
    simpa using apart

theorem BeginArgs.Acquires.moves {claims : List Acquired} {c : Scope} (h : b.Acquires cfg s claims)
    (ok : s.Ok) (run : Moves c s s') : b.Acquires cfg s' claims := by
  refine ⟨h.modes, fun c hc => ?_, h.accepted⟩
  obtain ⟨spec, hspec, mode, knows⟩ := h.known c hc
  exact ⟨spec, hspec, mode, knows.moves (b.lease_lasting spec) ok run⟩

theorem beginStep_free {env : Env} {pc pc' : BeginPc} (ok : s.Ok)
    (h : beginStep cfg env s b pc = .ok (s', pc')) :
    Phases cfg env.now (fun _ => True) (fun _ => True) s s' := by
  refine beginStep_phases ?_ h ok
  constructor <;> simp [Collecting]

theorem BeginArgs.Acquires.phases {claims : List Acquired} {may may' : Deed → Prop}
    (h : b.Acquires cfg s claims) (ok : s.Ok) (run : Phases cfg now may may' s s') :
    b.Acquires cfg s' claims := by
  obtain ⟨s₁, first, second⟩ := run
  exact (h.moves ok first).moves (ok.moves first) second

/-- A cut of a begin keeps what is known of it. -/
theorem beginStep_sound {env : Env} {pc pc' : BeginPc} (ok : s.Ok) (intents : s.Intents)
    (receipts : s.Receipts) (sound : pc.Sound cfg b s)
    (h : beginStep cfg env s b pc = .ok (s', pc')) : pc'.Sound cfg b s' := by
  have left := beginStep_free ok h
  unfold beginStep at h
  split at h
  · dsimp only at h
    split at h
    · cases h
      trivial
    · rename_i accepted
      cases h
      exact ⟨declare_apart accepted, sound⟩
  · split at h
    · cases h
      trivial
    · cases h
      rw [BeginArgs.afterDeps]
      split <;> exact sound
  · cases h
    exact sound
  · dsimp only at h
    split at h
    · cases h
      trivial
    · cases h
      exact sound
  · rw [Outcome.bind_eq_ok] at h
    obtain ⟨⟨s₁, x⟩, h₁, h⟩ := h
    dsimp only at h
    split at h
    · cases h
      trivial
    · cases h
      exact ⟨sound.1, (beginBatch_acquires ok intents receipts sound.2 h₁).2 _ rfl⟩
  · split at h
    · cases h
    · split at h <;> (cases h; exact sound)
  · rw [Outcome.bind_eq_ok] at h
    obtain ⟨s₁, h₁, h⟩ := h
    cases h
    exact ⟨sound.1, sound.2.phases ok left⟩
  · rw [Outcome.bind_eq_ok] at h
    obtain ⟨⟨s₁, r⟩, h₁, h⟩ := h
    dsimp only at h
    split at h
    · cases h
      trivial
    · cases h
      exact ⟨sound.1, sound.2.phases ok left⟩
  · cases h
    trivial
  · cases h
    trivial

/-! ## The runs -/

variable {env : Env} {σ σ' : Sys} {a : Action}

theorem Verb.request_claim {v : Verb} {id : RequestId} {args : IdemArgs}
    (h : v.request = some (id, args)) : args.isClaim = false := by
  cases v <;> simp [Verb.request] at h
  all_goals
    obtain ⟨id', -, -, rfl⟩ := h
    rfl

/-- Only the actions that admit requests answer a claim. -/
theorem Answers.admits {id : RequestId} {args : IdemArgs} {r : Reply}
    (h : Answers cfg env σ a id args r) (claim : args.isClaim = true) : Admits σ a := by
  cases h with
  | verb _ request =>
      rw [Verb.request_claim request] at claim
      cases claim
  | claim h => exact .claim h
  | nested h => exact .rollover h
  | member h => exact .batch h
  | recovered _ reply =>
      cases reply <;> cases claim
  | _ => cases claim

/-- An action that admits no request answers no claim. -/
theorem Stepped.receipts (left : Stepped cfg env σ a s') (ok : σ.store.Ok)
    (receipts : σ.store.Receipts) (none : ¬ Admits σ a) : s'.Receipts := by
  refine left.invariant (I := Store.Receipts) (fun may E s s' licensed ok ih step => ?_) ok receipts
  refine ih.micro ok (fun id x r answer => ?_) step
  cases licensed _ answer with
  | answer h => exact absurd (h.admits rfl) none

/-- The begins of a system, with what is known of each. -/
structure Sys.Begun (cfg : Cfg) (σ : Sys) : Prop where
  receipts : σ.store.Receipts
  begins : ∀ b pc, Proc.begin b pc ∈ σ.procs → b.Valid ∧ pc.Sound cfg b σ.store

theorem BeginPc.Sound.stepped {pc : BeginPc} (h : pc.Sound cfg b σ.store) (ok : σ.store.Ok)
    (left : Stepped cfg env σ a s') : pc.Sound cfg b s' := by
  have acquires {claims : List Acquired} (h : b.Acquires cfg σ.store claims) :
      b.Acquires cfg s' claims := by
    refine ⟨h.modes, fun c hc => ?_, h.accepted⟩
    obtain ⟨spec, hspec, mode, knows⟩ := h.known c hc
    refine ⟨spec, hspec, mode, ?_⟩
    exact left.invariant (I := fun s => s.Knows (b.Lease cfg spec) c.orbitId)
      (fun _ _ _ _ _ ok ih step => ih.micro (b.lease_lasting spec) ok step) ok knows
  cases pc with
  | declare | deps | liveness | batch | ended => exact h
  | read | ready | start | final => exact ⟨h.1, acquires h.2⟩

/-- The receipts after an action that admits requests. -/
theorem step_receipts (ok : σ.Ok) (intents : σ.store.Intents) (begun : σ.Begun cfg)
    (h : step cfg env σ a = .ok σ') : σ'.store.Receipts := by
  by_cases admits : Admits σ a
  · cases admits with
    | claim call =>
        subst call
        rw [step, Verb.run, Outcome.bind_eq_ok] at h
        obtain ⟨⟨s₁, r⟩, h₁, h⟩ := h
        cases h
        exact (claim_receipts ok.store intents begun.receipts (by simp) (by simp) h₁).1
    | rollover call =>
        subst call
        rw [step, Verb.run, Outcome.bind_eq_ok] at h
        obtain ⟨⟨s₁, r⟩, h₁, h⟩ := h
        cases h
        exact rolloverClaim_receipts ok.store intents begun.receipts h₁
    | batch cut =>
        rename_i b legacy input
        obtain ⟨i, rfl, hi⟩ := cut
        rw [step] at h
        simp only [hi] at h
        rw [Outcome.bind_eq_ok] at h
        obtain ⟨⟨s₁, p⟩, h₁, h⟩ := h
        cases h
        rw [procStep, Outcome.bind_eq_ok] at h₁
        obtain ⟨⟨s₂, pc'⟩, h₂, h₁⟩ := h₁
        cases h₁
        rw [beginStep, Outcome.bind_eq_ok] at h₂
        obtain ⟨⟨s₃, x⟩, h₃, h₂⟩ := h₂
        have sound := (begun.begins b _ (List.mem_of_getElem? hi)).2
        have batch := (beginBatch_acquires ok.store intents begun.receipts sound.2 h₃).1
        dsimp only at h₂
        split at h₂ <;> (cases h₂; exact batch)
  · exact (step_spec ok h).1.receipts ok.store begun.receipts admits

/-- The begins after an action were there before it, begin with it, or took a cut. -/
theorem step_begins {b : BeginArgs} {pc : BeginPc} (h : step cfg env σ a = .ok σ')
    (hp : Proc.begin b pc ∈ σ'.procs) :
    Proc.begin b pc ∈ σ.procs ∨
      (∃ legacy, beginValidate cfg σ.store b = .inr legacy ∧ pc = .declare legacy ∧
        σ'.store = σ.store) ∨
      ∃ pc₀ input, σ.Cut a (.begin b pc₀) input ∧
        beginStep cfg env σ.store b pc₀ = .ok (σ'.store, pc) := by
  have spawned {p : Proc} (other : ∀ b pc, p ≠ .begin b pc)
      (h : Proc.begin b pc ∈ (σ.spawn p).procs) :
      Proc.begin b pc ∈ σ.procs := by
    rw [Sys.spawn] at h
    split at h
    · exact h
    · rcases List.mem_append.mp h with h | h
      · exact h
      · exact absurd (List.mem_singleton.mp h).symm (other b pc)
  cases a with
  | call v =>
      rw [step, Outcome.bind_eq_ok] at h
      obtain ⟨⟨s₁, r⟩, -, h⟩ := h
      cases h
      exact Or.inl hp
  | begin args =>
      rw [step] at h
      split at h
      · cases h
        exact Or.inl hp
      · rename_i legacy valid
        cases h
        rcases List.mem_append.mp hp with hp | hp
        · exact Or.inl hp
        · cases List.mem_singleton.mp hp
          exact Or.inr (Or.inl ⟨legacy, valid, rfl, rfl⟩)
  | connect args =>
      rw [step] at h
      split at h
      · cases h
        exact Or.inl hp
      · cases h
        exact Or.inl (spawned (by simp) hp)
  | arrive args =>
      cases h
      exact Or.inl (spawned (by simp) hp)
  | bail agent id =>
      cases h
      exact Or.inl (spawned (by simp) hp)
  | recover =>
      rw [step] at h
      split at h
      · cases h
        exact Or.inl hp
      · rw [Outcome.bind_eq_ok] at h
        obtain ⟨s₁, -, h⟩ := h
        cases h
        exact Or.inl hp
  | resume i input =>
      rw [step] at h
      split at h
      · cases h
        exact Or.inl hp
      · rename_i p hi
        rw [Outcome.bind_eq_ok] at h
        obtain ⟨⟨s₁, p'⟩, h₁, h⟩ := h
        cases h
        rcases List.mem_or_eq_of_mem_set hp with hp | rfl
        · exact Or.inl hp
        · cases p with
          | begin b₀ pc₀ =>
              rw [procStep, Outcome.bind_eq_ok] at h₁
              obtain ⟨⟨s₂, pc'⟩, h₂, h₁⟩ := h₁
              cases h₁
              exact Or.inr (Or.inr ⟨pc₀, input, ⟨i, rfl, hi⟩, h₂⟩)
          | connect c pc₀ | arrive c pc₀ | bail c id pc₀ =>
              rw [procStep, Outcome.bind_eq_ok] at h₁
              obtain ⟨⟨s₂, pc'⟩, h₂, h₁⟩ := h₁
              cases h₁
          | crashed => cases h₁
  | crash i =>
      rw [step] at h
      split at h
      · cases h
        exact Or.inl hp
      · cases h
        rcases List.mem_or_eq_of_mem_set hp with hp | hp
        · exact Or.inl hp
        · cases hp

theorem Sys.Begun.step (begun : σ.Begun cfg) (ok : σ.Ok) (intents : σ.store.Intents)
    (h : step cfg env σ a = .ok σ') : σ'.Begun cfg := by
  refine ⟨step_receipts ok intents begun h, fun b pc hp => ?_⟩
  rcases step_begins h hp with hp | ⟨legacy, valid, rfl, -⟩ | ⟨pc₀, input, hp, cut⟩
  · obtain ⟨valid, sound⟩ := begun.begins b pc hp
    exact ⟨valid, sound.stepped ok.store (step_spec ok h).1⟩
  · exact beginValidate_valid valid
  · obtain ⟨valid, sound⟩ := begun.begins b pc₀ hp.mem
    exact ⟨valid, beginStep_sound ok.store intents begun.receipts sound cut⟩

theorem ReachableBy.begun {P : Sys → Env × Action → Prop} (h : ReachableBy cfg P σ) :
    σ.Begun cfg := by
  refine (Transition.Run.invariant
    (I := fun τ => (τ.Ok ∧ τ.store.Intents) ∧ τ.Begun cfg) (fun τ l τ' ih _ hstep => ?_) h
    ⟨⟨.empty, .empty⟩, ?_, ?_⟩).2
  · have hstep : Omd.step cfg l.1 τ l.2 = .ok τ' := hstep
    obtain ⟨left, ok'⟩ := step_spec ih.1.1 hstep
    refine ⟨⟨ok', ?_⟩, ih.2.step ih.1.1 ih.1.2 hstep⟩
    exact left.invariant (I := Store.Intents) (fun _ _ _ _ _ ok ih step => ih.micro ok step)
      ih.1.1.store ih.1.2
  · intro row hrow
    cases hrow
  · intro b pc hp
    cases hp

end Omd
