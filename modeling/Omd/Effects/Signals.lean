import Omd.Effects.Claim

/-!
# The effect of the flags, the semaphores and the barriers

A flag, a waiter of a flag and a barrier are in no table that the changes are about.  What
these verbs do to the others is the life of their leases: the lease that backs an ephemeral
flag, the permit of a semaphore, and the line of those who wait for one.
-/

namespace Omd

open Lib

variable {c : Scope} {E : TaskId → Prop} {s s' : Store}

/-! ## Flags -/

/-- The row that an owned flag gets from `backFlag` is a lease. -/
theorem backFlag_keeps (key : String) {agent : AgentId} (flag : Option Flag) (ttl : Option ℚ)
    (alive : s.Alive agent) (mem : ∀ f, flag = some f → f ∈ s.flags) :
    Keeps c E s (backFlag c.cfg c.now s key agent flag ttl).1 ∧
      ∀ id, id = (backFlag c.cfg c.now s key agent flag ttl).2 →
        (∃ f₀ ∈ (backFlag c.cfg c.now s key agent flag ttl).1.flags, f₀.leaseId = some id) ∨
          ∃ o ∈ (backFlag c.cfg c.now s key agent flag ttl).1.orbits,
            o.orbitId = id ∧ o.kind = .flag_ephemeral := by
  rw [backFlag]
  split
  · have drawn : Frame s s.bumpFence.bumpUuid := (frame_bumpFence s).trans (frame_bumpUuid _)
    refine ⟨.of_micro (@Micro.ofRow _ _ _ _ _ [] (.lease rfl rfl rfl alive rfl) (.silent ?_) rfl
      (Nat.lt_succ_self _) ?_ ?_ (by rw [announce_nil]; exact frame_addOrbit drawn _)) rfl, ?_⟩
    · simp
    · intro h
      cases h
    · simp
    · rintro id rfl
      exact Or.inr ⟨_, List.mem_append_right _ (List.mem_singleton.mpr rfl), rfl, rfl⟩
  · rename_i lease hlease
    obtain ⟨f, hf, hid⟩ := Option.bind_eq_some_iff.mp hlease
    have row : f ∈ s.flags := mem f (Option.filter_eq_some_iff.mp hf).1
    split
    · exact ⟨.refl s, fun id heq => Or.inl ⟨f, row, heq ▸ hid⟩⟩
    · refine ⟨fun ok => ?_, fun id heq => Or.inl ⟨f, row, heq ▸ hid⟩⟩
      refine Keeps.setOrbit (fun o ho hoid => ⟨rfl, .keep rfl rfl rfl (fun kind => ?_)
        fun _ => rfl, fun _ => .same rfl rfl⟩) (fun o _ _ => .silent fun _ => ⟨rfl, Or.inl rfl⟩) ok
      rw [(ok.leases f row lease hid).2 o ho hoid] at kind
      rcases kind with kind | kind <;> cases kind

/-- The flag, its lease and the wake of its waiters come in one change. -/
theorem flagSetEphemeral_takes {key value : String} {agent : Option AgentId} {ttl : Option ℚ}
    {epoch : Option ℕ} (agents : c.may .agents) (signal : c.may .signal) (own : c.may (.own key))
    (alive : checkAlive s agent epoch = none) :
    Takes c s (flagSetEphemeral c.cfg c.now s key value agent ttl).1 := by
  cases agent with
  | none => exact .refl s
  | some a =>
      intro ok
      have halive := ok.alive alive
      have upsert : Takes c s (s.upsertAgent a c.now) :=
        (upsertAgent_keeps agents halive c.now).takes
      have flags : (s.upsertAgent a c.now).flags = s.flags := by
        rw [Store.upsertAgent]
        split <;> rfl
      refine Takes.trans ?_ (.refl _) ok
      rw [flagSetEphemeral]
      dsimp only
      split
      · exact upsert
      split
      · exact upsert
      · obtain ⟨back, lease⟩ := backFlag_keeps (c := c) (E := nobody) key (s.getFlag key) ttl
          (halive.upsertAgent a c.now)
          (fun f hf => flags ▸ Table.mem_of_get hf)
        refine upsert.trans (back.takes.trans (Keeps.takes ?_))
        exact setSignal_keeps signal (Or.inl own) fun id hid => lease id (Option.some.inj hid).symm

/-- A latch is written and wakes its waiters in one change. -/
theorem flagSetLatch_takes {key value : String} {agent : Option AgentId}
    (signal : c.may .signal) (set : c.may (.set key value agent)) :
    Takes c s (flagSetLatch s key value agent).1 := by
  have write {flag : Option Flag} {epoch : ℕ}
      (same : flagSetLatch s key value agent = latchFlag s key value agent flag epoch) :
      Takes c s (flagSetLatch s key value agent).1 := by
    rw [same]
    refine Keeps.takes (setSignal_keeps signal (Or.inr ⟨value, agent, set, ?_⟩)
      fun _ none => (by cases none))
    rw [same, latchFlag, wakeFlagWaiters_flags]
  cases row : s.getFlag key with
  | none => exact write (by rw [flagSetLatch, row])
  | some f =>
      by_cases written : f.flagType = .EPHEMERAL ∨ f.status = .LIVE ∧ f.value = value ∨
          0 < latchRank value ∧ 0 < f.rank ∧ latchRank value < f.rank
      · have same : (flagSetLatch s key value agent).1 = s := by
          rw [flagSetLatch, row]
          dsimp only
          split_ifs <;> first | rfl | simp_all
        rw [same]
        exact .refl s
      · simp only [not_or] at written
        have same : flagSetLatch s key value agent =
            latchFlag s key value agent (some f) (f.epoch + 1) := by
          rw [flagSetLatch, row]
          dsimp only
          rw [if_neg written.1, if_neg written.2.1, if_neg written.2.2]
        exact write same

theorem flagSetBody_plain {cfg : Cfg} {now : Time} {key value : String} {agent : Option AgentId}
    {type : FlagType} {ttl : Option ℚ} {epoch : Option ℕ} :
    Plain (.ok (flagSetBody cfg now s key value agent type ttl epoch)) := by
  unfold flagSetBody
  split
  · exact .set _ _
  split
  · unfold flagSetEphemeral
    split
    · exact .set _ _
    dsimp only
    split
    · exact .set _ _
    split
    · exact .set _ _
    · exact .set _ _
  · rw [flagSetLatch]
    split
    · exact .set _ _
    split
    · exact .set _ _
    split
    · exact .set _ _
    split
    · exact .set _ _
    · exact .set _ _

/-- A flag is owned by the agent of an ephemeral set, and a latch by nobody. -/
theorem flagSet_takes {key value : String} {agent : Option AgentId} {type : FlagType}
    {ttl : Option ℚ} {requestId : Option RequestId} {epoch : Option ℕ} {r : Reply}
    (agents : c.may .agents) (signal : c.may .signal)
    (own : type = .EPHEMERAL → c.may (.own key))
    (set : type = .LATCH → c.may (.set key value agent))
    (answer : ∀ id, requestId = some id → r.isSuccess = true →
      c.may (.answer id (.flag_set key value (type = .EPHEMERAL)) r))
    (h : flagSet c.cfg c.now s key value agent type ttl requestId epoch = .ok (s', r)) :
    Takes c s s' := by
  rw [flagSet, Outcome.bind_eq_ok] at h
  obtain ⟨⟨s₁, r₁⟩, h₁, h⟩ := h
  cases h
  refine withIdem_takes_plain (fun _ => flagSetBody_plain) (fun s₂ s₃ r₂ _ h => ?_) answer h₁
  have left : s₃ = (flagSetBody c.cfg c.now s₂ key value agent type ttl epoch).1 :=
    (congrArg Prod.fst (Except.ok.inj h)).symm
  subst left
  unfold flagSetBody
  split
  · exact .refl _
  rename_i halive
  split
  · exact flagSetEphemeral_takes agents signal (own rfl) halive
  · exact flagSetLatch_takes signal (set rfl)

/-- The end of a lease leaves the flags to its caller. -/
theorem releaseLease_flags {now : Time} {lease : OrbitId}
    (h : releaseLease now s lease = .ok s') : s'.flags = s.flags := by
  rw [releaseLease] at h
  split at h
  · cases h
    rfl
  split at h
  · rw [Outcome.bind_eq_ok] at h
    obtain ⟨state, -, h⟩ := h
    cases h
    rfl
  · cases h
    rfl

/-- The end of a lease that backs a flag. -/
theorem releaseLease_takes {f : Flag} {lease : OrbitId} (mem : f ∈ s.flags)
    (backs : f.leaseId = some lease) (h : releaseLease c.now s lease = .ok s') :
    Takes c s s' := by
  rw [releaseLease] at h
  split at h
  · cases h
    exact .refl s
  rename_i o hget
  split at h
  · rename_i held
    rw [Outcome.bind_eq_ok] at h
    obtain ⟨state, hstate, h⟩ := h
    cases hstate
    cases h
    intro ok
    have kind := (ok.leases f mem lease backs).2
    refine (Keeps.setOrbit (E := nobody) ?_ ?_).takes ok
    · intro r hr hid
      have same : r = o := ok.orbit_eq hr (Table.mem_of_get hget)
        (hid.trans (Table.key_of_get hget).symm)
      refine ⟨rfl, .lease (kind r hr hid) (same ▸ held) rfl, fun h => ?_⟩
      rw [kind r hr hid] at h
      cases h
    · refine fun r hr hid => .silent fun h => ?_
      rw [kind r hr hid] at h
      cases h
  · cases h
    exact .refl s

theorem flagClearBody_plain {now : Time} {key : String} {agent : Option AgentId}
    {epoch : Option ℕ} : Plain (flagClearBody now s key agent epoch) := by
  rw [flagClearBody]
  split
  · exact .set _ _
  split
  · exact .set _ _
  split
  · exact .set _ _
  split
  · exact .set _ _
  split
  · exact .set _ _
  · dsimp only
    split
    · exact .set _ _
    · exact .bind fun _ => .set _ _

theorem flagClear_takes {key : String} {agent : Option AgentId}
    {requestId : Option RequestId} {epoch : Option ℕ} {r : Reply}
    (answer : ∀ id, requestId = some id → r.isSuccess = true →
      c.may (.answer id (.flag_clear key) r))
    (h : flagClear c.now s key agent requestId epoch = .ok (s', r)) : Takes c s s' := by
  rw [flagClear, Outcome.bind_eq_ok] at h
  obtain ⟨⟨s₁, r₁⟩, h₁, h⟩ := h
  cases h
  refine withIdem_takes_plain (fun _ => flagClearBody_plain) (fun s₂ s₃ r₂ _ h => ?_) answer h₁
  rw [flagClearBody] at h
  split at h
  · cases h
    exact .refl _
  split at h
  · cases h
    exact .refl _
  rename_i f hget
  split at h
  · cases h
    exact .refl _
  rename_i type
  split at h
  · cases h
    exact .refl _
  split at h
  · cases h
    exact .refl _
  · have clear {s₄ : Store} (flags : s₄.flags = s₂.flags) :
        Takes c s₄ (wakeFlagWaiters (s₄.setFlagStatus key .CLEARED (f.epoch + 1)) key) := by
      refine (frame_endFlag s₄ key
        (f := fun r => { r with status := .CLEARED, epoch := f.epoch + 1 })
        (fun _ => ⟨rfl, rfl, by simp⟩) fun _ latched => ?_).takes
      have latch := latched f (flags ▸ Table.mem_of_get hget) (Table.key_of_get hget)
      rw [latch] at type
      exact type (by simp)
    dsimp only at h
    split at h
    · cases h
      exact clear rfl
    · rename_i lease backs
      rw [Outcome.bind_eq_ok] at h
      obtain ⟨s₄, h₄, h⟩ := h
      cases h
      exact (releaseLease_takes (Table.mem_of_get hget) backs h₄).trans
        (clear (releaseLease_flags h₄))

/-- Who waits for a flag that is ready is answered at once, and does not listen. -/
theorem flagWait_keeps {key want : String} {timeout : Option ℚ} {agent : Option AgentId}
    (signal : c.may .signal) : Keeps c E s (flagWait c.now s key want timeout agent).1 := by
  unfold flagWait
  split
  · exact .refl s
  split
  · exact .refl s
  split
  · exact .refl s
  · rename_i broken satisfied
    refine .of_micro (.flags (.listen _ signal rfl (Nat.lt_succ_self _) ?_ rfl rfl)
      { uuid := Nat.le_succ _ }) rfl
    rw [flagReady, Bool.eq_false_of_not_eq_true broken, Bool.eq_false_of_not_eq_true satisfied]
    rfl

/-- A poll may sweep first, and ends a wait only that was waiting. -/
theorem flagWaitPoll_takes {waiter : ℕ} {r : Reply} (agents : c.may .agents)
    (archive : Collecting c.may)
    (may : ∀ a, s.Stale c.cfg c.now a → c.may (.zombie a))
    (poll : ∀ w, s.getFlagWaiter waiter = some w → w.state = .WAITING → c.may (.poll waiter))
    (h : flagWaitPoll c.cfg c.now s waiter = .ok (s', r)) : Takes c s s' := by
  rw [flagWaitPoll] at h
  split at h
  · cases h
    exact .refl s
  rename_i w row
  split at h
  · cases h
    exact .refl s
  · rename_i waiting
    have poll := poll w row (not_not.mp waiting)
    rw [Outcome.bind_eq_ok] at h
    obtain ⟨s₁, h₁, h⟩ := h
    refine (sweepInline_takes agents archive may h₁).trans (Keeps.takes ?_)
    split at h
    · cases h
      exact setFlagWaiter_keeps poll (by simp)
    split at h
    · cases h
      exact setFlagWaiter_keeps poll (by simp)
    split at h
    · cases h
      exact setFlagWaiter_keeps poll (by simp)
    · cases h
      exact .refl _

/-! ## Semaphores -/

/-- New slots are handed on at once. -/
theorem semDeclare_takes {sem : String} {max : ℤ} (may : c.may (.slots sem max.toNat)) :
    Takes c s (semDeclare c.cfg c.now s sem max).1 := by
  rw [semDeclare]
  split
  · exact .refl s
  · intro ok
    have slots : Micro (c.serving [sem]) nobody s (s.addSemaphore sem max.toNat) := by
      refine .slots sem max.toNat may (List.mem_singleton_self sem) ?_
      rw [Store.addSemaphore]
      split <;> exact {}
    have ok₁ := ok.micro slots
    refine .single (.handed [sem] ⟨?_, fun sem' hsem => ?_⟩)
    · exact (Relation.ReflTransGen.single slots).trans (promoteSemWaiters_keeps sem ok₁).1
    · rw [List.mem_singleton.mp hsem]
      exact promoteSemWaiters_served sem ok₁

/-- Who is alive, and finds no slot or somebody in line, joins the line. -/
theorem acquireWait_keeps {a : AcquireArgs} (alive : s.Alive a.agentId)
    (full : s.HasSlot a.sem → ∃ r ∈ s.semWaiters, r.semId = a.sem ∧ r.state = .WAITING) :
    Keeps c E s (acquireWait c.cfg c.now s a).1 := by
  refine (frame_bumpSeq s).keeps.trans (.of_micro (.waiters
    (.add _ rfl (Nat.lt_succ_self _) ?_ rfl ?_ rfl) ?_) rfl)
  · exact alive
  · exact full
  · exact { uuid := Nat.le_succ _ }

/-- Who has an earlier waiter in front of them is not the first in line. -/
theorem hasEarlierWaiter_waiting {sem : String} {priority : ℤ} {agent : AgentId}
    (h : hasEarlierWaiter s sem priority agent = true) :
    ∃ r ∈ s.semWaiters, r.semId = sem ∧ r.state = .WAITING := by
  obtain ⟨r, hr, -⟩ := List.any_eq_true.mp h
  rw [Store.waitingSemWaiters, List.mem_insertionSort, List.mem_filter, Bool.and_eq_true,
    decide_eq_true_eq, decide_eq_true_eq] at hr
  exact ⟨r, hr⟩

/-- A permit is handed out past nobody: who finds the line busy joins it. -/
theorem acquireDecide_keeps {a : AcquireArgs} {sem : Semaphore} (alive : s.Alive a.agentId)
    (found : s.getSemaphore a.sem = some sem) (direct : ¬ c.may (.serve a.sem)) :
    Keeps c E s (acquireDecide c.cfg c.now s a sem).1 := by
  rw [acquireDecide]
  split
  · exact .refl s
  rename_i first
  split
  · rename_i free
    exact grantPermit_keeps a.ttl alive first ⟨sem, found, free.1⟩ direct
  rename_i taken
  split
  · exact .refl s
  · refine acquireWait_keeps alive fun ⟨row, hrow, free⟩ => ?_
    cases found.symm.trans hrow
    have earlier : hasEarlierWaiter s a.sem a.priority a.agentId = true := by
      by_contra none
      exact taken ⟨free, by simpa using none⟩
    exact hasEarlierWaiter_waiting earlier

theorem getSemaphore_upsertAgent (id : AgentId) (now : Time) (sem : String) :
    (s.upsertAgent id now).getSemaphore sem = s.getSemaphore sem := by
  rw [Store.upsertAgent]
  split <;> rfl

/-- The decision is made after the sweep, for an agent that is alive. -/
theorem acquireBody_takes {a : AcquireArgs} {r : Result} (agents : c.may .agents)
    (archive : Collecting c.may) (direct : ¬ c.may (.serve a.sem))
    (may : ∀ a, s.Stale c.cfg c.now a → c.may (.zombie a))
    (h : acquireBody c.cfg c.now s a = .ok (s', r)) : Takes c s s' := by
  rw [acquireBody, Outcome.bind_eq_ok] at h
  obtain ⟨s₁, h₁, h⟩ := h
  have sweep : Takes c s s₁ := sweepInline_takes agents archive may h₁
  refine sweep.trans ?_
  split at h
  · cases h
    exact .refl _
  rename_i halive
  split at h
  · cases h
    exact .refl _
  · rename_i sem found
    intro ok
    have alive := ok.alive halive
    have decided : Keeps c nobody (s₁.upsertAgent a.agentId c.now)
        (acquireDecide c.cfg c.now (s₁.upsertAgent a.agentId c.now) a sem).1 :=
      acquireDecide_keeps (alive.upsertAgent _ _)
        ((getSemaphore_upsertAgent _ _ _).trans found) direct
    rw [congrArg Prod.fst (Except.ok.inj h)] at decided
    exact (upsertAgent_keeps agents alive c.now).takes.trans decided.takes ok

theorem acquireDecide_plain {cfg : Cfg} {now : Time} {a : AcquireArgs} {sem : Semaphore} :
    Plain (.ok (acquireDecide cfg now s a sem)) := by
  rw [acquireDecide]
  split
  · exact .set _ _
  split
  · exact .set _ _
  split
  · exact .set _ _
  · exact .set _ _

theorem acquireBody_plain {cfg : Cfg} {now : Time} {a : AcquireArgs} :
    Plain (acquireBody cfg now s a) := by
  refine .bind fun s₁ => ?_
  split
  · exact .set _ _
  split
  · exact .set _ _
  · exact acquireDecide_plain

theorem acquire_takes {a : AcquireArgs} {r : Reply} (agents : c.may .agents)
    (archive : Collecting c.may) (direct : ¬ c.may (.serve a.sem))
    (may : ∀ a, s.Stale c.cfg c.now a → c.may (.zombie a))
    (answer : ∀ id s₁ s₂ r₁, a.requestId = some id →
      enterIdem s id (some a.agentId) a.idemArgs = .ok (.inr s₁) →
      acquireBody c.cfg c.now s₁ a = .ok (s₂, r₁) → r₁.reply = r → r.isSuccess = true →
        c.may (.answer id a.idemArgs r))
    (h : acquire c.cfg c.now s a = .ok (s', r)) : Takes c s s' := by
  rw [acquire, Outcome.bind_eq_ok] at h
  obtain ⟨⟨s₁, r₁⟩, h₁, h⟩ := h
  cases h
  refine withIdem_takes (fun s₂ s₃ r₂ apart h => ?_) (fun id s₂ s₃ hid enter hbody _ final => ?_) h₁
  · exact acquireBody_takes agents archive direct
      (fun a ha => may a (ha.of_agents apart.agents)) h
  · refine answer id s₂ s₃ r₁ hid enter hbody rfl (final.resolve_left fun terminal => ?_)
    rw [acquireBody_plain s₃ r₁ hbody] at terminal
    cases terminal

theorem acquirePoll_takes {waiter : ℕ} {r : Reply} (agents : c.may .agents)
    (archive : Collecting c.may)
    (may : ∀ a, s.Stale c.cfg c.now a → c.may (.zombie a))
    (h : acquirePoll c.cfg c.now s waiter = .ok (s', r)) : Takes c s s' := by
  rw [acquirePoll] at h
  split at h
  · cases h
    exact .refl s
  split at h
  · cases h
    exact .refl s
  split at h
  · cases h
    exact .refl s
  · rename_i w _ _ _
    rw [Outcome.bind_eq_ok] at h
    obtain ⟨s₁, h₁, h⟩ := h
    refine (sweepInline_takes agents archive may h₁).trans
      ((promoteSemWaiters_keeps w.semId).takes.trans ?_)
    dsimp only at h
    split at h
    · cases h
    split at h
    · cases h
      exact .refl _
    rename_i _ found waits
    split at h
    · cases h
      intro ok
      refine (setSemWaiter_keeps (f := fun r => { r with state := .TIMEOUT })
        fun r hr hid => ⟨rfl, ?_, Or.inr rfl⟩).takes ok
      rwa [ok.waiterIds.eq hr (Table.mem_of_get found) (hid.trans (Table.key_of_get found).symm)]
    · cases h
      exact .refl _

theorem semReleaseBody_plain {cfg : Cfg} {now : Time} {permit : OrbitId} {agent : AgentId}
    {fence epoch : Option ℕ} : Plain (semReleaseBody cfg now s permit agent fence epoch) := by
  rw [semReleaseBody]
  split
  · exact .set _ _
  split
  · exact .set _ _
  split
  · exact .set _ _
  split
  · exact .set _ _
  split
  · exact .set _ _
  split
  · exact .set _ _
  · exact .bind fun _ => .set _ _

/-- Only the owner of a permit gives it back. -/
theorem semRelease_takes {permit : OrbitId} {agent : AgentId} {fence : Option ℕ}
    {requestId : Option RequestId} {epoch : Option ℕ} {r : Reply}
    (may : ∀ p ∈ s.orbits, p.orbitId = permit → checkOwner p agent fence = none →
      c.may (.yield permit))
    (answer : ∀ id, requestId = some id → r.isSuccess = true →
      c.may (.answer id (.sem_release permit fence) r))
    (h : semRelease c.cfg c.now s permit agent fence requestId epoch = .ok (s', r)) :
    Takes c s s' := by
  rw [semRelease, Outcome.bind_eq_ok] at h
  obtain ⟨⟨s₁, r₁⟩, h₁, h⟩ := h
  cases h
  refine withIdem_takes_plain (fun _ => semReleaseBody_plain) (fun s₂ s₃ r₂ apart h => ?_) answer h₁
  rw [semReleaseBody] at h
  split at h
  · cases h
    exact .refl _
  split at h
  · cases h
    exact .refl _
  rename_i p hget
  split at h
  · cases h
    exact .refl _
  rename_i kind
  split at h
  · cases h
    exact .refl _
  split at h
  · cases h
    exact .refl _
  rename_i held
  split at h
  · cases h
    exact .refl _
  · rename_i owner
    rw [Outcome.bind_eq_ok] at h
    obtain ⟨state, hstate, h⟩ := h
    cases hstate
    cases h
    have same (ok : s₂.Ok) : ∀ r ∈ s₂.orbits, r.orbitId = permit → r = p := fun r hr hid =>
      ok.orbit_eq hr (Table.mem_of_get hget) (hid.trans (Table.key_of_get hget).symm)
    have kind : p.kind = .sem_permit := not_not.mp kind
    have mem : p ∈ s.orbits := apart.orbits ▸ Table.mem_of_get hget
    have yields : c.may (.yield permit) := may p mem (Table.key_of_get hget) owner
    let sem := p.resourceKey.getD ""
    have released (ok : s₂.Ok) : Keeps (c.serving [sem]) nobody s₂ (s₂.setOrbit permit fun r =>
        { r with state := .RELEASED, releasedAt := some c.now }) := by
      refine Keeps.setOrbit (fun r hr hid => ?_) fun r hr hid => .silent fun h => ?_
      · cases same ok r hr hid
        refine ⟨rfl, .permit kind (not_not.mp held) (Or.inr (Or.inr (hid ▸ yields))) ?_ rfl,
          fun h => ?_⟩
        · intro key hkey
          exact List.mem_singleton.mpr (by simp only [sem, hkey, Option.getD_some])
        · rw [kind] at h
          cases h
      · rw [same ok r hr hid, kind] at h
        cases h
    intro ok
    have run := released ok ok
    have ok₁ := ok.micros run.1
    refine .single (.handed [sem] ⟨run.1.trans (promoteSemWaiters_keeps sem ok₁).1, ?_⟩)
    intro sem' hsem
    rw [List.mem_singleton.mp hsem]
    exact promoteSemWaiters_served sem ok₁

theorem semStatus_takes {sem : String} {r : Reply} (agents : c.may .agents)
    (archive : Collecting c.may)
    (may : ∀ a, s.Stale c.cfg c.now a → c.may (.zombie a))
    (h : semStatus c.cfg c.now s sem = .ok (s', r)) : Takes c s s' := by
  rw [semStatus, Outcome.bind_eq_ok] at h
  obtain ⟨s₁, h₁, h⟩ := h
  cases h
  exact sweepInline_takes agents archive may h₁

/-! ## Barriers -/

/-- The barrier a name stands for is the latest of that name. -/
theorem barrierByName_spec {name : String} :
    (∀ b, s.barrierByName name = some b → b ∈ s.barriers ∧ b.name = name ∧
      ∀ r ∈ s.barriers, r.name = name → r.generation ≤ b.generation) ∧
      (s.barrierByName name = none → ∀ r ∈ s.barriers, r.name ≠ name) := by
  have mem {r : Barrier} (hr : r ∈ s.barriers) (hname : r.name = name) :
      r ∈ s.barriers.filter fun b => b.name = name :=
    List.mem_filter.mpr ⟨hr, decide_eq_true hname⟩
  have fold : s.barrierByName name = (s.barriers.filter fun b => b.name = name).foldl
      (Table.later Barrier.generation) none := by
    rw [Store.barrierByName]
    congr 1
    funext best b
    cases best <;> rfl
  rw [fold]
  refine ⟨fun b h => ?_, fun h r hr hname => ?_⟩
  · obtain ⟨found, top, -⟩ := Table.foldl_later Barrier.generation h
    have found := found.resolve_right (by simp)
    rw [List.mem_filter, decide_eq_true_eq] at found
    exact ⟨found.1, found.2, fun r hr hname => top r (mem hr hname)⟩
  · have empty := Table.foldl_later_eq_none Barrier.generation h
    have absent := mem hr hname
    rw [empty] at absent
    cases absent

/-- A barrier is armed as the next generation of its name, when no other is active. -/
theorem barrierDeclare_takes {now : Time} {name : String} {tasks : List TaskId}
    {policy : BarrierPolicy} {timeout : Option ℚ} (may : c.may (.arm name)) :
    Takes c s (barrierDeclare now s name tasks policy timeout).1 := by
  rw [barrierDeclare]
  split
  · exact .refl s
  dsimp only
  split
  · exact .refl s
  · rename_i inactive
    have idle : ∀ r, s.barrierByName name = some r → r.state.active = false := by
      intro r hr
      rw [hr, Option.any_some, Bool.not_eq_true] at inactive
      exact inactive
    let b (generation : ℕ) : Barrier :=
      { barrierId := (name, generation)
        name := name
        parties := tasks.dedup.length
        generation := generation
        policy := policy
        deadlineAt := timeout.map fun t => now + t }
    let party (generation : ℕ) (task : TaskId) : BarrierParty :=
      { barrierId := (name, generation)
        generation := generation
        taskId := task
        agentId := (s.getTask task).bind Task.agentId }
    have arms (generation : ℕ)
        (next : ∀ r ∈ s.barriers, r.name = name → r.generation < generation) :
        Takes c s { s with
          barriers := s.barriers ++ [b generation]
          barrierParties := s.barrierParties ++ tasks.dedup.map (party generation) } := by
      refine Keeps.takes (.of_micro (.arm (b generation) (tasks.dedup.map (party generation)) may
        rfl rfl next idle ?_ (.refl _)) rfl)
      intro p hp
      obtain ⟨task, -, rfl⟩ := List.mem_map.mp hp
      rfl
    cases hprev : s.barrierByName name with
    | none => exact arms 0 fun r hr hname => absurd hname (barrierByName_spec.2 hprev r hr)
    | some p =>
        refine arms (p.generation + 1) fun r hr hname => ?_
        exact Nat.lt_succ_of_le ((barrierByName_spec.1 p hprev).2.2 r hr hname)

theorem barrierAbortBody_plain {name : String} {agent : Option AgentId} {epoch : Option ℕ} :
    Plain (barrierAbortBody s name agent epoch) := by
  rw [barrierAbortBody]
  split
  · exact .set _ _
  split
  · exact .set _ _
  split
  · exact .set _ _
  · exact .bind fun _ => .set _ _

theorem barrierAbort_takes {name : String} {agent : Option AgentId}
    {requestId : Option RequestId} {epoch : Option ℕ} {r : Reply}
    (answer : ∀ id, requestId = some id → r.isSuccess = true →
      c.may (.answer id (.barrier_abort name) r))
    (h : barrierAbort c.now s name agent requestId epoch = .ok (s', r)) : Takes c s s' := by
  rw [barrierAbort, Outcome.bind_eq_ok] at h
  obtain ⟨⟨s₁, r₁⟩, h₁, h⟩ := h
  cases h
  refine withIdem_takes_plain (fun _ => barrierAbortBody_plain) (fun s₂ s₃ r₂ _ h => ?_) answer h₁
  rw [barrierAbortBody] at h
  split at h
  · cases h
    exact .refl _
  split at h
  · cases h
    exact .refl _
  rename_i b hb
  split at h
  · cases h
    exact .refl _
  · rw [Outcome.bind_eq_ok] at h
    obtain ⟨s₄, h₄, h⟩ := h
    cases h
    exact (frame_breakBarrier (s₂.shows_of_mem (barrierByName_spec.1 b hb).1) h₄).takes

theorem barrierConsumeBody_plain {name : String} {agent : Option AgentId} {epoch : Option ℕ} :
    Plain (barrierConsumeBody s name agent epoch) := by
  rw [barrierConsumeBody]
  split
  · exact .set _ _
  split
  · exact .set _ _
  dsimp only
  split
  · exact .bind fun _ => .set _ _
  · exact .set _ _
  · exact .set _ _

theorem barrierConsume_takes {name : String} {agent : Option AgentId}
    {requestId : Option RequestId} {epoch : Option ℕ} {r : Reply}
    (answer : ∀ id, requestId = some id → r.isSuccess = true →
      c.may (.answer id (.barrier_consume name) r))
    (h : barrierConsume c.now s name agent requestId epoch = .ok (s', r)) : Takes c s s' := by
  rw [barrierConsume, Outcome.bind_eq_ok] at h
  obtain ⟨⟨s₁, r₁⟩, h₁, h⟩ := h
  cases h
  refine withIdem_takes_plain (fun _ => barrierConsumeBody_plain) (fun s₂ s₃ r₂ _ h => ?_) answer h₁
  rw [barrierConsumeBody] at h
  split at h
  · cases h
    exact .refl _
  split at h
  · cases h
    exact .refl _
  rename_i b hb
  dsimp only at h
  split at h
  · rename_i tripped
    rw [Outcome.bind_eq_ok] at h
    obtain ⟨state, advance, h⟩ := h
    cases h
    rw [← tripped] at advance
    have current := s₂.shows_of_mem (barrierByName_spec.1 b hb).1
    refine (frame_advance current advance ?_ fun _ => Or.inl ?_).takes
    · exact fun _ => ⟨rfl, rfl, rfl⟩
    · rw [tripped]
      rfl
  · cases h
    exact .refl _
  · cases h
    exact .refl _

theorem barrierStatus_takes {name : String} {r : Reply} (agents : c.may .agents)
    (archive : Collecting c.may)
    (may : ∀ a, s.Stale c.cfg c.now a → c.may (.zombie a))
    (h : barrierStatus c.cfg c.now s name = .ok (s', r)) : Takes c s s' := by
  rw [barrierStatus, Outcome.bind_eq_ok] at h
  obtain ⟨s₁, h₁, h⟩ := h
  refine (sweepInline_takes agents archive may h₁).trans ?_
  split at h
  · cases h
    exact .refl _
  · rw [Outcome.bind_eq_ok] at h
    obtain ⟨⟨s₂, plan⟩, h₂, h⟩ := h
    cases h
    exact (frame_barrierEval h₂).takes

/-! ## Arrival and trip -/

/-- An arrival changes no party but the columns of its arrival. -/
theorem frame_markArrived (b : Barrier) (a : ArriveArgs) (fence : ℕ) :
    Frame s (markArrived s b a fence) where
  gather := by
    intro _ b' hb'
    refine ⟨b', hb', rfl, .refl, fun _ task => ?_, Or.inl⟩
    constructor
    · rintro ⟨p', hp', id, generation, key⟩
      obtain ⟨p, hp, rfl⟩ := List.mem_map.mp hp'
      split at id <;> exact ⟨p, hp, by simpa using id, by aesop, by aesop⟩
    · rintro ⟨p, hp, id, generation, key⟩
      refine ⟨_, List.mem_map_of_mem hp, ?_⟩
      split <;> exact ⟨id, generation, key⟩

/-- An arrival changes the barriers and their parties only. -/
theorem frame_arriveArmed {now : Time} {b : Barrier} {a : ArriveArgs} {r : Result}
    {trip : Option Trip} (h : arriveArmed now s b a = .ok ((s', r), trip)) : Frame s s' := by
  rw [arriveArmed] at h
  split at h
  · cases h
    exact .refl s
  split at h
  · cases h
    exact .refl s
  split at h
  · cases h
    exact .refl s
  · rw [Outcome.bind_eq_ok] at h
    obtain ⟨⟨s₁, plan⟩, h₁, h⟩ := h
    have left : s' = s₁ := by
      dsimp only at h
      split at h <;> (cases h; rfl)
    exact left ▸ (frame_markArrived b a _).trans (frame_barrierEval h₁)

theorem arriveBody_takes {a : ArriveArgs} {r : Result} {trip : Option Trip}
    (agents : c.may .agents) (archive : Collecting c.may)
    (may : ∀ a, s.Stale c.cfg c.now a → c.may (.zombie a))
    (h : arriveBody c.cfg c.now s a = .ok ((s', r), trip)) : Takes c s s' := by
  rw [arriveBody, Outcome.bind_eq_ok] at h
  obtain ⟨s₁, h₁, h⟩ := h
  refine (sweepInline_takes agents archive may h₁).trans ?_
  split at h
  · cases h
    exact .refl _
  split at h
  · cases h
    exact .refl _
  split at h
  · cases h
    exact .refl _
  · cases h
    exact .refl _
  · cases h
    exact .refl _
  · cases h
    exact .refl _
  · exact (frame_arriveArmed h).takes

/-- An arrival is not cached as terminal. -/
theorem arriveArmed_terminal {now : Time} {b : Barrier} {a : ArriveArgs} {r : Result}
    {trip : Option Trip} (h : arriveArmed now s b a = .ok ((s', r), trip)) :
    r.terminal = false := by
  rw [arriveArmed] at h
  split at h
  · cases h
    rfl
  split at h
  · cases h
    rfl
  split at h
  · cases h
    rfl
  · rw [Outcome.bind_eq_ok] at h
    obtain ⟨⟨s₁, plan⟩, -, h⟩ := h
    dsimp only at h
    split at h <;> (cases h; rfl)

theorem arriveBody_terminal {cfg : Cfg} {now : Time} {a : ArriveArgs} {r : Result}
    {trip : Option Trip} (h : arriveBody cfg now s a = .ok ((s', r), trip)) :
    r.terminal = false := by
  rw [arriveBody, Outcome.bind_eq_ok] at h
  obtain ⟨s₁, -, h⟩ := h
  split at h
  · cases h
    rfl
  split at h
  · cases h
    rfl
  split at h
  · cases h
    rfl
  · cases h
    rfl
  · cases h
    rfl
  · cases h
    rfl
  · exact arriveArmed_terminal h

theorem barrierArrive_takes {a : ArriveArgs} {r : Reply} {trip : Option Trip}
    (agents : c.may .agents) (archive : Collecting c.may)
    (may : ∀ a, s.Stale c.cfg c.now a → c.may (.zombie a))
    (answer : ∀ id s₁ s₂ r trip, a.requestId = some id →
      enterIdem s id (some a.agentId) a.idemArgs = .ok (.inr s₁) →
      arriveBody c.cfg c.now s₁ a = .ok ((s₂, r), trip) → r.deferred = false →
        r.reply.isSuccess = true → c.may (.answer id a.idemArgs r.reply))
    (h : barrierArrive c.cfg c.now s a = .ok ((s', r), trip)) : Takes c s s' := by
  unfold barrierArrive at h
  split at h
  · rw [Outcome.bind_eq_ok] at h
    obtain ⟨⟨⟨s₁, r₁⟩, trip₁⟩, h₁, h⟩ := h
    cases h
    exact arriveBody_takes agents archive may h₁
  · rename_i id hid
    rw [Outcome.bind_eq_ok] at h
    obtain ⟨hit, henter, h⟩ := h
    cases hit with
    | inl reply =>
        cases h
        exact .refl _
    | inr s₁ =>
        rw [Outcome.bind_eq_ok] at h
        obtain ⟨⟨⟨s₂, r₂⟩, trip₂⟩, h₂, h⟩ := h
        rw [Outcome.bind_eq_ok] at h
        obtain ⟨s₃, h₃, h⟩ := h
        cases h
        have enter : Requested c s s₁ := enterIdem_requested henter
        have exit : Requested c s₂ s' := exitIdem_requested (fun ready final =>
          answer id s₁ s₂ _ _ hid henter h₂ ready (final.resolve_left (by
            rw [arriveBody_terminal h₂]
            simp))) h₃
        have body : Takes c s₁ s₂ := arriveBody_takes agents archive
          (fun a ha => may a (ha.of_agents enter.apart.agents)) h₂
        exact (enter.takes.trans body).trans exit.takes

theorem frame_breakTrip {trip : Trip} (h : breakTrip s trip = .ok s') : Frame s s' := by
  rw [breakTrip] at h
  split at h
  · cases h
    exact .refl s
  rename_i b hb
  split at h
  · exact frame_breakBarrier (s.shows_of_mem (Table.mem_of_get hb)) h
  · cases h
    exact .refl s

/-- A trip that merged its parties trips the generation. -/
theorem finishTrip_takes {trip : Trip} {r : Reply} (may : c.may (.trip trip.barrierId))
    (h : finishTrip s trip = .ok (s', r)) : Takes c s s' := by
  rw [finishTrip] at h
  dsimp only at h
  split at h
  · rename_i owns
    rw [Outcome.bind_eq_ok] at h
    obtain ⟨state, advance, h⟩ := h
    cases advance
    cases h
    obtain ⟨b, hb, tripping⟩ := (Option.any_eq_true ..).mp owns
    rw [Bool.and_eq_true, decide_eq_true_eq, decide_eq_true_eq] at tripping
    exact Keeps.takes (.of_micro (.trip trip.barrierId may ⟨b, hb, tripping.2⟩ (.refl _)) rfl)
  · cases h
    exact .refl s

/-- A reply that reports how a barrier ended. -/
def Reply.EndedBarrier (r : Reply) : Prop :=
  (∃ b, r.state = some (.barrier b) ∧ b ≠ .ARMED ∧ b ≠ .TRIPPING)

/-- The tasks of the trip are merged, and none of them is archived. -/
def Store.TripMerged (s : Store) (trip : Trip) : Prop :=
  ∀ p ∈ s.partiesOf trip.barrierId trip.generation,
    (s.getTask p.taskId).map Task.state = some .MERGED

theorem tripEnded_takes {s₁ : Store} {trip : Trip} {merged : List TaskId}
    (answer : ∀ id (r : Reply), trip.args.requestId = some id → r.EndedBarrier →
      c.may (.answer id trip.args.idemArgs r))
    (ended : Takes c s s₁)
    (h : (match (s₁.getBarrier trip.barrierId).map Barrier.state with
      | some .TRIPPED => do
          let r ← finishSplitIdemTerminal c.now s₁ trip.args.requestId (some trip.args.agentId)
            trip.args.idemArgs { ok := some true, state := some (.barrier .TRIPPED),
                                 gen := some trip.generation, tasks := merged }
          .ok r.1
      | some .CONSUMED => do
          let r ← finishSplitIdemTerminal c.now s₁ trip.args.requestId (some trip.args.agentId)
            trip.args.idemArgs { ok := some true, state := some (.barrier .CONSUMED),
                                 gen := some trip.generation, tasks := merged }
          .ok r.1
      | some .BROKEN => do
          let r ← finishSplitIdemTerminal c.now s₁ trip.args.requestId (some trip.args.agentId)
            trip.args.idemArgs { ok := some false, state := some (.barrier .BROKEN),
                                 gen := some trip.generation, tasks := merged }
          .ok r.1
      | _ => .ok s₁ : Except Fault Store) = .ok s') : Takes c s s' := by
  have finish {reply : Reply} (state : reply.EndedBarrier)
      (h : (do
        let r ← finishSplitIdemTerminal c.now s₁ trip.args.requestId (some trip.args.agentId)
          trip.args.idemArgs reply
        .ok r.1 : Except Fault Store) = .ok s') : Takes c s s' := by
    rw [Outcome.bind_eq_ok] at h
    obtain ⟨⟨s₂, r⟩, h₂, h⟩ := h
    cases h
    exact ended.trans
      (finishSplitIdemTerminal_requested (fun id hid => answer id _ hid state) h₂).takes
  split at h
  · exact finish ⟨_, rfl, by simp⟩ h
  · exact finish ⟨_, rfl, by simp⟩ h
  · exact finish ⟨_, rfl, by simp⟩ h
  · cases h
    exact ended

theorem terminalizeTrip_takes {trip : Trip}
    (may : s.TripMerged trip → c.may (.trip trip.barrierId))
    (answer : ∀ id (r : Reply), trip.args.requestId = some id → r.EndedBarrier →
      c.may (.answer id trip.args.idemArgs r))
    (h : terminalizeTrip c.now s trip = .ok s') : Takes c s s' := by
  rw [terminalizeTrip] at h
  split at h
  · cases h
    exact .refl s
  rename_i b hb
  dsimp only at h
  split at h
  · rename_i all
    obtain ⟨tripping, -, all⟩ := all
    rw [Outcome.bind_eq_ok] at h
    obtain ⟨state, advance, h⟩ := h
    cases advance
    have merged : s.TripMerged trip := by
      intro p hp
      rw [List.length_filter_eq_length_iff] at all
      exact of_decide_eq_true (all p.taskId (List.mem_map_of_mem hp))
    have trips : Takes c s (s.setBarrier trip.barrierId fun r => { r with state := .TRIPPED }) :=
      Keeps.takes (.of_micro (.trip trip.barrierId (may merged) ⟨b, hb, tripping⟩ (.refl _)) rfl)
    exact tripEnded_takes answer trips h
  split at h
  · rw [Outcome.bind_eq_ok] at h
    obtain ⟨s₁, h₁, h⟩ := h
    have broken := frame_breakBarrier (s.shows_of_mem (Table.mem_of_get hb)) h₁
    exact tripEnded_takes answer broken.takes h
  · exact tripEnded_takes answer (.refl s) h

end Omd
