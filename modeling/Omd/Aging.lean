import Omd.Admission

/-!
# Aging

A request gains one point of priority for each whole quantum it waits, up to a bound.  The
base priority leaves room for the bound, so that the sum stays a signed 64-bit integer.

What a request gains depends on its age alone and never goes down with it.  Of two requests
under one policy the older one with no lower base therefore stays ahead at every time, and
the ticket decides a tie.
-/

namespace Omd.QueuePolicy

variable (policy : QueuePolicy) {base : ℤ} {version : PolicyVersion} {enqueued : Option ℚ}
  {allow : Bool}

/-! ## The boost -/

theorem ageBoost_nonneg {age : ℚ} (h : 0 ≤ age) : 0 ≤ policy.ageBoost age := by
  rw [ageBoost]
  split
  · exact le_refl 0
  dsimp only
  split
  · exact policy.boost_nonneg
  · apply Int.floor_nonneg.mpr
    exact div_nonneg h policy.quantum_pos.le

theorem ageBoost_le (age : ℚ) : policy.ageBoost age ≤ policy.maxAgeBoost := by
  rw [ageBoost]
  split
  · exact policy.boost_nonneg
  dsimp only
  split
  · exact le_refl _
  · rename_i below
    exact (Int.floor_lt.mpr (lt_of_not_ge below)).le

/-- A request that waits longer gains no less. -/
theorem ageBoost_mono {age age' : ℚ} (h : age ≤ age') :
    policy.ageBoost age ≤ policy.ageBoost age' := by
  have steps : age / policy.agingQuantum ≤ age' / policy.agingQuantum :=
    div_le_div_of_nonneg_right h policy.quantum_pos.le
  by_cases zero : policy.maxAgeBoost = 0
  · rw [ageBoost, ageBoost, if_pos zero, if_pos zero]
  by_cases saturated : (policy.maxAgeBoost : ℚ) ≤ age' / policy.agingQuantum
  · have bound : policy.ageBoost age' = policy.maxAgeBoost := by
      rw [ageBoost, if_neg zero]
      exact if_pos saturated
    rw [bound]
    exact policy.ageBoost_le age
  · have unsaturated : ¬ (policy.maxAgeBoost : ℚ) ≤ age / policy.agingQuantum :=
      fun le => saturated (le.trans steps)
    simp only [ageBoost, if_neg zero, if_neg saturated, if_neg unsaturated]
    exact Int.floor_le_floor steps

/-! ## The effective priority -/

/-- What a base priority that is admitted obeys. -/
theorem acceptsBasePriority_spec (h : policy.acceptsBasePriority base (some version) = true) :
    minAdmissionPriority ≤ base ∧ base ≤ maxAdmissionPriority ∧
      ((version = .static ∨ version = .legacy) ∨
        version = policy.version ∧ base + policy.maxAgeBoost ≤ maxAdmissionPriority) := by
  rw [acceptsBasePriority] at h
  split at h
  · rename_i range
    refine ⟨range.1, range.2, ?_⟩
    simp only [Option.getD_some] at h
    split at h
    · exact Or.inl (Or.inl rfl)
    · exact Or.inl (Or.inr rfl)
    · simp only [Bool.decide_and, Bool.and_eq_true, decide_eq_true_eq] at h
      exact Or.inr ⟨h.1, by omega⟩
  · cases h

/-- The time at which the wait of a request began, where its age is asked for. -/
def waitsSince (enqueued : Option ℚ) (observed : ℚ) : ℚ := enqueued.getD observed

/-- The effective priority of a request that is admitted and whose wait is known. -/
theorem effectivePriority_eq (h : policy.acceptsBasePriority base (some version) = true)
    (known : enqueued ≠ none ∨ allow = true ∨ version = .static ∨ version = .legacy)
    (observed : ℚ) :
    policy.effectivePriority base (some version) enqueued observed allow =
      some (if version = .static ∨ version = .legacy then base
        else base + policy.ageBoost (max 0 (observed - waitsSince enqueued observed))) := by
  by_cases unaged : version = .static ∨ version = .legacy
  · simp only [effectivePriority, Option.some.injEq, if_pos unaged, if_pos h]
  · simp only [effectivePriority, Option.some.injEq, if_neg unaged, if_pos h]
    cases enqueued with
    | some e => rfl
    | none =>
        have allowed : allow = true := by
          rcases known with known | known | known
          · exact absurd rfl known
          · exact known
          · exact absurd known unaged
        simp [allowed, waitsSince]

/-- The age that a policy counts never goes down as time passes. -/
theorem age_mono (enqueued : Option ℚ) {observed later : ℚ} (h : observed ≤ later) :
    max 0 (observed - waitsSince enqueued observed) ≤
      max 0 (later - waitsSince enqueued later) := by
  refine max_le_max (le_refl 0) ?_
  cases enqueued with
  | some e => exact sub_le_sub_right h e
  | none => simp [waitsSince]

/-- The effective priority of a request lies between its base and its base with the whole
boost, and in the signed 64-bit range. -/
theorem effectivePriority_bounds (h : policy.acceptsBasePriority base (some version) = true)
    (known : enqueued ≠ none ∨ allow = true ∨ version = .static ∨ version = .legacy)
    (observed : ℚ) :
    ∃ p, policy.effectivePriority base (some version) enqueued observed allow = some p ∧
      base ≤ p ∧ p ≤ base + policy.maxAgeBoost ∧ minAdmissionPriority ≤ p ∧
        p ≤ maxAdmissionPriority := by
  obtain ⟨low, high, room⟩ := policy.acceptsBasePriority_spec h
  have boost := policy.boost_nonneg
  refine ⟨_, policy.effectivePriority_eq h known observed, ?_⟩
  split
  · exact ⟨le_refl base, by omega, low, high⟩
  · rename_i aged
    obtain ⟨-, room⟩ := room.resolve_left aged
    have nonneg := policy.ageBoost_nonneg
      (le_max_left 0 (observed - waitsSince enqueued observed))
    have bound := policy.ageBoost_le (max 0 (observed - waitsSince enqueued observed))
    exact ⟨by omega, by omega, by omega, by omega⟩

/-- The effective priority of a request never goes down. -/
theorem effectivePriority_mono (h : policy.acceptsBasePriority base (some version) = true)
    (known : enqueued ≠ none ∨ allow = true ∨ version = .static ∨ version = .legacy)
    {observed later : ℚ} (le : observed ≤ later) :
    ∃ p p', policy.effectivePriority base (some version) enqueued observed allow = some p ∧
      policy.effectivePriority base (some version) enqueued later allow = some p' ∧ p ≤ p' := by
  refine ⟨_, _, policy.effectivePriority_eq h known observed,
    policy.effectivePriority_eq h known later, ?_⟩
  split
  · exact le_refl base
  · have mono := policy.ageBoost_mono (age_mono enqueued le)
    omega

/-! ## Two requests -/

theorem rankKey_eq {seq : ℤ} {observed : ℚ} {p : ℤ} (ticket : 0 ≤ seq)
    (h : policy.effectivePriority base (some version) enqueued observed allow = some p) :
    policy.rankKey base (some seq) (some version) enqueued observed allow =
      some (toLex (-p, seq)) := by
  rw [rankKey]
  simp only [if_neg (not_lt.mpr ticket), h]

/-- Of two requests under one policy the one that waits no shorter, with a base no lower and
a smaller ticket, ranks first. -/
theorem rankKey_lt {base₁ base₂ seq₁ seq₂ : ℤ} {since₁ since₂ : ℚ} {allow₁ allow₂ : Bool}
    (h₁ : policy.acceptsBasePriority base₁ (some version) = true)
    (h₂ : policy.acceptsBasePriority base₂ (some version) = true) (bases : base₂ ≤ base₁)
    (since : since₁ ≤ since₂) (ticket : 0 ≤ seq₁) (tickets : seq₁ < seq₂) (observed : ℚ) :
    ∃ r₁ r₂,
      policy.rankKey base₁ (some seq₁) (some version) (some since₁) observed allow₁ = some r₁ ∧
      policy.rankKey base₂ (some seq₂) (some version) (some since₂) observed allow₂ = some r₂ ∧
        r₁ < r₂ := by
  have known (e : ℚ) (allow : Bool) :
      (some e : Option ℚ) ≠ none ∨ allow = true ∨ version = .static ∨ version = .legacy :=
    Or.inl (Option.some_ne_none e)
  have first := policy.effectivePriority_eq h₁ (known since₁ allow₁) observed
  have second := policy.effectivePriority_eq h₂ (known since₂ allow₂) observed
  refine ⟨_, _, policy.rankKey_eq ticket first, policy.rankKey_eq (by omega) second, ?_⟩
  have older : max 0 (observed - since₂) ≤ max 0 (observed - since₁) :=
    max_le_max (le_refl 0) (sub_le_sub_left since observed)
  have boosts := policy.ageBoost_mono older
  rw [Prod.Lex.toLex_lt_toLex]
  simp only [waitsSince, Option.getD_some]
  split <;> omega

/-- The aging of requests is bounded and never goes down, and it never reverses the order of
two requests of which one is ahead in age, base and ticket. -/
theorem aging_keeps_order (policy : QueuePolicy) :
    (∀ (base : ℤ) (version : PolicyVersion) (enqueued : Option ℚ) (allow : Bool) (observed : ℚ),
      policy.acceptsBasePriority base (some version) = true →
      (enqueued ≠ none ∨ allow = true ∨ version = .static ∨ version = .legacy) →
        (∃ p, policy.effectivePriority base (some version) enqueued observed allow = some p ∧
          base ≤ p ∧ p ≤ base + policy.maxAgeBoost ∧ minAdmissionPriority ≤ p ∧
            p ≤ maxAdmissionPriority) ∧
        ∀ later, observed ≤ later → ∃ p p',
          policy.effectivePriority base (some version) enqueued observed allow = some p ∧
            policy.effectivePriority base (some version) enqueued later allow = some p' ∧ p ≤ p') ∧
      ∀ (version : PolicyVersion) (base₁ base₂ seq₁ seq₂ : ℤ) (since₁ since₂ : ℚ)
        (allow₁ allow₂ : Bool), policy.acceptsBasePriority base₁ (some version) = true →
        policy.acceptsBasePriority base₂ (some version) = true → base₂ ≤ base₁ →
        since₁ ≤ since₂ → 0 ≤ seq₁ → seq₁ < seq₂ → ∀ observed, ∃ r₁ r₂,
          policy.rankKey base₁ (some seq₁) (some version) (some since₁) observed allow₁ = some r₁ ∧
            policy.rankKey base₂ (some seq₂) (some version) (some since₂) observed allow₂ =
              some r₂ ∧
              r₁ < r₂ := by
  constructor
  · intro base version enqueued allow observed h known
    exact ⟨policy.effectivePriority_bounds h known observed,
      fun later le => policy.effectivePriority_mono h known le⟩
  · intro version base₁ base₂ seq₁ seq₂ since₁ since₂ allow₁ allow₂ h₁ h₂ bases since ticket
      tickets observed
    exact policy.rankKey_lt h₁ h₂ bases since ticket tickets observed

/-- The older of two requests, an hour and a quantum apart. -/
theorem aging_keeps_order_default : ∃ r₁ r₂,
    default.rankKey 3 (some 1) (some default.version) (some 0) 3600 = some r₁ ∧
      default.rankKey 3 (some 2) (some default.version) (some 60) 3600 = some r₂ ∧ r₁ < r₂ :=
  (aging_keeps_order default).2 default.version 3 3 1 2 0 60 false false
    (by decide +kernel) (by decide +kernel) (by decide) (by norm_num) (by decide) (by decide) 3600

end Omd.QueuePolicy
