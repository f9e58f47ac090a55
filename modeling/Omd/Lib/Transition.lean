import Mathlib.Data.Nat.Init
import Mathlib.Tactic.Common

/-!
# Labelled transitions

A system takes a step under a label, and a condition on the state before the step and its
label says which steps a run may take.  `Run` relates the ends of a run; a `Path` keeps
every state, indexed by time.  An invariant of the steps is an invariant of both, and a
relation that every step respects holds between any two times of a path.
-/

namespace Omd.Lib.Transition

universe u v

variable {S : Type u} {L : Type v} (next : S → L → S → Prop)

/-- A run every step of which meets the condition. -/
inductive Run (P : S → L → Prop) : S → S → Prop
  | refl (s : S) : Run P s s
  | tail {s t u : S} {l : L} (run : Run P s t) (ok : P t l) (step : next t l u) : Run P s u

/-- A sequence of states of which the first `n` steps meet the condition. -/
def Path (P : S → L → Prop) (σ : ℕ → S) (n : ℕ) : Prop :=
  ∀ i < n, ∃ l, P (σ i) l ∧ next (σ i) l (σ (i + 1))

variable {next} {P Q : S → L → Prop}

/-- What the first state has and every step preserves, every state of a run has. -/
theorem Run.invariant {I : S → Prop} (step : ∀ s l t, I s → P s l → next s l t → I t)
    {s t : S} (run : Run next P s t) (init : I s) : I t := by
  induction run with
  | refl => exact init
  | tail _ ok next ih => exact step _ _ _ ih ok next

theorem Run.trans {s t u : S} (h : Run next P s t) (h' : Run next P t u) : Run next P s u := by
  induction h' with
  | refl => exact h
  | tail _ ok step ih => exact .tail ih ok step

/-- A transitive relation that every step respects holds between any two times. -/
theorem Path.relates {R : S → S → Prop} (refl : ∀ s, R s s)
    (trans : ∀ s t u, R s t → R t u → R s u) {σ : ℕ → S} {n : ℕ} (h : Path next P σ n)
    (step : ∀ i < n, ∀ l, P (σ i) l → next (σ i) l (σ (i + 1)) → R (σ i) (σ (i + 1)))
    {i j : ℕ} (hij : i ≤ j) (hj : j ≤ n) : R (σ i) (σ j) := by
  induction j, hij using Nat.le_induction with
  | base => exact refl _
  | succ j hij ih =>
      obtain ⟨l, ok, hnext⟩ := h j (Nat.lt_of_succ_le hj)
      exact trans _ _ _ (ih (Nat.le_of_succ_le hj)) (step j (Nat.lt_of_succ_le hj) l ok hnext)

/-- An invariant from a time on, as long as the steps preserve it. -/
theorem Path.invariant_from {I : S → Prop} {σ : ℕ → S} {n : ℕ} (h : Path next P σ n) {i j : ℕ}
    (hij : i ≤ j) (hj : j ≤ n) (init : I (σ i))
    (step : ∀ k, i ≤ k → k < j → ∀ l, P (σ k) l → next (σ k) l (σ (k + 1)) → I (σ k) →
      I (σ (k + 1))) : I (σ j) := by
  induction j, hij using Nat.le_induction with
  | base => exact init
  | succ j hij ih =>
      obtain ⟨l, ok, hnext⟩ := h j (Nat.lt_of_succ_le hj)
      refine step j hij (Nat.lt_succ_self j) l ok hnext
        (ih (Nat.le_of_succ_le hj) fun k hk hkj => step k hk (Nat.lt_succ_of_lt hkj))

end Omd.Lib.Transition
