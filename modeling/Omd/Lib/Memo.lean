import Mathlib.Tactic.Common

/-!
# Memoised computations

A computation with a cache takes the answers that were given so far and returns the value
with the answers that are known after it.  A call that was answered before is answered from
the cache; any other runs, and its answer is kept.

The cache is only ever right or wrong about a function.  `Computes` says that a computation
gives its value whatever right cache it starts from, and leaves a right cache, and there is
one rule for each way to build a computation.
-/

namespace Omd.Lib

universe u v w

variable {κ : Type u} {ν : Type v} {α : Type w}

/-- The calls that were answered, each with its answer. -/
abbrev Cache (κ : Type u) (ν : Type v) := List (κ × ν)

/-- A computation that reads and fills a cache. -/
def Memo (κ : Type u) (ν : Type v) (α : Type w) := Cache κ ν → α × Cache κ ν

namespace Memo

/-- A value that is known. -/
def pure (v : α) : Memo κ ν α := fun c => (v, c)

/-- The second computation runs when the first one fails. -/
def or (m m' : Memo κ ν Bool) : Memo κ ν Bool := fun c =>
  let r := m c
  if r.1 then r else m' r.2

/-- The second computation runs when the test succeeds. -/
def guard (test : Bool) (m : Memo κ ν Bool) : Memo κ ν Bool :=
  if test then m else pure false

/-- A call of a memoised function. -/
def cached [BEq κ] (k : κ) (m : Memo κ ν ν) : Memo κ ν ν := fun c =>
  match c.lookup k with
  | some v => (v, c)
  | none =>
      let r := m c
      (r.1, (k, r.1) :: r.2)

/-- The value of a computation that starts with an empty cache. -/
def run (m : Memo κ ν α) : α := (m []).1

/-- Every answer is the one of the function. -/
def Right (f : κ → ν) (c : Cache κ ν) : Prop := ∀ p ∈ c, p.2 = f p.1

/-- From a cache that is right about the function the computation gives the value, and it
leaves such a cache. -/
def Computes (f : κ → ν) (m : Memo κ ν α) (v : α) : Prop :=
  ∀ c, Right f c → (m c).1 = v ∧ Right f (m c).2

variable {f : κ → ν}

theorem Computes.run {m : Memo κ ν α} {v : α} (h : Computes f m v) : m.run = v :=
  (h [] (by simp [Right])).1

theorem computes_pure (v : α) : Computes f (pure v) v := fun _ right => ⟨rfl, right⟩

theorem Computes.or {m m' : Memo κ ν Bool} {v v' : Bool} (h : Computes f m v)
    (h' : Computes f m' v') : Computes f (m.or m') (v || v') := by
  intro c right
  obtain ⟨value, right₁⟩ := h c right
  rw [Memo.or]
  cases v with
  | true =>
      rw [if_pos value]
      exact ⟨value, right₁⟩
  | false =>
      rw [if_neg (by simp [value])]
      exact h' (m c).2 right₁

theorem Computes.guard {m : Memo κ ν Bool} {v : Bool} {test : Bool}
    (h : test = true → Computes f m v) : Computes f (m.guard test) (test && v) := by
  rw [Memo.guard]
  cases test with
  | true => exact h rfl
  | false => exact computes_pure false

theorem Right.lookup [BEq κ] [LawfulBEq κ] {c : Cache κ ν} (right : Right f c) {k : κ} {v : ν}
    (h : c.lookup k = some v) : v = f k := by
  induction c with
  | nil => cases h
  | cons p c ih =>
      rw [List.lookup_cons] at h
      split at h
      · rename_i found
        cases h
        rw [eq_of_beq found]
        exact right p List.mem_cons_self
      · exact ih (fun q hq => right q (List.mem_cons_of_mem _ hq)) h

/-- A call gives the value of the function, when its body does. -/
theorem Computes.cached [BEq κ] [LawfulBEq κ] {k : κ} {m : Memo κ ν ν} (h : Computes f m (f k)) :
    Computes f (m.cached k) (f k) := by
  intro c right
  rw [Memo.cached]
  cases hit : c.lookup k with
  | some v => exact ⟨right.lookup hit, right⟩
  | none =>
      obtain ⟨value, right₁⟩ := h c right
      refine ⟨value, fun p hp => ?_⟩
      rcases List.mem_cons.mp hp with rfl | hp
      · exact value
      · exact right₁ p hp

end Memo

end Omd.Lib
