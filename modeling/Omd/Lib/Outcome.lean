import Mathlib.Data.List.Basic
import Mathlib.Tactic.Common

/-!
# Computations that may fail

A critical section either commits with a value or leaves by an exception, so its model
is a value in `Except`.  `bind_eq_ok` peels one step off a computation that returned;
`foldlM_induction` carries an invariant over a loop whose body may fail.
-/

namespace Omd.Lib.Outcome

universe u v w

variable {ε : Type u} {α β : Type v}

theorem bind_eq_ok {x : Except ε α} {f : α → Except ε β} {b : β} :
    (x >>= f) = .ok b ↔ ∃ a, x = .ok a ∧ f a = .ok b := by
  cases x with
  | error e => simp [bind, Except.bind]
  | ok a => simp [bind, Except.bind]

theorem ok_bind (a : α) (f : α → Except ε β) : (.ok a >>= f) = f a := rfl

@[simp] theorem pure_eq_ok {a b : α} : (pure a : Except ε α) = .ok b ↔ a = b := by
  simp [pure, Except.pure]

@[simp] theorem throw_ne_ok {e : ε} {b : α} : (throw e : Except ε α) ≠ .ok b := by
  simp [throw, throwThe, MonadExceptOf.throw]

/-- Every element of a list that was mapped went through. -/
theorem exists_of_mapM_ok {f : α → Except ε β} {xs : List α} {ys : List β}
    (h : xs.mapM f = .ok ys) : ∀ x ∈ xs, ∃ y ∈ ys, f x = .ok y := by
  induction xs generalizing ys with
  | nil => intro x hx; cases hx
  | cons a xs ih =>
      rw [List.mapM_cons, bind_eq_ok] at h
      obtain ⟨y, hy, h⟩ := h
      rw [bind_eq_ok] at h
      obtain ⟨ys', hys, h⟩ := h
      rw [pure_eq_ok] at h
      subst h
      intro x hx
      rcases List.mem_cons.mp hx with rfl | hx
      · exact ⟨y, List.mem_cons_self .., hy⟩
      · obtain ⟨z, hz, hfz⟩ := ih hys x hx
        exact ⟨z, List.mem_cons_of_mem _ hz, hfz⟩

/-- A list none of whose elements fails is mapped. -/
theorem mapM_ok {f : α → Except ε β} {xs : List α} (h : ∀ x ∈ xs, ∃ y, f x = .ok y) :
    ∃ ys, xs.mapM f = .ok ys := by
  induction xs with
  | nil => exact ⟨[], rfl⟩
  | cons x xs ih =>
      obtain ⟨y, hy⟩ := h x (List.mem_cons_self ..)
      obtain ⟨ys, hys⟩ := ih fun z hz => h z (List.mem_cons_of_mem _ hz)
      refine ⟨y :: ys, ?_⟩
      rw [List.mapM_cons, hy, ok_bind, hys, ok_bind]
      rfl

/-- Every result of a list that was mapped has its element. -/
theorem exists_of_mapM_ok_mem {f : α → Except ε β} {xs : List α} {ys : List β}
    (h : xs.mapM f = .ok ys) : ∀ y ∈ ys, ∃ x ∈ xs, f x = .ok y := by
  induction xs generalizing ys with
  | nil =>
      rw [List.mapM_nil, pure_eq_ok] at h
      subst h
      intro y hy
      cases hy
  | cons a xs ih =>
      rw [List.mapM_cons, bind_eq_ok] at h
      obtain ⟨y, hy, h⟩ := h
      rw [bind_eq_ok] at h
      obtain ⟨ys', hys, h⟩ := h
      rw [pure_eq_ok] at h
      subst h
      intro z hz
      rcases List.mem_cons.mp hz with rfl | hz
      · exact ⟨a, List.mem_cons_self .., hy⟩
      · obtain ⟨x, hx, hfx⟩ := ih hys z hz
        exact ⟨x, List.mem_cons_of_mem _ hx, hfx⟩

/-- What every iteration of a loop preserves, the loop preserves. -/
theorem foldlM_induction {f : β → α → Except ε β} {P : β → Prop} {xs : List α} {b b' : β}
    (hb : P b) (hstep : ∀ x ∈ xs, ∀ c c', P c → f c x = .ok c' → P c')
    (h : xs.foldlM f b = .ok b') : P b' := by
  induction xs generalizing b with
  | nil =>
      rw [List.foldlM_nil, pure_eq_ok] at h
      exact h ▸ hb
  | cons x xs ih =>
      rw [List.foldlM_cons, bind_eq_ok] at h
      obtain ⟨c, hc, h⟩ := h
      exact ih (hstep x (List.mem_cons_self ..) _ _ hb hc)
        (fun y hy => hstep y (List.mem_cons_of_mem _ hy)) h

/-- A loop none of whose iterations fails does not fail. -/
theorem foldlM_ok {f : β → α → Except ε β} {P : β → Prop} {xs : List α} {b : β} (hb : P b)
    (hstep : ∀ x ∈ xs, ∀ c, P c → ∃ c', f c x = .ok c' ∧ P c') :
    ∃ b', xs.foldlM f b = .ok b' ∧ P b' := by
  induction xs generalizing b with
  | nil => exact ⟨b, rfl, hb⟩
  | cons x xs ih =>
      obtain ⟨c, hc, hPc⟩ := hstep x (List.mem_cons_self ..) b hb
      obtain ⟨b', hb', hP⟩ := ih hPc fun y hy => hstep y (List.mem_cons_of_mem _ hy)
      refine ⟨b', ?_, hP⟩
      rw [List.foldlM_cons, bind_eq_ok]
      exact ⟨c, hc, hb'⟩

/-- A loop whose iterations cannot fail. -/
theorem foldlM_ok_eq (f : β → α → β) (xs : List α) (b : β) :
    xs.foldlM (fun b x => (.ok (f b x) : Except ε β)) b = .ok (xs.foldl f b) := by
  induction xs generalizing b with
  | nil => rfl
  | cons x xs ih => exact ih (f b x)

end Omd.Lib.Outcome
