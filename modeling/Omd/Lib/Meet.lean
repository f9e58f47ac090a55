import Omd.Lib.Memo
import Omd.Lib.Wildcard

/-!
# The meet of two patterns

What `starMeet` decides is exact where every token that is not a star accepts a symbol and
two such tokens meet only over a symbol that both accept: there is then a word of both
patterns.

`starMeet` walks lists.  A program walks two arrays by their indices and keeps the answers
of the pairs of indices it has been at: `meetFrom` is that recursion, `meetMemo` the same
with its cache.  Every call moves one of the two indices, so both end, and both compute the
meet of what is left of the two patterns.
-/

namespace Omd.Lib.Wildcard

universe u v

variable {π : Type u} {σ : Type v} {star : π → Bool}

/-! ## Words of both patterns -/

section Exact

variable {acc : π → σ → Bool} {meet : π → π → Bool} {P : σ → Prop}

/-- A pattern meets itself, when its tokens do. -/
theorem starMeet_self {A : List π} (h : ∀ a ∈ A, star a = false → meet a a = true) :
    starMeet star meet A A = true := by
  induction A with
  | nil => rfl
  | cons a A ih =>
      have rest := ih fun b hb => h b (List.mem_cons_of_mem _ hb)
      cases ha : star a with
      | true => rw [starMeet_star ha, starMeet_star_right ha, rest, Bool.true_or, Bool.true_or]
      | false =>
          rw [starMeet_token_token ha ha, h a List.mem_cons_self ha, rest]
          rfl

/-- A pattern of stars accepts the empty word. -/
theorem accepts_nil {A : List π} (h : A.all star = true) : Accepts star acc A ([] : List σ) := by
  induction A with
  | nil => exact .nil
  | cons a A ih =>
      rw [List.all_cons, Bool.and_eq_true] at h
      exact .skip h.1 (ih h.2)

/-- Two patterns that meet have a word in common. -/
theorem exists_word_of_starMeet {A B : List π}
    (some : ∀ a, a ∈ A ∨ a ∈ B → star a = false → ∃ s, P s ∧ acc a s = true)
    (both : ∀ a ∈ A, ∀ b ∈ B, star a = false → star b = false → meet a b = true →
      ∃ s, P s ∧ acc a s = true ∧ acc b s = true)
    (h : starMeet star meet A B = true) :
    ∃ ss : List σ, (∀ s ∈ ss, P s) ∧ Accepts star acc A ss ∧ Accepts star acc B ss := by
  -- the two patterns shrink in turn, as `starMeet` reads them
  induction A generalizing B with
  | nil =>
      rw [starMeet_nil] at h
      exact ⟨[], by simp, .nil, accepts_nil h⟩
  | cons a A ihA =>
      have tailA {B : List π} (hB : ∀ b ∈ B, star b = false → ∃ s, P s ∧ acc b s = true)
          (both : ∀ x ∈ A, ∀ b ∈ B, star x = false → star b = false → meet x b = true →
            ∃ s, P s ∧ acc x s = true ∧ acc b s = true)
          (h : starMeet star meet A B = true) :
          ∃ ss : List σ, (∀ s ∈ ss, P s) ∧ Accepts star acc A ss ∧ Accepts star acc B ss := by
        refine ihA (fun x hx => ?_) both h
        rcases hx with hx | hx
        · exact some x (Or.inl (List.mem_cons_of_mem _ hx))
        · exact hB x hx
      induction B with
      | nil =>
          rw [starMeet_nil_right] at h
          exact ⟨[], by simp, accepts_nil h, .nil⟩
      | cons b B ihB =>
          have someB : ∀ x ∈ b :: B, star x = false → ∃ s, P s ∧ acc x s = true :=
            fun x hx => some x (Or.inr hx)
          have bothA : ∀ x ∈ A, ∀ y ∈ b :: B, star x = false → star y = false →
              meet x y = true → ∃ s, P s ∧ acc x s = true ∧ acc y s = true :=
            fun x hx => both x (List.mem_cons_of_mem _ hx)
          have restB : starMeet star meet (a :: A) B = true → ∃ ss : List σ,
              (∀ s ∈ ss, P s) ∧ Accepts star acc (a :: A) ss ∧ Accepts star acc B ss := by
            refine ihB (fun x hx => some x (hx.imp_right (List.mem_cons_of_mem _))) ?_
            exact fun x hx y hy => both x hx y (List.mem_cons_of_mem _ hy)
          cases ha : star a with
          | true =>
              rw [starMeet_star ha, Bool.or_eq_true] at h
              rcases h with h | h
              · obtain ⟨ss, all, hA, hB⟩ := tailA someB bothA h
                exact ⟨ss, all, .skip ha hA, hB⟩
              · obtain ⟨ss, all, hA, hB⟩ := restB h
                cases hb : star b with
                | true => exact ⟨ss, all, hA, .skip hb hB⟩
                | false =>
                    obtain ⟨s, hs, accepted⟩ := someB b List.mem_cons_self hb
                    exact ⟨s :: ss, List.forall_mem_cons.mpr ⟨hs, all⟩, .absorb ha hA,
                      .token hb accepted hB⟩
          | false =>
              cases hb : star b with
              | true =>
                  rw [starMeet_token_star ha hb, Bool.or_eq_true] at h
                  rcases h with h | h
                  · obtain ⟨ss, all, hA, hB⟩ := restB h
                    exact ⟨ss, all, hA, .skip hb hB⟩
                  · obtain ⟨ss, all, hA, hB⟩ := tailA someB bothA h
                    obtain ⟨s, hs, accepted⟩ := some a (Or.inl List.mem_cons_self) ha
                    exact ⟨s :: ss, List.forall_mem_cons.mpr ⟨hs, all⟩, .token ha accepted hA,
                      .absorb hb hB⟩
              | false =>
                  rw [starMeet_token_token ha hb, Bool.and_eq_true] at h
                  obtain ⟨ss, all, hA, hB⟩ := tailA
                    (fun x hx => someB x (List.mem_cons_of_mem _ hx))
                    (fun x hx y hy => bothA x hx y (List.mem_cons_of_mem _ hy)) h.2
                  obtain ⟨s, hs, left, right⟩ :=
                    both a List.mem_cons_self b List.mem_cons_self ha hb h.1
                  exact ⟨s :: ss, List.forall_mem_cons.mpr ⟨hs, all⟩, .token ha left hA,
                    .token hb right hB⟩

end Exact

/-! ## The recursion by indices -/

/-- Whether what is left of the two patterns meets. -/
def meetFrom (star : π → Bool) (meet : π → π → Bool) (A B : List π) (i j : ℕ) : Bool :=
  if i = A.length ∧ j = B.length then true
  else if hi : i < A.length ∧ A[i]?.any star then
    meetFrom star meet A B (i + 1) j ||
      if hj : j < B.length then meetFrom star meet A B i (j + 1) else false
  else if hj : j < B.length ∧ B[j]?.any star then
    meetFrom star meet A B i (j + 1) ||
      if hi : i < A.length then meetFrom star meet A B (i + 1) j else false
  else if h : i < A.length ∧ j < B.length then
    meet A[i] B[j] && meetFrom star meet A B (i + 1) (j + 1)
  else false
termination_by (A.length - i) + (B.length - j)

/-- The same with a cache. -/
def meetMemo (star : π → Bool) (meet : π → π → Bool) (A B : List π) (i j : ℕ) :
    Memo (ℕ × ℕ) Bool Bool :=
  Memo.cached (i, j)
    (if i = A.length ∧ j = B.length then Memo.pure true
    else if hi : i < A.length ∧ A[i]?.any star then
      (meetMemo star meet A B (i + 1) j).or
        (if hj : j < B.length then meetMemo star meet A B i (j + 1) else Memo.pure false)
    else if hj : j < B.length ∧ B[j]?.any star then
      (meetMemo star meet A B i (j + 1)).or
        (if hi : i < A.length then meetMemo star meet A B (i + 1) j else Memo.pure false)
    else if h : i < A.length ∧ j < B.length then
      (meetMemo star meet A B (i + 1) (j + 1)).guard (meet A[i] B[j])
    else Memo.pure false)
termination_by (A.length - i) + (B.length - j)

section Index

variable {meet : π → π → Bool} {A B : List π} {i j : ℕ}

/-- The recursion computes the meet of what is left. -/
theorem meetFrom_eq (hi : i ≤ A.length) (hj : j ≤ B.length) :
    meetFrom star meet A B i j = starMeet star meet (A.drop i) (B.drop j) := by
  fun_induction meetFrom star meet A B i j with
  | case1 i j h =>
      rw [h.1, h.2, List.drop_length, List.drop_length]
      rfl
  | case2 i j h found restA restB =>
      -- a star of the first pattern is read
      obtain ⟨lt, found⟩ := found
      have ha : star A[i] = true := by simpa [List.getElem?_eq_getElem lt] using found
      rw [List.drop_eq_getElem_cons lt, starMeet_star ha, restA lt hj]
      by_cases ltB : j < B.length
      · rw [dif_pos ltB, restB ltB hi ltB, List.drop_eq_getElem_cons lt,
          List.drop_eq_getElem_cons ltB]
      · rw [dif_neg ltB, List.drop_eq_nil_of_le (Nat.le_of_not_lt ltB)]
  | case3 i j h noneA found restB restA =>
      -- a star of the second pattern is read
      obtain ⟨lt, found⟩ := found
      have hb : star B[j] = true := by simpa [List.getElem?_eq_getElem lt] using found
      rw [List.drop_eq_getElem_cons lt, starMeet_star_right hb, restB hi lt]
      by_cases ltA : i < A.length
      · rw [dif_pos ltA, restA ltA ltA hj, List.drop_eq_getElem_cons ltA,
          List.drop_eq_getElem_cons lt]
      · rw [dif_neg ltA, List.drop_eq_nil_of_le (Nat.le_of_not_lt ltA)]
  | case4 i j h noneA noneB lt rest =>
      obtain ⟨ltA, ltB⟩ := lt
      have ha : star A[i] = false := by
        simpa [ltA, List.getElem?_eq_getElem ltA] using noneA
      have hb : star B[j] = false := by
        simpa [ltB, List.getElem?_eq_getElem ltB] using noneB
      rw [List.drop_eq_getElem_cons ltA, List.drop_eq_getElem_cons ltB,
        starMeet_token_token ha hb, rest ltA ltB]
  | case5 i j h noneA noneB short =>
      -- one pattern has ended, and the other begins with a token
      rcases Nat.lt_or_ge i A.length with ltA | geA
      · have ha : star A[i] = false := by
          simpa [ltA, List.getElem?_eq_getElem ltA] using noneA
        have geB : B.length ≤ j := Nat.le_of_not_lt fun ltB => short ⟨ltA, ltB⟩
        rw [List.drop_eq_getElem_cons ltA, List.drop_eq_nil_of_le geB, starMeet_token_nil ha]
      · have ltB : j < B.length := by
          have : ¬ j = B.length := fun same => h ⟨Nat.le_antisymm hi geA, same⟩
          omega
        have hb : star B[j] = false := by
          simpa [ltB, List.getElem?_eq_getElem ltB] using noneB
        rw [List.drop_eq_getElem_cons ltB, List.drop_eq_nil_of_le geA, starMeet_nil,
          List.all_cons, hb]
        rfl

/-- The cache does not change the answer. -/
theorem meetMemo_computes (A B : List π) (i j : ℕ) :
    Memo.Computes (fun p => meetFrom star meet A B p.1 p.2) (meetMemo star meet A B i j)
      (meetFrom star meet A B i j) := by
  rw [meetMemo]
  refine Memo.Computes.cached (f := fun p => meetFrom star meet A B p.1 p.2) (k := (i, j)) ?_
  dsimp only
  rw [meetFrom]
  split_ifs with ends starA ltB starB ltA lt
  · exact Memo.computes_pure true
  · exact (meetMemo_computes A B (i + 1) j).or (meetMemo_computes A B i (j + 1))
  · exact (meetMemo_computes A B (i + 1) j).or (Memo.computes_pure false)
  · exact (meetMemo_computes A B i (j + 1)).or (meetMemo_computes A B (i + 1) j)
  · exact (meetMemo_computes A B i (j + 1)).or (Memo.computes_pure false)
  · exact Memo.Computes.guard fun _ => meetMemo_computes A B (i + 1) (j + 1)
  · exact Memo.computes_pure false
termination_by (A.length - i) + (B.length - j)

end Index

end Omd.Lib.Wildcard
