import Mathlib.Data.List.Nodup
import Mathlib.Data.List.Perm.Basic
import Mathlib.Tactic.Common

/-!
# Tables keyed by a column

A table is a list of rows, and a column `key` names them.  `get` finds a row by its key
and `modify` rewrites the rows under a key.  The facts below are those a development
uses instead of unfolding either: what `modify` does to membership and to lookup, and
that it keeps the keys, so that a table whose keys are distinct stays so.
-/

namespace Omd.Lib.Table

universe u v

variable {ρ : Type u} {κ : Type v}

/-- Two rows with one key are one row. -/
def Distinct (key : ρ → κ) (t : List ρ) : Prop := (t.map key).Nodup

section Distinct

variable {key : ρ → κ}

/-- In a table of distinct keys a row is known by its key. -/
theorem Distinct.eq {t : List ρ} (h : Distinct key t) {r r' : ρ} (hr : r ∈ t) (hr' : r' ∈ t)
    (hk : key r = key r') : r = r' :=
  List.inj_on_of_nodup_map h hr hr' hk

theorem Distinct.map {t : List ρ} (h : Distinct key t) {f : ρ → ρ}
    (hf : ∀ r, key (f r) = key r) : Distinct key (t.map f) := by
  rw [Distinct, List.map_map, show key ∘ f = key from funext hf]
  exact h

theorem Distinct.append {t : List ρ} (h : Distinct key t) {r : ρ}
    (hr : ∀ r' ∈ t, key r' ≠ key r) : Distinct key (t ++ [r]) := by
  rw [Distinct, List.map_append, List.map_singleton]
  refine List.Nodup.append h (List.nodup_singleton _) ?_
  intro k hk hk'
  rw [List.mem_singleton] at hk'
  obtain ⟨r', hr', rfl⟩ := List.mem_map.mp hk
  exact hr r' hr' hk'

theorem Distinct.filter {t : List ρ} (h : Distinct key t) (p : ρ → Bool) :
    Distinct key (t.filter p) :=
  List.Nodup.sublist (List.Sublist.map key List.filter_sublist) h

end Distinct

variable [DecidableEq κ] (key : ρ → κ)

/-- The first row under a key. -/
def get (k : κ) (t : List ρ) : Option ρ := t.find? fun r => key r = k

/-- Rewrite the rows under a key. -/
def modify (k : κ) (f : ρ → ρ) (t : List ρ) : List ρ :=
  t.map fun r => if key r = k then f r else r

variable {key}

theorem mem_of_get {k : κ} {t : List ρ} {r : ρ} (h : get key k t = some r) : r ∈ t :=
  List.mem_of_find?_eq_some h

theorem key_of_get {k : κ} {t : List ρ} {r : ρ} (h : get key k t = some r) : key r = k := by
  simpa using List.find?_some h

/-- There is no row with the key. -/
theorem get_eq_none {k : κ} {t : List ρ} : get key k t = none ↔ ∀ r ∈ t, key r ≠ k := by
  simp [get]

theorem Distinct.get_of_mem {t : List ρ} (h : Distinct key t) {r : ρ} (hr : r ∈ t) :
    get key (key r) t = some r := by
  cases hg : get key (key r) t with
  | none => exact absurd rfl (get_eq_none.mp hg r hr)
  | some r' => rw [h.eq (mem_of_get hg) hr (key_of_get hg)]

/-- The row with the key. -/
theorem Distinct.get_eq_some {t : List ρ} (h : Distinct key t) {k : κ} {r : ρ} :
    get key k t = some r ↔ r ∈ t ∧ key r = k := by
  constructor
  · exact fun hg => ⟨mem_of_get hg, key_of_get hg⟩
  · rintro ⟨hr, rfl⟩
    exact h.get_of_mem hr

/-- The rows after those with a key were changed. -/
theorem mem_modify {k : κ} {f : ρ → ρ} {t : List ρ} {r : ρ} :
    r ∈ modify key k f t ↔ (r ∈ t ∧ key r ≠ k) ∨ ∃ r₀ ∈ t, key r₀ = k ∧ r = f r₀ := by
  simp only [modify, List.mem_map]
  constructor
  · rintro ⟨r₀, hr₀, rfl⟩
    by_cases hk : key r₀ = k
    · rw [if_pos hk]
      exact Or.inr ⟨r₀, hr₀, hk, rfl⟩
    · rw [if_neg hk]
      exact Or.inl ⟨hr₀, hk⟩
  · rintro (⟨hr, hk⟩ | ⟨r₀, hr₀, hk, rfl⟩)
    · exact ⟨r, hr, if_neg hk⟩
    · exact ⟨r₀, hr₀, if_pos hk⟩

theorem map_key_modify {k : κ} {f : ρ → ρ} {t : List ρ}
    (hf : ∀ r ∈ t, key r = k → key (f r) = k) : (modify key k f t).map key = t.map key := by
  rw [modify, List.map_map]
  refine List.map_congr_left fun r hr => ?_
  by_cases hk : key r = k
  · simp [hk, hf r hr hk]
  · simp [hk]

theorem Distinct.modify {t : List ρ} (h : Distinct key t) {k : κ} {f : ρ → ρ}
    (hf : ∀ r ∈ t, key r = k → key (f r) = k) : Distinct key (modify key k f t) := by
  rw [Distinct, map_key_modify hf]
  exact h

/-- The lookup after such a change. -/
theorem get_modify {k k' : κ} {f : ρ → ρ} (hf : ∀ r, key r = k → key (f r) = k) (t : List ρ) :
    get key k' (modify key k f t) =
      (get key k' t).map fun r => if k' = k then f r else r := by
  induction t with
  | nil => rfl
  | cons r t ih =>
      rw [modify, List.map_cons, get, List.find?_cons, get, List.find?_cons]
      by_cases hk : key r = k
      · rw [if_pos hk, hf r hk]
        by_cases hk' : k = k'
        · simp [hk, hk']
        · simp only [hk, hk', decide_false]
          exact ih
      · rw [if_neg hk]
        by_cases hk' : key r = k'
        · simp [hk', show k' ≠ k from fun e => hk (hk'.trans e)]
        · simp only [hk', decide_false]
          exact ih

/-- A row that is rewritten by the rows of a list with its key. -/
private theorem foldl_row_of_ne {g : ρ → ρ → ρ} {ws : List ρ} {r : ρ}
    (h : ∀ w ∈ ws, key w ≠ key r) :
    ws.foldl (fun r w => if key r = key w then g w r else r) r = r := by
  induction ws with
  | nil => rfl
  | cons w ws ih =>
      rw [List.foldl_cons, if_neg (h w (List.mem_cons_self ..)).symm]
      exact ih fun w' hw' => h w' (List.mem_cons_of_mem _ hw')

private theorem Distinct.foldl_row {g : ρ → ρ → ρ} (hg : ∀ w r, key (g w r) = key r)
    {ws : List ρ} (h : Distinct key ws) {r : ρ} (hr : r ∈ ws) :
    ws.foldl (fun r w => if key r = key w then g w r else r) r = g r r := by
  induction ws with
  | nil => cases hr
  | cons w ws ih =>
      rw [Distinct, List.map_cons, List.nodup_cons] at h
      rw [List.foldl_cons]
      rcases List.mem_cons.mp hr with rfl | hr
      · rw [if_pos rfl]
        refine foldl_row_of_ne fun w hw same => h.1 ?_
        rw [← (same.trans (hg r r))]
        exact List.mem_map_of_mem hw
      · have apart : key r ≠ key w := fun same => h.1 (same ▸ List.mem_map_of_mem hr)
        rw [if_neg apart]
        exact ih h.2 hr

private theorem foldl_modify {g : ρ → ρ → ρ} (ws t : List ρ) :
    ws.foldl (fun t w => modify key (key w) (g w) t) t =
      t.map fun r => ws.foldl (fun r w => if key r = key w then g w r else r) r := by
  induction ws generalizing t with
  | nil => exact (List.map_id t).symm
  | cons w ws ih =>
      rw [List.foldl_cons, ih, modify, List.map_map]
      rfl

/-- To rewrite the rows that pass a test one after the other is to rewrite each. -/
theorem Distinct.foldl_modify_filter {t : List ρ} (h : Distinct key t) (p : ρ → Bool)
    {g : ρ → ρ → ρ} (hg : ∀ w r, key (g w r) = key r) :
    (t.filter p).foldl (fun t w => Table.modify key (key w) (g w) t) t =
      t.map fun r => if p r then g r r else r := by
  rw [foldl_modify]
  refine List.map_congr_left fun r hr => ?_
  cases hp : p r with
  | true =>
      rw [if_pos rfl]
      exact (h.filter p).foldl_row hg (List.mem_filter.mpr ⟨hr, hp⟩)
  | false =>
      rw [if_neg Bool.false_ne_true]
      refine foldl_row_of_ne fun w hw same => ?_
      obtain ⟨hw, selected⟩ := List.mem_filter.mp hw
      rw [h.eq hw hr same, hp] at selected
      cases selected

theorem get_append {k : κ} {t : List ρ} {r : ρ} :
    get key k (t ++ [r]) = (get key k t).or (if key r = k then some r else none) := by
  rw [get, List.find?_append, List.find?_singleton]
  by_cases hk : key r = k <;> simp [get, hk]

/-! ## The latest row -/

/-- The later of two rows, the second among equals. -/
def later (gen : ρ → ℕ) (best : Option ρ) (r : ρ) : Option ρ :=
  match best with
  | none => some r
  | some b => if gen b ≤ gen r then some r else some b

theorem later_spec (gen : ρ → ℕ) (best : Option ρ) (r : ρ) :
    ∃ b, later gen best r = some b ∧ (b = r ∨ best = some b) ∧ gen r ≤ gen b ∧
      ∀ b₀, best = some b₀ → gen b₀ ≤ gen b := by
  cases best with
  | none => exact ⟨r, rfl, Or.inl rfl, Nat.le_refl _, by simp⟩
  | some b =>
      by_cases h : gen b ≤ gen r
      · refine ⟨r, if_pos h, Or.inl rfl, Nat.le_refl _, ?_⟩
        rintro b₀ ⟨⟩
        exact h
      · refine ⟨b, if_neg h, Or.inr rfl, Nat.le_of_not_le h, ?_⟩
        rintro b₀ ⟨⟩
        exact Nat.le_refl _

/-- The fold ends in the latest of the row it started with and those it saw. -/
theorem foldl_later (gen : ρ → ℕ) {t : List ρ} {best : Option ρ} {b : ρ}
    (h : t.foldl (later gen) best = some b) :
    (b ∈ t ∨ best = some b) ∧ (∀ r ∈ t, gen r ≤ gen b) ∧ ∀ r, best = some r → gen r ≤ gen b := by
  induction t generalizing best with
  | nil =>
      refine ⟨Or.inr h, by simp, fun r hr => ?_⟩
      cases hr.symm.trans h
      exact Nat.le_refl _
  | cons r t ih =>
      obtain ⟨b₁, pick, source, above, top⟩ := later_spec gen best r
      rw [List.foldl_cons, pick] at h
      obtain ⟨mem, all, start⟩ := ih h
      have above₁ : gen b₁ ≤ gen b := start b₁ rfl
      refine ⟨?_, ?_, fun r' hr' => Nat.le_trans (top r' hr') above₁⟩
      · rcases mem with mem | same
        · exact Or.inl (List.mem_cons_of_mem _ mem)
        · cases same
          rcases source with rfl | source
          · exact Or.inl (List.mem_cons_self ..)
          · exact Or.inr source
      · intro r' hr'
        rcases List.mem_cons.mp hr' with rfl | hr'
        · exact Nat.le_trans above above₁
        · exact all r' hr'

theorem foldl_later_eq_none (gen : ρ → ℕ) {t : List ρ} {best : Option ρ}
    (h : t.foldl (later gen) best = none) : t = [] := by
  induction t generalizing best with
  | nil => rfl
  | cons r t ih =>
      obtain ⟨b, pick, -⟩ := later_spec gen best r
      rw [List.foldl_cons, pick] at h
      cases ih h
      cases h

end Omd.Lib.Table
