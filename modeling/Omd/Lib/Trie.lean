import Mathlib.Data.List.Basic
import Mathlib.Tactic.Common

/-!
# A prefix trie

`Trie κ ρ` stores rows of type `ρ` under key paths in `List κ`.  `comparable q`
collects the rows whose path is an ancestor or a descendant of `q`, which is what a
prefilter by literal prefix asks for: `mem_comparable_of_prefix` and
`mem_comparable_of_extension` say that it misses none.
-/

namespace Omd.Lib

universe u v

mutual

/-- A node: the rows stored at its path, and its children. -/
inductive Trie (κ : Type u) (ρ : Type v)
  | node (rows : List ρ) (children : Children κ ρ)

/-- The children of a node, as an association list. -/
inductive Children (κ : Type u) (ρ : Type v)
  | nil
  | cons (key : κ) (child : Trie κ ρ) (rest : Children κ ρ)

end

variable {κ : Type u} {ρ : Type v}

namespace Trie

/-- The trie with no row. -/
def empty : Trie κ ρ := .node [] .nil

end Trie

namespace Children

variable [DecidableEq κ]

/-- The child under a key. -/
def find (k : κ) : Children κ ρ → Option (Trie κ ρ)
  | .nil => none
  | .cons k' t rest => if k' = k then some t else find k rest

/-- Apply `f` to the child under a key, which is created empty when it is absent. -/
def alter (k : κ) (f : Trie κ ρ → Trie κ ρ) : Children κ ρ → Children κ ρ
  | .nil => .cons k (f .empty) .nil
  | .cons k' t rest => if k' = k then .cons k' (f t) rest else .cons k' t (alter k f rest)

theorem find_alter_self (k : κ) (f : Trie κ ρ → Trie κ ρ) :
    ∀ cs : Children κ ρ, (cs.alter k f).find k = some (f ((cs.find k).getD .empty))
  | .nil => by simp [alter, find]
  | .cons k' t rest => by
      by_cases h : k' = k
      · simp [alter, find, h]
      · simp [alter, find, h, find_alter_self k f rest]

theorem find_alter_ne {k k₁ : κ} (hk : k ≠ k₁) (f : Trie κ ρ → Trie κ ρ) :
    ∀ cs : Children κ ρ, (cs.alter k f).find k₁ = cs.find k₁
  | .nil => by simp [alter, find, hk]
  | .cons k' t rest => by
      by_cases h : k' = k
      · subst h; simp [alter, find, hk]
      · simp [alter, find, h, find_alter_ne hk f rest]

end Children

mutual

/-- All the rows at or below a node. -/
def Trie.descendants : Trie κ ρ → List ρ
  | .node rows children => rows ++ children.descendants

/-- All the rows below the children. -/
def Children.descendants : Children κ ρ → List ρ
  | .nil => []
  | .cons _ t rest => t.descendants ++ rest.descendants

end

namespace Trie

variable [DecidableEq κ]

/-- Store a row under a path. -/
def insert : List κ → ρ → Trie κ ρ → Trie κ ρ
  | [], r, .node rows children => .node (r :: rows) children
  | k :: ks, r, .node rows children => .node rows (children.alter k (insert ks r))

/-- The rows stored under exactly this path. -/
def rowsAt : List κ → Trie κ ρ → List ρ
  | [], .node rows _ => rows
  | k :: ks, .node _ children =>
      match children.find k with
      | none => []
      | some t => rowsAt ks t

/-- The rows stored under a path that is an ancestor or a descendant of the given
one. -/
def comparable : List κ → Trie κ ρ → List ρ
  | [], t => t.descendants
  | k :: ks, .node rows children =>
      rows ++
        match children.find k with
        | none => []
        | some t => comparable ks t

theorem rowsAt_empty (q : List κ) : (empty : Trie κ ρ).rowsAt q = [] := by
  cases q <;> simp [empty, rowsAt, Children.find]

theorem rowsAt_insert_self (p : List κ) (r : ρ) (t : Trie κ ρ) :
    (t.insert p r).rowsAt p = r :: t.rowsAt p := by
  induction p generalizing t with
  | nil => cases t; rfl
  | cons k ks ih =>
      obtain ⟨rows, children⟩ := t
      simp only [insert, rowsAt, Children.find_alter_self, ih]
      cases children.find k with
      | none => simp [rowsAt_empty]
      | some t => simp

theorem rowsAt_insert_ne {p q : List κ} (hpq : p ≠ q) (r : ρ) (t : Trie κ ρ) :
    (t.insert p r).rowsAt q = t.rowsAt q := by
  induction p generalizing q t with
  | nil =>
      obtain ⟨rows, children⟩ := t
      cases q with
      | nil => exact absurd rfl hpq
      | cons k ks => rfl
  | cons k ks ih =>
      obtain ⟨rows, children⟩ := t
      cases q with
      | nil => rfl
      | cons k₁ ks₁ =>
          by_cases hk : k = k₁
          · subst hk
            have hks : ks ≠ ks₁ := fun h => hpq (by rw [h])
            simp only [insert, rowsAt, Children.find_alter_self, ih hks]
            cases children.find k with
            | none => simp [rowsAt_empty]
            | some t => simp
          · simp only [insert, rowsAt, Children.find_alter_ne hk]

/-- An inserted row is stored, and no stored row is lost. -/
theorem mem_rowsAt_insert {p q : List κ} {r r' : ρ} {t : Trie κ ρ} :
    r' ∈ (t.insert p r).rowsAt q ↔ (p = q ∧ r' = r) ∨ r' ∈ t.rowsAt q := by
  by_cases hpq : p = q
  · subst hpq
    simp [rowsAt_insert_self]
  · simp [rowsAt_insert_ne hpq, hpq]

end Trie

theorem Children.mem_descendants_of_find [DecidableEq κ] {k : κ} {t : Trie κ ρ} {r : ρ}
    (hr : r ∈ t.descendants) :
    ∀ {cs : Children κ ρ}, cs.find k = some t → r ∈ cs.descendants
  | .nil, h => by simp [find] at h
  | .cons k' t' rest, h => by
      by_cases hk : k' = k
      · simp only [find, hk, if_true, Option.some.injEq] at h
        subst h
        simp [descendants, hr]
      · simp only [find, hk, if_false] at h
        simp [descendants, mem_descendants_of_find hr h]

namespace Trie

variable [DecidableEq κ]

theorem mem_descendants_of_rowsAt {p : List κ} {r : ρ} {t : Trie κ ρ}
    (h : r ∈ t.rowsAt p) : r ∈ t.descendants := by
  induction p generalizing t with
  | nil =>
      obtain ⟨rows, children⟩ := t
      exact List.mem_append_left _ h
  | cons k ks ih =>
      obtain ⟨rows, children⟩ := t
      cases hf : children.find k with
      | none => simp [rowsAt, hf] at h
      | some t =>
          simp only [rowsAt, hf] at h
          exact List.mem_append_right _ (Children.mem_descendants_of_find (ih h) hf)

/-- A row stored under a prefix of the path is comparable to it. -/
theorem mem_comparable_of_prefix {p q : List κ} {r : ρ} {t : Trie κ ρ}
    (hpq : p <+: q) (h : r ∈ t.rowsAt p) : r ∈ t.comparable q := by
  induction q generalizing p t with
  | nil =>
      obtain rfl := List.prefix_nil.mp hpq
      exact mem_descendants_of_rowsAt h
  | cons k ks ih =>
      obtain ⟨rows, children⟩ := t
      cases p with
      | nil => exact List.mem_append_left _ h
      | cons k' ps =>
          obtain ⟨rfl, hps⟩ := List.cons_prefix_cons.mp hpq
          refine List.mem_append_right _ ?_
          cases hf : children.find k' with
          | none => simp [rowsAt, hf] at h
          | some t =>
              simp only [rowsAt, hf] at h
              exact ih hps h

/-- A row stored under an extension of the path is comparable to it. -/
theorem mem_comparable_of_extension {p q : List κ} {r : ρ} {t : Trie κ ρ}
    (hqp : q <+: p) (h : r ∈ t.rowsAt p) : r ∈ t.comparable q := by
  induction q generalizing p t with
  | nil => exact mem_descendants_of_rowsAt h
  | cons k ks ih =>
      obtain ⟨rows, children⟩ := t
      obtain ⟨u, rfl⟩ := hqp
      refine List.mem_append_right _ ?_
      rw [List.cons_append] at h
      cases hf : children.find k with
      | none => simp [rowsAt, hf] at h
      | some t =>
          simp only [rowsAt, hf] at h
          exact ih (List.prefix_append ks u) h

end Trie

end Omd.Lib
