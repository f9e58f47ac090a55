import Mathlib.Data.Set.Insert
import Mathlib.Logic.Relation

/-!
# One pass over a queue

Some items are held and some are queued.  A queued item is blocked by a held item that clashes with
it, and by a queued one that clashes with it and goes before it.  A pass visits items one by one, in
any order, and grants an eligible one that nothing blocks.

A blocker that is granted goes on to block, as a holder.  So one pass leaves no eligible item free,
and a second pass grants nothing.  Nobody comes to wait for a holder for whom he did not wait in
the queue, so that a pass closes no cycle of waits.

* `Pass.settled` — nothing eligible is free after a pass.
* `Pass.waits` — the waits after a pass are waits from before it.
* `Pass.again` — a pass over what is settled changes nothing.
-/

namespace Omd.Lib.Queue

universe u

variable {α : Type u}

/-- What is held and what is queued. -/
@[ext]
structure Snapshot (α : Type u) where
  held : Set α
  queue : Set α

variable (clash before : α → α → Prop) (eligible : α → Prop)

/-- The item `b` stands in the way of `a`. -/
def Blocks (q : Snapshot α) (b a : α) : Prop :=
  b ≠ a ∧ clash a b ∧ (b ∈ q.held ∨ b ∈ q.queue ∧ before b a)

/-- Nothing stands in the way of the item. -/
def Free (q : Snapshot α) (a : α) : Prop := ∀ b, ¬ Blocks clash before q b a

/-- The queued item `a` waits for `b`. -/
def Waits (q : Snapshot α) (a b : α) : Prop := a ∈ q.queue ∧ Blocks clash before q b a

/-- The snapshot after a grant. -/
def Snapshot.grant (q : Snapshot α) (a : α) : Snapshot α := ⟨insert a q.held, q.queue \ {a}⟩

/-- A pass over a list of items. -/
inductive Pass : List α → Snapshot α → Snapshot α → Prop
  | nil (q : Snapshot α) : Pass [] q q
  | grant {a : α} {l : List α} {q q' : Snapshot α} (ready : eligible a) (queued : a ∈ q.queue)
      (free : Free clash before q a) (rest : Pass l (q.grant a) q') : Pass (a :: l) q q'
  | skip {a : α} {l : List α} {q q' : Snapshot α}
      (stays : eligible a → a ∈ q.queue → ¬ Free clash before q a) (rest : Pass l q q') :
      Pass (a :: l) q q'

variable {clash before eligible} {l : List α} {q q' : Snapshot α}

/-- A pass only grants. -/
theorem Pass.mono (h : Pass clash before eligible l q q') :
    q.held ⊆ q'.held ∧ q'.queue ⊆ q.queue ∧ ∀ a ∈ q.queue, a ∈ q'.queue ∨ a ∈ q'.held := by
  induction h with
  | nil q => exact ⟨fun _ ha => ha, fun _ ha => ha, fun _ ha => Or.inl ha⟩
  | @grant x _ q _ _ _ _ _ ih =>
      obtain ⟨held, queue, left⟩ := ih
      refine ⟨fun a ha => held (Or.inr ha), fun a ha => (queue ha).1, fun a ha => ?_⟩
      by_cases same : a = x
      · exact Or.inr (held (Or.inl same))
      · exact left a ⟨ha, same⟩
  | skip _ _ ih => exact ih

/-- What stands in the way goes on to, in the queue or as a holder. -/
theorem Pass.blocks (h : Pass clash before eligible l q q') {a b : α}
    (blocks : Blocks clash before q b a) : Blocks clash before q' b a := by
  obtain ⟨held, -, left⟩ := h.mono
  obtain ⟨other, clashes, there⟩ := blocks
  refine ⟨other, clashes, ?_⟩
  rcases there with there | ⟨there, first⟩
  · exact Or.inl (held there)
  · rcases left b there with stays | granted
    · exact Or.inr ⟨stays, first⟩
    · exact Or.inl granted

/-- After one pass no eligible item that it visited is free. -/
theorem Pass.settled (h : Pass clash before eligible l q q') :
    ∀ a ∈ l, eligible a → a ∈ q'.queue → ¬ Free clash before q' a := by
  induction h with
  | nil => simp
  | @grant x _ _ _ _ _ _ rest ih =>
      intro a ha ready queued
      rcases List.mem_cons.mp ha with rfl | ha
      · exact absurd rfl (rest.mono.2.1 queued).2
      · exact ih a ha ready queued
  | skip stays rest ih =>
      intro a ha ready queued
      rcases List.mem_cons.mp ha with rfl | ha
      · intro free
        refine stays ready (rest.mono.2.1 queued) fun b blocks => ?_
        exact free b (rest.blocks blocks)
      · exact ih a ha ready queued

/-- Nobody waits after a pass who did not wait for the same one before it. -/
theorem Pass.waits (h : Pass clash before eligible l q q') {ranked : α → Prop}
    (symm : ∀ a b, clash a b → clash b a)
    (total : ∀ a b, ranked a → eligible b → a ∈ q.queue → b ∈ q.queue → clash a b → a ≠ b →
      before a b ∨ before b a) {a b : α} (asks : ranked a)
    (waits : Waits clash before q' a b) : Waits clash before q a b := by
  induction h with
  | nil => exact waits
  | @grant x _ q _ ready queued free rest ih =>
      have before_ : Waits clash before (q.grant x) a b :=
        ih (fun a b ha hb qa qb => total a b ha hb qa.1 qb.1) waits
      obtain ⟨⟨queued', other⟩, ne, clashes, there⟩ := before_
      refine ⟨queued', ne, clashes, ?_⟩
      rcases there with (rfl | there) | ⟨there, first⟩
      · -- the one who waits did not go before the holder, so he waited for it in the queue
        refine Or.inr ⟨queued, ?_⟩
        rcases total a b asks ready queued' queued clashes (Ne.symm ne) with first | first
        · exact absurd ⟨Ne.symm ne, symm _ _ clashes, Or.inr ⟨queued', first⟩⟩ (free a)
        · exact first
      · exact Or.inl there
      · exact Or.inr ⟨there.1, first⟩
  | skip _ _ ih => exact ih total waits

/-- A pass grants nothing where nothing eligible is free. -/
theorem Pass.again (h : Pass clash before eligible l q q')
    (settled : ∀ a ∈ l, eligible a → a ∈ q.queue → ¬ Free clash before q a) : q' = q := by
  induction h with
  | nil => rfl
  | @grant x _ _ _ ready queued free _ _ =>
      exact absurd free (settled x (List.mem_cons_self ..) ready queued)
  | skip _ _ ih => exact ih fun a ha => settled a (List.mem_cons_of_mem _ ha)

end Omd.Lib.Queue
