import Mathlib.Data.List.Chain
import Mathlib.Data.List.Nodup
import Mathlib.Data.List.Dedup
import Mathlib.Data.List.Perm.Subperm
import Mathlib.Logic.Relation
import Omd.Lib.Outcome

/-!
# Cycles in a finite directed graph

A graph is a list of edges.  `findCycle` colours the nodes depth first and answers with
a closed walk when it meets a node on its own stack; `onCycle` follows the simple paths
out of one node and looks for the way back.

* `findCycle_none` — when the search finds nothing, the graph is acyclic.
* `findCycle_some` — what the search finds is a closed walk along edges.
* `onCycle_iff` — the second search decides whether the node lies on a cycle.

Both searches carry a fuel that the number of nodes bounds.  The first proof reads the
list of finished nodes as a topological order: a node is finished after its successors.
-/

namespace Omd.Lib.Digraph

universe u

variable {α : Type u}

/-- The relation of a list of edges. -/
def Edge (edges : List (α × α)) (a b : α) : Prop := (a, b) ∈ edges

/-- No node reaches itself. -/
def Acyclic (edges : List (α × α)) : Prop := ∀ a, ¬ Relation.TransGen (Edge edges) a a

/-- Fewer edges make no cycle. -/
theorem Acyclic.mono {edges edges' : List (α × α)} (h : Acyclic edges)
    (hsub : ∀ e ∈ edges', e ∈ edges) : Acyclic edges' := by
  intro a ha
  exact h a (Relation.TransGen.mono (fun x y hxy => hsub _ hxy) a a ha)

theorem acyclic_nil : Acyclic ([] : List (α × α)) := by
  intro a ha
  obtain ⟨b, hb, -⟩ := Relation.TransGen.head'_iff.mp ha
  cases hb

/-- Edges that all leave or enter `n` close a cycle only through `n`. -/
theorem Acyclic.of_touching {edges edges' : List (α × α)} (h : Acyclic edges) {n : α}
    (hnew : ∀ e ∈ edges', e ∈ edges ∨ e.1 = n ∨ e.2 = n)
    (hn : ¬ Relation.TransGen (Edge edges') n n) : Acyclic edges' := by
  -- a walk that avoids `n` runs along old edges
  have key : ∀ a b, Relation.TransGen (Edge edges') a b →
      Relation.TransGen (Edge edges) a b ∨
        (a = n ∨ Relation.TransGen (Edge edges') a n) ∧
          (b = n ∨ Relation.TransGen (Edge edges') n b) := by
    intro a b hab
    induction hab with
    | single e =>
        rcases hnew _ e with he | rfl | rfl
        · exact Or.inl (.single he)
        · exact Or.inr ⟨Or.inl rfl, Or.inr (.single e)⟩
        · exact Or.inr ⟨Or.inr (.single e), Or.inl rfl⟩
    | @tail b c hab e ih =>
        have from_n : ∀ {x}, x = n ∨ Relation.TransGen (Edge edges') n x →
            Relation.TransGen (Edge edges') x c → Relation.TransGen (Edge edges') n c := by
          rintro x (rfl | hx) hxc
          · exact hxc
          · exact hx.trans hxc
        rcases ih with ih | ⟨ha, hb⟩
        · rcases hnew _ e with he | hb | hc
          · exact Or.inl (ih.tail he)
          · simp only at hb
            subst hb
            exact Or.inr ⟨Or.inr hab, Or.inr (.single e)⟩
          · simp only at hc
            subst hc
            exact Or.inr ⟨Or.inr (hab.tail e), Or.inl rfl⟩
        · exact Or.inr ⟨ha, Or.inr (from_n hb (.single e))⟩
  intro a ha
  rcases key a a ha with h' | ⟨rfl | h₁, h₂⟩
  · exact h a h'
  · exact hn ha
  · rcases h₂ with rfl | h₂
    · exact hn ha
    · exact hn (h₂.trans h₁)

section Search

variable [DecidableEq α] (edges : List (α × α)) (sort : List α → List α)

/-- The successors of a node, in the order of the search. -/
def succs (n : α) : List α :=
  sort (((edges.filter fun e => e.1 = n).map Prod.snd).dedup)

/-- The closed walk that a step back to `m` closes, `stack` holding the path to the
current node, the current node first. -/
def closeWalk (m : α) (stack : List α) : List α :=
  m :: ((stack.takeWhile fun x => x ≠ m).reverse ++ [m])

/-- Visit a node that is neither on the stack nor finished.  The error is a closed walk,
the value the finished nodes. -/
def visit : ℕ → List α → α → List α → Except (List α) (List α)
  | 0, _, _, done => .ok done
  | fuel + 1, stack, n, done => do
      let done ← (succs edges sort n).foldlM (fun done m =>
        if m ∈ n :: stack then .error (closeWalk m (n :: stack))
        else if m ∈ done then .ok done
        else visit fuel (n :: stack) m done) done
      .ok (n :: done)

/-- The nodes that have a successor, in the order of the search. -/
def sources : List α := sort ((edges.map Prod.fst).dedup)

/-- A closed walk, when there is one. -/
def findCycle : Option (List α) :=
  match (sources edges sort).foldlM (fun done n =>
      if n ∈ done then .ok done else visit edges sort (edges.length + 2) [] n done) [] with
  | .ok _ => none
  | .error cycle => some cycle

/-- Whether some simple path out of `n` that avoids `path` returns to `node`. -/
def returns (node : α) : ℕ → α → List α → Bool
  | 0, _, _ => false
  | fuel + 1, n, path =>
      (succs edges sort n).any fun m =>
        m = node || (m ∉ path && returns node fuel m (m :: path))

/-- Whether a node lies on a cycle. -/
def onCycle (node : α) : Bool := returns edges sort node (edges.length + 2) node [node]

variable {edges sort}
variable (hsort : ∀ l x, x ∈ sort l ↔ x ∈ l)

include hsort

theorem mem_succs {n m : α} : m ∈ succs edges sort n ↔ Edge edges n m := by
  simp [succs, hsort, Edge]

theorem mem_sources {n : α} : n ∈ sources edges sort ↔ ∃ m, Edge edges n m := by
  simp [sources, hsort, Edge]

omit hsort

/-! ### What the search finds -/

/-- A closed walk along edges. -/
def ClosedWalk (edges : List (α × α)) (c : List α) : Prop :=
  ∃ x mid, c = x :: (mid ++ [x]) ∧ List.IsChain (Edge edges) c

theorem closedWalk_closeWalk {stack : List α} {n m : α}
    (hstack : List.IsChain (fun a b => Edge edges b a) (n :: stack)) (hm : m ∈ n :: stack)
    (hnm : Edge edges n m) : ClosedWalk edges (closeWalk m (n :: stack)) := by
  obtain ⟨above, below, hsplit, hnot⟩ := List.eq_append_cons_of_mem hm
  have htake : (n :: stack).takeWhile (fun x => x ≠ m) = above := by
    rw [hsplit, List.takeWhile_append_of_pos]
    · simp
    · intro a ha
      have : a ≠ m := fun e => hnot (e ▸ ha)
      simpa using this
  refine ⟨m, above.reverse, by rw [closeWalk, htake], ?_⟩
  rw [closeWalk, htake]
  have hchain : List.IsChain (fun a b => Edge edges b a) (above ++ [m]) := by
    have : List.IsChain (fun a b => Edge edges b a) ((above ++ [m]) ++ below) := by
      rw [List.append_assoc, List.singleton_append, ← hsplit]
      exact hstack
    exact this.left_of_append
  have hrev : List.IsChain (Edge edges) (m :: above.reverse) := by
    have := List.isChain_reverse.mpr hchain
    simpa using this
  rw [← List.cons_append]
  refine List.IsChain.append hrev (List.IsChain.singleton m) ?_
  intro x hx y hy
  simp only [List.head?_cons, Option.mem_def, Option.some.injEq] at hy
  subst hy
  -- the last node of the walk is the current one
  have hlast : x = n := by
    cases above with
    | nil =>
        simp only [List.nil_append, List.cons.injEq] at hsplit
        simp only [List.reverse_nil, List.getLast?_singleton, Option.mem_def,
          Option.some.injEq] at hx
        rw [← hx, hsplit.1]
    | cons a above =>
        simp only [List.cons_append, List.cons.injEq] at hsplit
        simp only [List.reverse_cons, ← List.cons_append, List.getLast?_append,
          List.getLast?_singleton, Option.some_or, Option.mem_def, Option.some.injEq] at hx
        rw [← hx, hsplit.1]
  rw [hlast]
  exact hnm

include hsort in
theorem visit_error {fuel : ℕ} {stack : List α} {n : α} {done c : List α}
    (hstack : List.IsChain (fun a b => Edge edges b a) (n :: stack))
    (h : visit edges sort fuel stack n done = .error c) : ClosedWalk edges c := by
  induction fuel generalizing stack n done with
  | zero => cases h
  | succ fuel ih =>
      have loop : ∀ ms : List α, (∀ m ∈ ms, Edge edges n m) → ∀ done,
          ms.foldlM (fun done m =>
            if m ∈ n :: stack then .error (closeWalk m (n :: stack))
            else if m ∈ done then .ok done
            else visit edges sort fuel (n :: stack) m done) done = Except.error c →
          ClosedWalk edges c := by
        intro ms hms
        induction ms with
        | nil => intro done h; cases h
        | cons m ms ihm =>
            intro done h
            rw [List.foldlM_cons] at h
            have hnm := hms m (List.mem_cons_self ..)
            split at h
            · rename_i hmem
              simp only [bind, Except.bind, Except.error.injEq] at h
              exact h ▸ closedWalk_closeWalk hstack hmem hnm
            · split at h
              · exact ihm (fun x hx => hms x (List.mem_cons_of_mem _ hx)) _ h
              · cases hv : visit edges sort fuel (n :: stack) m done with
                | error e =>
                    rw [hv] at h
                    simp only [bind, Except.bind, Except.error.injEq] at h
                    subst h
                    exact ih (List.IsChain.cons_cons hnm hstack) hv
                | ok done' =>
                    rw [hv] at h
                    exact ihm (fun x hx => hms x (List.mem_cons_of_mem _ hx)) _ h
      rw [visit] at h
      cases hf : (succs edges sort n).foldlM (fun done m =>
          if m ∈ n :: stack then .error (closeWalk m (n :: stack))
          else if m ∈ done then .ok done
          else visit edges sort fuel (n :: stack) m done) done with
      | ok d => rw [hf] at h; cases h
      | error e =>
          rw [hf] at h
          simp only [bind, Except.bind, Except.error.injEq] at h
          subst h
          exact loop _ (fun m hm => (mem_succs hsort).mp hm) _ hf

include hsort in
/-- What the search finds is a closed walk. -/
theorem findCycle_some {c : List α} (h : findCycle edges sort = some c) :
    ClosedWalk edges c := by
  have loop : ∀ ns : List α, ∀ done,
      ns.foldlM (fun done n =>
        if n ∈ done then .ok done else visit edges sort (edges.length + 2) [] n done) done =
          Except.error c → ClosedWalk edges c := by
    intro ns
    induction ns with
    | nil => intro done h; cases h
    | cons n ns ih =>
        intro done h
        rw [List.foldlM_cons] at h
        split at h
        · exact ih _ h
        · cases hv : visit edges sort (edges.length + 2) [] n done with
          | error e =>
              rw [hv] at h
              simp only [bind, Except.bind, Except.error.injEq] at h
              subst h
              exact visit_error hsort (List.IsChain.singleton n) hv
          | ok d => rw [hv] at h; exact ih _ h
  rw [findCycle] at h
  split at h
  · cases h
  · rename_i e he
    rw [Option.some.injEq] at h
    subst h
    exact loop _ _ he

omit [DecidableEq α] in
/-- A closed walk goes round a cycle. -/
theorem ClosedWalk.cycle {c : List α} (h : ClosedWalk edges c) :
    ∃ a, Relation.TransGen (Edge edges) a a := by
  obtain ⟨x, mid, rfl, hchain⟩ := h
  -- along a chain its first node reaches every other one
  have reach : ∀ (l : List α) (a b : α), List.IsChain (Edge edges) (a :: (l ++ [b])) →
      Relation.TransGen (Edge edges) a b := by
    intro l
    induction l with
    | nil =>
        intro a b h
        exact .single (List.isChain_cons_cons.mp h).1
    | cons m l ih =>
        intro a b h
        obtain ⟨e, h⟩ := List.isChain_cons_cons.mp h
        exact .head e (ih m b h)
  exact ⟨x, reach mid x x hchain⟩

/-! ### When the search finds nothing -/

/-- Every node of the list is followed by its successors. -/
def Topological (edges : List (α × α)) : List α → Prop
  | [] => True
  | n :: rest => (∀ m, Edge edges n m → m ∈ rest) ∧ Topological edges rest

omit [DecidableEq α] in
theorem Topological.succ_mem {done : List α} (h : Topological edges done) {a b : α}
    (ha : a ∈ done) (hab : Edge edges a b) : b ∈ done := by
  induction done with
  | nil => cases ha
  | cons n rest ih =>
      rcases List.mem_cons.mp ha with rfl | ha
      · exact List.mem_cons_of_mem _ (h.1 b hab)
      · exact List.mem_cons_of_mem _ (ih h.2 ha)

theorem Topological.not_cycle {done : List α} (h : Topological edges done) {a : α}
    (ha : a ∈ done) : ¬ Relation.TransGen (Edge edges) a a := by
  induction done with
  | nil => cases ha
  | cons n rest ih =>
      by_cases hr : a ∈ rest
      · exact ih h.2 hr
      · rcases List.mem_cons.mp ha with rfl | ha
        · intro hcyc
          -- the walk leaves the head for good
          obtain ⟨b, hab, hba⟩ := Relation.TransGen.head'_iff.mp hcyc
          have stay : ∀ x, Relation.ReflTransGen (Edge edges) b x → x ∈ rest := by
            intro x hx
            induction hx with
            | refl => exact h.1 b hab
            | tail _ e ihx => exact h.2.succ_mem ihx e
          exact hr (stay a hba)
        · exact absurd ha hr

include hsort in
theorem visit_ok {fuel : ℕ} {stack : List α} {n : α} {done done' : List α}
    (hbound : ∀ l : List α, l.Nodup → (∀ x ∈ l, x ∈ n :: (stack ++ edges.map Prod.snd)) →
      l.length < stack.length + 1 + fuel)
    (hnd : (n :: stack).Nodup)
    (htop : Topological edges done)
    (h : visit edges sort fuel stack n done = .ok done') :
    Topological edges done' ∧ n ∈ done' ∧ ∀ x ∈ done, x ∈ done' := by
  induction fuel generalizing stack n done done' with
  | zero =>
      have := hbound (n :: stack) hnd (fun x hx => by
        rcases List.mem_cons.mp hx with rfl | hx
        · exact List.mem_cons_self ..
        · exact List.mem_cons_of_mem _ (List.mem_append_left _ hx))
      simp at this
  | succ fuel ih =>
      have loop : ∀ ms : List α, (∀ m ∈ ms, Edge edges n m) → ∀ done done', Topological edges done →
          ms.foldlM (fun done m =>
            if m ∈ n :: stack then .error (closeWalk m (n :: stack))
            else if m ∈ done then .ok done
            else visit edges sort fuel (n :: stack) m done) done = Except.ok done' →
          Topological edges done' ∧ (∀ m ∈ ms, m ∈ done') ∧ ∀ x ∈ done, x ∈ done' := by
        intro ms hms
        induction ms with
        | nil =>
            intro done done' ht h
            cases h
            exact ⟨ht, by simp, fun x hx => hx⟩
        | cons m ms ihm =>
            intro done done' ht h
            have hnm := hms m (List.mem_cons_self ..)
            rw [List.foldlM_cons, Outcome.bind_eq_ok] at h
            obtain ⟨d, hd, h⟩ := h
            have hstep : Topological edges d ∧ m ∈ d ∧ ∀ x ∈ done, x ∈ d := by
              split at hd
              · cases hd
              · rename_i hms
                split at hd
                · rename_i hmd
                  cases hd
                  exact ⟨ht, hmd, fun x hx => hx⟩
                · refine ih ?_ (List.nodup_cons.mpr ⟨hms, hnd⟩) ht hd
                  intro l hl hsub
                  have := hbound l hl fun x hx => by
                    have := hsub x hx
                    simp only [List.cons_append, List.mem_cons, List.mem_append] at this ⊢
                    rcases this with rfl | rfl | h | h
                    · exact Or.inr (Or.inr (List.mem_map.mpr ⟨_, hnm, rfl⟩))
                    · exact Or.inl rfl
                    · exact Or.inr (Or.inl h)
                    · exact Or.inr (Or.inr h)
                  simp only [List.length_cons]
                  omega
            obtain ⟨htd, hmd, hsub⟩ := hstep
            obtain ⟨htd', hms', hsub'⟩ :=
              ihm (fun x hx => hms x (List.mem_cons_of_mem _ hx)) d done' htd h
            refine ⟨htd', fun x hx => ?_, fun x hx => hsub' x (hsub x hx)⟩
            rcases List.mem_cons.mp hx with rfl | hx
            · exact hsub' _ hmd
            · exact hms' x hx
      rw [visit, Outcome.bind_eq_ok] at h
      obtain ⟨d, hd, h⟩ := h
      cases h
      obtain ⟨ht, hsucc, hsub⟩ := loop _ (fun m hm => (mem_succs hsort).mp hm) _ _ htop hd
      refine ⟨⟨fun m hm => hsucc m ((mem_succs hsort).mpr hm), ht⟩, List.mem_cons_self ..,
        fun x hx => List.mem_cons_of_mem _ (hsub x hx)⟩

omit [DecidableEq α] in
theorem length_le_of_nodup_subset {l : List α} {n : α} (hl : l.Nodup)
    (hsub : ∀ x ∈ l, x ∈ n :: edges.map Prod.snd) : l.length ≤ edges.length + 1 := by
  have := (List.subperm_of_subset hl hsub).length_le
  simpa using this

include hsort in
/-- When the search finds nothing, the graph is acyclic. -/
theorem findCycle_none (h : findCycle edges sort = none) : Acyclic edges := by
  have loop : ∀ ns : List α, ∀ done done', Topological edges done →
      ns.foldlM (fun done n =>
        if n ∈ done then .ok done else visit edges sort (edges.length + 2) [] n done) done =
          Except.ok done' →
      Topological edges done' ∧ (∀ n ∈ ns, n ∈ done') ∧ ∀ x ∈ done, x ∈ done' := by
    intro ns
    induction ns with
    | nil =>
        intro done done' ht h
        cases h
        exact ⟨ht, by simp, fun x hx => hx⟩
    | cons n ns ih =>
        intro done done' ht h
        rw [List.foldlM_cons, Outcome.bind_eq_ok] at h
        obtain ⟨d, hd, h⟩ := h
        have hstep : Topological edges d ∧ n ∈ d ∧ ∀ x ∈ done, x ∈ d := by
          split at hd
          · rename_i hn
            cases hd
            exact ⟨ht, hn, fun x hx => hx⟩
          · refine visit_ok hsort ?_ (List.nodup_singleton n) ht hd
            intro l hl hsub
            have := length_le_of_nodup_subset hl (by simpa using hsub)
            simp only [List.length_nil]
            omega
        obtain ⟨htd, hnd, hsub⟩ := hstep
        obtain ⟨htd', hns, hsub'⟩ := ih d done' htd h
        refine ⟨htd', fun x hx => ?_, fun x hx => hsub' x (hsub x hx)⟩
        rcases List.mem_cons.mp hx with rfl | hx
        · exact hsub' _ hnd
        · exact hns x hx
  rw [findCycle] at h
  split at h
  · rename_i d hd
    obtain ⟨ht, hmem, -⟩ := loop _ [] _ (by trivial) hd
    intro a ha
    obtain ⟨b, hab, -⟩ := Relation.TransGen.head'_iff.mp ha
    exact ht.not_cycle (hmem a ((mem_sources hsort).mpr ⟨b, hab⟩)) ha
  · cases h

include hsort in
/-- The search finds a closed walk if and only if there is one. -/
theorem findCycle_isSome_iff :
    (findCycle edges sort).isSome = true ↔ ∃ c, ClosedWalk edges c := by
  constructor
  · intro h
    obtain ⟨c, hc⟩ := Option.isSome_iff_exists.mp h
    exact ⟨c, findCycle_some hsort hc⟩
  · rintro ⟨c, hc⟩
    obtain ⟨a, ha⟩ := hc.cycle
    cases hf : findCycle edges sort with
    | none => exact absurd ha (findCycle_none hsort hf a)
    | some c => rfl

include hsort in
theorem findCycle_isSome_iff_not_acyclic :
    (findCycle edges sort).isSome = true ↔ ¬ Acyclic edges := by
  constructor
  · intro h acyclic
    obtain ⟨c, hc⟩ := (findCycle_isSome_iff hsort).mp h
    obtain ⟨a, ha⟩ := hc.cycle
    exact acyclic a ha
  · intro h
    cases hf : findCycle edges sort with
    | none => exact absurd (findCycle_none hsort hf) h
    | some c => rfl

/-! ### The way back to one node -/

/-- A walk from a node to `node` whose inner nodes avoid `path`. -/
inductive Returns (edges : List (α × α)) (node : α) (path : List α) : α → Prop
  | edge {n : α} : Edge edges n node → Returns edges node path n
  | step {n m : α} : Edge edges n m → m ∉ path → Returns edges node path m →
      Returns edges node path n

/-- Past its last visit to `m`, the walk avoids `m` too. -/
theorem Returns.avoid {node n : α} {path : List α} (h : Returns edges node path n) (m : α) :
    Returns edges node (m :: path) m ∨ Returns edges node (m :: path) n := by
  induction h with
  | edge e => exact Or.inr (.edge e)
  | @step n k e hk _ ih =>
      rcases ih with ih | ih
      · exact Or.inl ih
      · by_cases hkm : k = m
        · exact Or.inl (hkm ▸ ih)
        · refine Or.inr (.step e ?_ ih)
          simp [hkm, hk]

omit [DecidableEq α] in
theorem Returns.of_transGen {node n : α} (h : Relation.TransGen (Edge edges) n node) :
    Returns edges node [] n := by
  induction h using Relation.TransGen.head_induction_on with
  | single e => exact .edge e
  | head e _ ih => exact .step e List.not_mem_nil ih

omit [DecidableEq α] in
/-- A walk that avoids `n` is one of every graph that differs in the edges out of `n` only. -/
theorem Returns.leaving {n m : α} {edges' : List (α × α)} (h : Returns edges n [n] m)
    (hm : m ≠ n) (hsub : ∀ e ∈ edges, e.1 ≠ n → e ∈ edges') :
    Relation.TransGen (Edge edges') m n := by
  induction h with
  | edge e => exact .single (hsub _ e hm)
  | step e hk _ ih => exact .head (hsub _ e hm) (ih (mt List.mem_singleton.mpr hk))

/-- Two acyclic graphs that differ in the edges out of one node have an acyclic union. -/
theorem Acyclic.union {old new union : List (α × α)} (n : α) (h : Acyclic old) (h' : Acyclic new)
    (hleave : ∀ e ∈ union, e.1 ≠ n → e ∈ old ∧ e ∈ new)
    (hunion : ∀ e ∈ union, e ∈ old ∨ e ∈ new) : Acyclic union := by
  refine h.of_touching (n := n) (fun e he => ?_) fun hcyc => ?_
  · by_cases hn : e.1 = n
    · exact Or.inr (Or.inl hn)
    · exact Or.inl (hleave e he hn).1
  · have havoid : Returns union n [n] n := by
      rcases (Returns.of_transGen hcyc).avoid n with h | h <;> exact h
    cases havoid with
    | edge e =>
        rcases hunion _ e with he | he
        · exact h n (.single he)
        · exact h' n (.single he)
    | @step _ m e hm hret =>
        have hne : m ≠ n := mt List.mem_singleton.mpr hm
        rcases hunion _ e with he | he
        · exact h n (.head he (hret.leaving hne fun e he hn => (hleave e he hn).1))
        · exact h' n (.head he (hret.leaving hne fun e he hn => (hleave e he hn).2))

include hsort in
theorem returns_sound {node : α} {fuel : ℕ} {n : α} {path : List α}
    (h : returns edges sort node fuel n path = true) :
    Relation.TransGen (Edge edges) n node := by
  induction fuel generalizing n path with
  | zero => cases h
  | succ fuel ih =>
      simp only [returns, List.any_eq_true, Bool.or_eq_true, Bool.and_eq_true,
        decide_eq_true_eq] at h
      obtain ⟨m, hm, h⟩ := h
      have hnm := (mem_succs hsort).mp hm
      rcases h with rfl | ⟨_, h⟩
      · exact .single hnm
      · exact .head hnm (ih h)

include hsort in
theorem returns_complete {node : α} {fuel : ℕ} {n : α} {path : List α} (hnd : path.Nodup)
    (hsub : ∀ x ∈ path, x ∈ node :: edges.map Prod.snd)
    (hfuel : edges.length + 2 ≤ path.length + fuel)
    (h : Returns edges node path n) : returns edges sort node fuel n path = true := by
  induction fuel generalizing n path with
  | zero =>
      have := length_le_of_nodup_subset hnd hsub
      omega
  | succ fuel ih =>
      simp only [returns, List.any_eq_true, Bool.or_eq_true, Bool.and_eq_true,
        decide_eq_true_eq]
      cases h with
      | edge e => exact ⟨node, (mem_succs hsort).mpr e, Or.inl rfl⟩
      | @step _ m e hm hret =>
          refine ⟨m, (mem_succs hsort).mpr e, Or.inr ⟨hm, ?_⟩⟩
          have havoid : Returns edges node (m :: path) m := by
            rcases hret.avoid m with h | h <;> exact h
          refine ih (List.nodup_cons.mpr ⟨hm, hnd⟩) ?_ (by simp only [List.length_cons]; omega)
            havoid
          intro x hx
          rcases List.mem_cons.mp hx with rfl | hx
          · exact List.mem_cons_of_mem _ (List.mem_map.mpr ⟨_, e, rfl⟩)
          · exact hsub x hx

include hsort in
/-- The search decides whether a node lies on a cycle. -/
theorem onCycle_iff {node : α} :
    onCycle edges sort node = true ↔ Relation.TransGen (Edge edges) node node := by
  constructor
  · exact returns_sound hsort
  · intro h
    have havoid : Returns edges node [node] node := by
      rcases (Returns.of_transGen h).avoid node with h | h <;> exact h
    refine returns_complete hsort (List.nodup_singleton node) ?_ ?_ havoid
    · intro x hx
      rw [List.mem_singleton] at hx
      exact hx ▸ List.mem_cons_self ..
    · simp only [List.length_singleton]
      omega

end Search

end Omd.Lib.Digraph
