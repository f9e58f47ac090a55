import Omd.Migration
import Omd.Lib.Outcome
import Mathlib.Data.List.Dedup
import Mathlib.Data.List.Pairwise

/-!
# What the renumbering keeps

Of the rows that share a generation of a request, one stays and the others go past the largest
generation of the request, what lives last.  That makes the pairs unique, and it leaves the row
that lives the newest one if its own generation is renumbered.  If only older generations are,
their rows go past the one that lives, and shadow it.
-/

namespace Omd.Migration

open Lib

/-- Two distinct members of a list stand in its order one way or the other. -/
theorem pairwise_or {α : Type} {R : α → α → Prop} {l : List α} (h : l.Pairwise R) {a b : α}
    (ha : a ∈ l) (hb : b ∈ l) (ne : a ≠ b) : R a b ∨ R b a := by
  have either : Std.Symm fun x y => R x y ∨ R y x := ⟨fun _ _ => Or.symm⟩
  exact List.Pairwise.forall (R := fun x y => R x y ∨ R y x) (h.imp Or.inl) ha hb ne

/-! ## One generation -/

section

variable {orbits : List LegacyOrbit} {g : String × ℕ} {f : LegacyOrbit → LegacyOrbit}

theorem group_moved {o : LegacyOrbit} {n : ℕ} {r : String} {k : ℕ} (h : o.group = some (r, k)) :
    (o.moved n).group = some (r, n) := by
  rw [LegacyOrbit.group] at h ⊢
  split at h
  · rename_i kind
    rw [if_pos (show (o.moved n).kind = .orbit from kind)]
    obtain ⟨r', named, eq⟩ := Option.map_eq_some_iff.mp h
    cases eq
    rw [show (o.moved n).requestId = some r from named]
    rfl
  · cases h

theorem generation_of_group {o : LegacyOrbit} (h : o.group = some g) :
    o.requestGeneration = g.2 := by
  rw [LegacyOrbit.group] at h
  split at h
  · obtain ⟨r, _, eq⟩ := Option.map_eq_some_iff.mp h
    exact congrArg Prod.snd eq
  · cases h

theorem renumberRows_spec {rows : List LegacyOrbit}
    (ids : Table.Distinct LegacyOrbit.orbitId orbits) (sub : ∀ a ∈ rows, a ∈ orbits)
    (distinct : Table.Distinct LegacyOrbit.orbitId rows) (next : ℕ) :
    ∃ f, renumberRows next rows orbits = orbits.map f ∧
      (∀ o ∈ orbits, o.orbitId ∉ rows.map LegacyOrbit.orbitId → f o = o) ∧
      (∀ a ∈ rows, ∃ n, next ≤ n ∧ f a = a.moved n) ∧
      rows.Pairwise fun a b => (f a).requestGeneration < (f b).requestGeneration := by
  induction rows generalizing orbits next with
  | nil => exact ⟨id, (List.map_id _).symm, fun _ _ _ => rfl, by simp, List.Pairwise.nil⟩
  | cons a rows ih =>
      rw [Table.Distinct, List.map_cons, List.nodup_cons] at distinct
      have apart : ∀ b ∈ rows, b.orbitId ≠ a.orbitId := fun b hb same =>
        distinct.1 (same ▸ List.mem_map_of_mem hb)
      have member : ∀ o ∈ orbits, o.orbitId ≠ a.orbitId →
          o ∈ Table.modify LegacyOrbit.orbitId a.orbitId (fun o => o.moved next) orbits :=
        fun o ho ne => Table.mem_modify.mpr (Or.inl ⟨ho, ne⟩)
      have ids' : Table.Distinct LegacyOrbit.orbitId
          (Table.modify LegacyOrbit.orbitId a.orbitId (fun o => o.moved next) orbits) :=
        ids.modify fun _ _ same => same
      obtain ⟨f, eq, others, moves, order⟩ := ih ids'
        (fun b hb => member b (sub b (List.mem_cons_of_mem _ hb)) (apart b hb)) distinct.2
        (next + 1)
      refine ⟨fun o => f (if o.orbitId = a.orbitId then o.moved next else o), ?_, ?_, ?_, ?_⟩
      · rw [renumberRows, eq, Table.modify, List.map_map]
        rfl
      · intro o ho absent
        rw [List.map_cons, List.mem_cons, not_or] at absent
        dsimp only
        rw [if_neg absent.1]
        exact others o (member o ho absent.1) absent.2
      · intro b hb
        rcases List.mem_cons.mp hb with rfl | hb
        · refine ⟨next, Nat.le_refl _, ?_⟩
          dsimp only
          rw [if_pos rfl]
          exact others _ (Table.mem_modify.mpr (Or.inr ⟨b, sub b List.mem_cons_self, rfl, rfl⟩))
            distinct.1
        · obtain ⟨n, le, moved⟩ := moves b hb
          refine ⟨n, by omega, ?_⟩
          dsimp only
          rw [if_neg (apart b hb), moved]
      · rw [List.pairwise_cons]
        constructor
        · intro b hb
          obtain ⟨n, le, moved⟩ := moves b hb
          have first : f (a.moved next) = a.moved next := others _
            (Table.mem_modify.mpr (Or.inr ⟨a, sub a List.mem_cons_self, rfl, rfl⟩)) distinct.1
          dsimp only
          rw [if_pos rfl, if_neg (apart b hb), first, moved]
          exact le
        · refine order.imp_of_mem fun {b c} hb hc lt => ?_
          dsimp only
          rw [if_neg (apart b hb), if_neg (apart c hc)]
          exact lt

/-- The rows when a generation of a request is renumbered. -/
structure Renumbered (g : String × ℕ) (orbits : List LegacyOrbit)
    (f : LegacyOrbit → LegacyOrbit) : Prop where
  moves : ∀ o ∈ orbits, f o = o ∨ o.group = some g ∧
    ∃ n, (∀ p ∈ orbits, ∀ k, p.group = some (g.1, k) → k < n) ∧ f o = o.moved n
  apart : ∀ o ∈ orbits, ∀ p ∈ orbits, o.group = some g → p.group = some g → o ≠ p →
    (f o).requestGeneration ≠ (f p).requestGeneration
  last : ∀ o ∈ orbits, ∀ p ∈ orbits, o.group = some g → p.group = some g → o.live = true →
    p.live = false → (f p).requestGeneration < (f o).requestGeneration

theorem lt_maxGeneration {db : Db} {r : String} {p : LegacyOrbit} (hp : p ∈ db.orbits) {k : ℕ}
    (h : p.group = some (r, k)) : k < db.maxGeneration r + 1 := by
  have mem : k ∈ (db.groups.filter fun g => g.1 = r).map Prod.snd :=
    List.mem_map.mpr ⟨(r, k), List.mem_filter.mpr
      ⟨List.mem_filterMap.mpr ⟨p, hp, h⟩, by simp⟩, rfl⟩
  rw [Db.maxGeneration]
  cases top : ((db.groups.filter fun g => g.1 = r).map Prod.snd).max? with
  | none =>
      rw [List.max?_eq_none_iff.mp top] at mem
      cases mem
  | some m => exact Nat.lt_succ_of_le ((List.max?_eq_some_iff.mp top).2 k mem)

theorem renumber_spec {db : Db} (ids : Table.Distinct LegacyOrbit.orbitId db.orbits)
    (g : String × ℕ) :
    ∃ f, (db.renumber g).orbits = db.orbits.map f ∧ Renumbered g db.orbits f := by
  have mem : ∀ o, o ∈ (db.orbits.filter fun o => o.group = some g).insertionSort
      (fun a b => a.rank ≤ b.rank) ↔ o ∈ db.orbits ∧ o.group = some g := by
    simp
  have sorted : ((db.orbits.filter fun o => o.group = some g).insertionSort
      fun a b => a.rank ≤ b.rank).Pairwise fun a b => a.rank ≤ b.rank := by
    have total : Std.Total fun a b : LegacyOrbit => a.rank ≤ b.rank :=
      ⟨fun a b => le_total a.rank b.rank⟩
    have trans : IsTrans LegacyOrbit fun a b => a.rank ≤ b.rank :=
      ⟨fun _ _ _ => le_trans⟩
    exact List.pairwise_insertionSort _ _
  have distinct : Table.Distinct LegacyOrbit.orbitId
      ((db.orbits.filter fun o => o.group = some g).insertionSort fun a b => a.rank ≤ b.rank) :=
    ((List.perm_insertionSort _ _).map LegacyOrbit.orbitId).nodup_iff.mpr (ids.filter _)
  rw [Db.renumber]
  dsimp only
  generalize (db.orbits.filter fun o => o.group = some g).insertionSort
    (fun a b => a.rank ≤ b.rank) = rows at mem sorted distinct ⊢
  cases rows with
  | nil =>
      refine ⟨id, (List.map_id _).symm, fun _ _ => Or.inl rfl, ?_, ?_⟩
      · intro o ho p _ hg
        cases (mem o).mpr ⟨ho, hg⟩
      · intro o ho p _ hg
        cases (mem o).mpr ⟨ho, hg⟩
  | cons first rows =>
      rw [Table.Distinct, List.map_cons, List.nodup_cons] at distinct
      obtain ⟨f, eq, others, moves, order⟩ := renumberRows_spec ids
        (fun a ha => ((mem a).mp (List.mem_cons_of_mem _ ha)).1) distinct.2
        (db.maxGeneration g.1 + 1)
      have stays : f first = first :=
        others first ((mem first).mp List.mem_cons_self).1 distinct.1
      -- the first row keeps its generation, which is below those of the others
      have increasing : (first :: rows).Pairwise fun a b =>
          a.rank ≤ b.rank ∧ (f a).requestGeneration < (f b).requestGeneration := by
        refine sorted.and (List.pairwise_cons.mpr ⟨fun b hb => ?_, order⟩)
        obtain ⟨n, le, moved⟩ := moves b hb
        have member := (mem first).mp List.mem_cons_self
        rw [stays, moved, generation_of_group member.2]
        exact lt_of_lt_of_le (lt_maxGeneration member.1 member.2) le
      refine ⟨f, eq, fun o ho => ?_, fun o ho p hp hgo hgp ne => ?_,
        fun o ho p hp hgo hgp live dead => ?_⟩
      · by_cases moving : o.orbitId ∈ rows.map LegacyOrbit.orbitId
        · obtain ⟨a, ha, same⟩ := List.mem_map.mp moving
          have member := (mem a).mp (List.mem_cons_of_mem _ ha)
          obtain rfl := ids.eq member.1 ho same
          obtain ⟨n, le, moved⟩ := moves a ha
          exact Or.inr ⟨member.2, n, fun p hp k hk => lt_of_lt_of_le (lt_maxGeneration hp hk) le,
            moved⟩
        · exact Or.inl (others o ho moving)
      · rcases pairwise_or increasing ((mem o).mpr ⟨ho, hgo⟩) ((mem p).mpr ⟨hp, hgp⟩) ne with
          h | h
        · exact h.2.ne
        · exact h.2.ne'
      · have ne : o ≠ p := by
          rintro rfl
          rw [live] at dead
          cases dead
        rcases pairwise_or increasing ((mem o).mpr ⟨ho, hgo⟩) ((mem p).mpr ⟨hp, hgp⟩) ne with
          h | h
        · have below : p.rank < o.rank := by
            rw [LegacyOrbit.rank, LegacyOrbit.rank, Prod.Lex.toLex_lt_toLex, live, dead]
            exact Or.inl Bool.false_lt_true
          exact absurd h.1 (not_le.mpr below)
        · exact h.2

/-! ## All of them -/

/-- Two rows share the pair. -/
def Shared (orbits : List LegacyOrbit) (k : String × ℕ) : Prop :=
  ∃ o ∈ orbits, ∃ p ∈ orbits, o ≠ p ∧ o.group = some k ∧ p.group = some k

theorem nodup_groups {db : Db} (ids : Table.Distinct LegacyOrbit.orbitId db.orbits) :
    db.groups.Nodup ↔ ∀ k, ¬ Shared db.orbits k := by
  rw [Db.groups, List.Nodup, List.pairwise_filterMap]
  constructor
  · rintro apart k ⟨o, ho, p, hp, ne, hgo, hgp⟩
    rcases pairwise_or apart ho hp ne with h | h
    · exact h k hgo k hgp rfl
    · exact h k hgp k hgo rfl
  · intro free
    have nodup : db.orbits.Nodup := List.Nodup.of_map _ ids
    refine nodup.imp_of_mem fun {o p} ho hp ne k hgo k' hgp same => ?_
    subst same
    exact free k ⟨o, ho, p, hp, ne, hgo, hgp⟩

theorem mem_duplicateGenerations {db : Db} (ids : Table.Distinct LegacyOrbit.orbitId db.orbits)
    {k : String × ℕ} : k ∈ db.duplicateGenerations ↔ Shared db.orbits k := by
  have nodup : (db.orbits.filter fun o => o.group = some k).Nodup :=
    (List.Nodup.of_map _ ids).filter _
  have counted : db.groups.count k = (db.orbits.filter fun o => o.group = some k).length := by
    rw [Db.groups, List.count, List.countP_filterMap, List.countP_eq_length_filter]
    congr 1
    refine List.filter_congr fun o _ => ?_
    cases o.group with
    | none => simp
    | some k' => simp [beq_eq_decide]
  have mem : k ∈ db.duplicateGenerations ↔ 1 < db.groups.count k := by
    rw [Db.duplicateGenerations, List.mem_insertionSort, List.mem_filter, List.mem_dedup]
    constructor
    · rintro ⟨_, several⟩
      exact of_decide_eq_true several
    · intro several
      exact ⟨List.count_pos_iff.mp (by omega), decide_eq_true several⟩
  have member : ∀ o, o ∈ db.orbits.filter (fun o => o.group = some k) ↔
      o ∈ db.orbits ∧ o.group = some k := by
    simp
  rw [mem, counted]
  generalize db.orbits.filter (fun o => o.group = some k) = rows at nodup member ⊢
  constructor
  · intro several
    match rows, nodup, several with
    | o :: p :: _, nodup, _ =>
        have ho := (member o).mp List.mem_cons_self
        have hp := (member p).mp (List.mem_cons_of_mem _ List.mem_cons_self)
        refine ⟨o, ho.1, p, hp.1, ?_, ho.2, hp.2⟩
        rintro rfl
        exact (List.nodup_cons.mp nodup).1 List.mem_cons_self
  · rintro ⟨o, ho, p, hp, ne, hgo, hgp⟩
    have sub : [o, p] ⊆ rows := by
      intro q hq
      rcases List.mem_pair.mp hq with rfl | rfl
      · exact (member _).mpr ⟨ho, hgo⟩
      · exact (member _).mpr ⟨hp, hgp⟩
    exact (List.subperm_of_subset (by simpa using ne) sub).length_le

/-- The rows when several generations are renumbered, one after the other. -/
structure AllRenumbered (gs : List (String × ℕ)) (orbits : List LegacyOrbit)
    (f : LegacyOrbit → LegacyOrbit) : Prop where
  moves : ∀ o ∈ orbits, f o = o ∨ ∃ n, o.requestGeneration ≤ n ∧ f o = o.moved n
  untouched : ∀ o ∈ orbits, (∀ g ∈ gs, o.group ≠ some g) → f o = o
  shared : ∀ o ∈ orbits, ∀ p ∈ orbits, o ≠ p → ∀ k, (f o).group = some k → (f p).group = some k →
    k ∉ gs ∧ o.group = some k ∧ p.group = some k

theorem Renumbered.orbitId (h : Renumbered g orbits f) {o : LegacyOrbit} (ho : o ∈ orbits) :
    (f o).orbitId = o.orbitId := by
  rcases h.moves o ho with stays | ⟨_, n, _, moved⟩
  · rw [stays]
  · rw [moved]
    rfl

theorem Renumbered.ids (h : Renumbered g orbits f)
    (ids : Table.Distinct LegacyOrbit.orbitId orbits) :
    Table.Distinct LegacyOrbit.orbitId (orbits.map f) := by
  have same : (orbits.map f).map LegacyOrbit.orbitId = orbits.map LegacyOrbit.orbitId := by
    rw [List.map_map]
    exact List.map_congr_left fun o ho => h.orbitId ho
  rw [Table.Distinct, same]
  exact ids

/-- Rows that share a pair afterwards shared it before, and it is not the renumbered one. -/
theorem Renumbered.shared (h : Renumbered g orbits f) {o p : LegacyOrbit} (ho : o ∈ orbits)
    (hp : p ∈ orbits) (ne : o ≠ p) {k : String × ℕ} (hgo : (f o).group = some k)
    (hgp : (f p).group = some k) : k ≠ g ∧ o.group = some k ∧ p.group = some k := by
  have same : (f o).requestGeneration = (f p).requestGeneration := by
    rw [generation_of_group hgo, generation_of_group hgp]
  rcases h.moves o ho with stays | ⟨inGroup, n, above, moved⟩
  · rcases h.moves p hp with stays' | ⟨inGroup', n', above', moved'⟩
    · rw [stays] at hgo
      rw [stays'] at hgp
      refine ⟨?_, hgo, hgp⟩
      rintro rfl
      exact h.apart o ho p hp hgo hgp ne same
    · rw [moved', group_moved (r := g.1) (k := g.2) inGroup'] at hgp
      cases hgp
      rw [stays] at hgo
      exact absurd (above' o ho n' hgo) (Nat.lt_irrefl _)
  · rcases h.moves p hp with stays' | ⟨inGroup', n', above', moved'⟩
    · rw [moved, group_moved (r := g.1) (k := g.2) inGroup] at hgo
      cases hgo
      rw [stays'] at hgp
      exact absurd (above p hp n hgp) (Nat.lt_irrefl _)
    · exact absurd same (h.apart o ho p hp inGroup inGroup' ne)

theorem foldl_renumber {db : Db} (ids : Table.Distinct LegacyOrbit.orbitId db.orbits)
    (gs : List (String × ℕ)) :
    ∃ f, (gs.foldl Db.renumber db).orbits = db.orbits.map f ∧ AllRenumbered gs db.orbits f := by
  induction gs generalizing db with
  | nil =>
      exact ⟨id, (List.map_id _).symm, fun _ _ => Or.inl rfl, fun _ _ _ => rfl,
        fun o _ p _ _ k hgo hgp => ⟨List.not_mem_nil, hgo, hgp⟩⟩
  | cons g gs ih =>
      obtain ⟨f, eq, first⟩ := renumber_spec ids g
      have ids' : Table.Distinct LegacyOrbit.orbitId (db.renumber g).orbits := eq ▸ first.ids ids
      obtain ⟨f', eq', rest⟩ := ih ids'
      have member : ∀ o ∈ db.orbits, f o ∈ (db.renumber g).orbits :=
        fun o ho => eq ▸ List.mem_map_of_mem ho
      refine ⟨f' ∘ f, ?_, fun o ho => ?_, fun o ho absent => ?_, fun o ho p hp ne k hgo hgp => ?_⟩
      · rw [List.foldl_cons, eq', eq, List.map_map]
      · rcases first.moves o ho with stays | ⟨inGroup, n, above, moved⟩
        · rcases rest.moves (f o) (member o ho) with stays' | ⟨m, le, moved'⟩
          · exact Or.inl (stays'.trans stays)
          · rw [stays] at le
            exact Or.inr ⟨m, le, moved'.trans (by rw [stays])⟩
        · have lt : o.requestGeneration < n :=
            above o ho _ (by rw [inGroup, generation_of_group inGroup])
          rcases rest.moves (f o) (member o ho) with stays' | ⟨m, le, moved'⟩
          · exact Or.inr ⟨n, lt.le, stays'.trans moved⟩
          · rw [moved] at le
            exact Or.inr ⟨m, lt.le.trans le, moved'.trans (by rw [moved]; rfl)⟩
      · have stays : f o = o := by
          rcases first.moves o ho with stays | ⟨inGroup, _⟩
          · exact stays
          · exact absurd inGroup (absent g List.mem_cons_self)
        have still := rest.untouched (f o) (member o ho) fun k hk => by
          rw [stays]
          exact absent k (List.mem_cons_of_mem _ hk)
        exact still.trans stays
      · have apart : f o ≠ f p := fun same => ne (ids.eq ho hp (by
          rw [← first.orbitId ho, ← first.orbitId hp, same]))
        obtain ⟨new, hgo, hgp⟩ := rest.shared _ (member o ho) _ (member p hp) apart k hgo hgp
        obtain ⟨other, hgo, hgp⟩ := first.shared ho hp ne hgo hgp
        refine ⟨?_, hgo, hgp⟩
        rw [List.mem_cons, not_or]
        exact ⟨other, new⟩

theorem AllRenumbered.group {gs : List (String × ℕ)} (h : AllRenumbered gs orbits f)
    {o : LegacyOrbit} (ho : o ∈ orbits) {r : String} {k : ℕ} (hg : o.group = some (r, k)) :
    ∃ k', k ≤ k' ∧ (f o).group = some (r, k') := by
  rcases h.moves o ho with stays | ⟨n, le, moved⟩
  · rw [stays]
    exact ⟨k, Nat.le_refl _, hg⟩
  · rw [generation_of_group hg] at le
    exact ⟨n, le, moved ▸ group_moved hg⟩

theorem AllRenumbered.mono {gs : List (String × ℕ)} (h : AllRenumbered gs orbits f)
    {o : LegacyOrbit} (ho : o ∈ orbits) : o.requestGeneration ≤ (f o).requestGeneration := by
  rcases h.moves o ho with stays | ⟨n, le, moved⟩
  · rw [stays]
  · rw [moved]
    exact le

theorem AllRenumbered.orbitId {gs : List (String × ℕ)} (h : AllRenumbered gs orbits f)
    {o : LegacyOrbit} (ho : o ∈ orbits) : (f o).orbitId = o.orbitId := by
  rcases h.moves o ho with stays | ⟨n, _, moved⟩
  · rw [stays]
  · rw [moved]
    rfl

/-- One of the rows that share the pair is moved. -/
theorem Renumbered.some_moved (h : Renumbered g orbits f) (shared : Shared orbits g) :
    ∃ q ∈ orbits, q.group = some g ∧
      ∃ n, (∀ p ∈ orbits, ∀ k, p.group = some (g.1, k) → k < n) ∧ f q = q.moved n := by
  obtain ⟨o, ho, p, hp, ne, hgo, hgp⟩ := shared
  rcases h.moves o ho with stays | ⟨_, moved⟩
  · rcases h.moves p hp with stays' | ⟨_, moved⟩
    · have different := h.apart o ho p hp hgo hgp ne
      rw [stays, stays', generation_of_group hgo, generation_of_group hgp] at different
      exact absurd rfl different
    · exact ⟨p, hp, hgp, moved⟩
  · exact ⟨o, ho, hgo, moved⟩

/-- The row that lives is moved past the others of its request. -/
theorem Renumbered.leads (h : Renumbered g orbits f) (shared : Shared orbits g) {x : LegacyOrbit}
    (hx : x ∈ orbits) (hgx : x.group = some g) (live : x.live = true)
    (alone : ∀ p ∈ orbits, p ≠ x → p.group = some g → p.live = false) {p : LegacyOrbit}
    (hp : p ∈ orbits) (ne : p ≠ x) {k : ℕ} (hgp : p.group = some (g.1, k)) :
    (f p).requestGeneration < (f x).requestGeneration := by
  by_cases same : p.group = some g
  · exact h.last x hx p hp hgx same live (alone p hp ne same)
  · have stays : f p = p := by
      rcases h.moves p hp with stays | ⟨inGroup, _⟩
      · exact stays
      · exact absurd inGroup same
    rcases h.moves x hx with still | ⟨_, n, above, moved⟩
    · -- it cannot stay: the row that is moved would pass it
      obtain ⟨q, hq, hgq, n, above, moved⟩ := h.some_moved shared
      have below : g.2 < n := above x hx g.2 hgx
      have apart : q ≠ x := by
        rintro rfl
        have generation := congrArg LegacyOrbit.requestGeneration (still.symm.trans moved)
        rw [generation_of_group hgx] at generation
        exact absurd generation below.ne
      have lt := h.last x hx q hq hgx hgq live (alone q hq apart hgq)
      rw [still, moved, generation_of_group hgx] at lt
      exact absurd lt (Nat.lt_asymm below)
    · rw [stays, moved, generation_of_group hgp]
      exact above p hp k hgp

/-- What holds of the rows after one renumbering more. -/
theorem foldl_cons_eq {db : Db} (ids : Table.Distinct LegacyOrbit.orbitId db.orbits)
    {gs : List (String × ℕ)} (eq : ((g :: gs).foldl Db.renumber db).orbits = db.orbits.map f) :
    ∃ f₁ f₂, Renumbered g db.orbits f₁ ∧ AllRenumbered gs (db.orbits.map f₁) f₂ ∧
      ∀ o ∈ db.orbits, f o = f₂ (f₁ o) := by
  obtain ⟨f₁, eq₁, first⟩ := renumber_spec ids g
  have ids₁ : Table.Distinct LegacyOrbit.orbitId (db.renumber g).orbits := eq₁ ▸ first.ids ids
  obtain ⟨f₂, eq₂, rest⟩ := foldl_renumber ids₁ gs
  rw [List.foldl_cons, eq₂, eq₁, List.map_map] at eq
  refine ⟨f₁, f₂, first, eq₁ ▸ rest, fun o ho => ?_⟩
  exact (List.map_inj_left.mp eq o ho).symm

/-- A row that the renumberings from `g` on leave is passed by one of the generation `g`. -/
theorem foldl_cons_passes {db : Db} (ids : Table.Distinct LegacyOrbit.orbitId db.orbits)
    {gs : List (String × ℕ)} (eq : ((g :: gs).foldl Db.renumber db).orbits = db.orbits.map f)
    (shared : Shared db.orbits g) {o : LegacyOrbit} (ho : o ∈ db.orbits) {k : ℕ}
    (hgo : o.group = some (g.1, k)) (left : ∀ h ∈ g :: gs, o.group ≠ some h) :
    ∃ q ∈ db.orbits, q.group = some g ∧ (f o).requestGeneration < (f q).requestGeneration := by
  obtain ⟨f₁, f₂, first, rest, step⟩ := foldl_cons_eq ids eq
  obtain ⟨q, hq, hgq, n, above, moved⟩ := first.some_moved shared
  refine ⟨q, hq, hgq, ?_⟩
  have stays : f₁ o = o := by
    rcases first.moves o ho with stays | ⟨inGroup, _⟩
    · exact stays
    · exact absurd inGroup (left g List.mem_cons_self)
  have still : f₂ (f₁ o) = f₁ o := rest.untouched _ (List.mem_map_of_mem ho) fun h hh => by
    rw [stays]
    exact left h (List.mem_cons_of_mem _ hh)
  have grows : n ≤ (f₂ (f₁ q)).requestGeneration := by
    have mono := rest.mono (List.mem_map_of_mem hq)
    rw [moved] at mono ⊢
    exact mono
  rw [step o ho, step q hq, still, stays, generation_of_group hgo]
  exact lt_of_lt_of_le (above o ho k hgo) grows

/-- The row that lives leads its request once its generation, the last of the request, is
renumbered. -/
theorem foldl_cons_leads {db : Db} (ids : Table.Distinct LegacyOrbit.orbitId db.orbits)
    {gs : List (String × ℕ)} (eq : ((g :: gs).foldl Db.renumber db).orbits = db.orbits.map f)
    (shared : Shared db.orbits g) (others : ∀ h ∈ gs, h.1 ≠ g.1) {x : LegacyOrbit}
    (hx : x ∈ db.orbits) (hgx : x.group = some g) (live : x.live = true)
    (alone : ∀ p ∈ db.orbits, p ≠ x → p.group = some g → p.live = false) {p : LegacyOrbit}
    (hp : p ∈ db.orbits) (ne : p ≠ x) {k : ℕ} (hgp : p.group = some (g.1, k)) :
    (f p).requestGeneration < (f x).requestGeneration := by
  obtain ⟨f₁, f₂, first, rest, step⟩ := foldl_cons_eq ids eq
  have still : ∀ o ∈ db.orbits, ∀ k, o.group = some (g.1, k) → f₂ (f₁ o) = f₁ o := by
    intro o ho k hgo
    refine rest.untouched _ (List.mem_map_of_mem ho) fun h hh same => others h hh ?_
    rcases first.moves o ho with stays | ⟨_, n, _, moved⟩
    · rw [stays, hgo] at same
      cases same
      rfl
    · rw [moved, group_moved hgo] at same
      cases same
      rfl
  rw [step p hp, step x hx, still p hp k hgp, still x hx g.2 hgx]
  exact first.leads shared hx hgx live alone hp ne hgp

/-- The renumberings before `g` leave its rows, and bring no row to its generation. -/
theorem AllRenumbered.away {gs : List (String × ℕ)} (h : AllRenumbered gs orbits f)
    (fresh : g ∉ gs) {o : LegacyOrbit} (ho : o ∈ orbits) (hg : o.group = some g) : f o = o := by
  refine h.untouched o ho fun k hk same => fresh ?_
  rw [hg] at same
  cases same
  exact hk

theorem AllRenumbered.not_brought {gs : List (String × ℕ)} (h : AllRenumbered gs orbits f)
    (fresh : g ∉ gs) (shared : Shared orbits g) {o : LegacyOrbit} (ho : o ∈ orbits)
    (hg : (f o).group = some g) : o.group = some g := by
  obtain ⟨p, hp, q, hq, ne, hgp, hgq⟩ := shared
  have twin : ∃ p ∈ orbits, o ≠ p ∧ p.group = some g := by
    by_cases same : o = p
    · exact ⟨q, hq, same ▸ ne, hgq⟩
    · exact ⟨p, hp, same, hgp⟩
  obtain ⟨p, hp, ne, hgp⟩ := twin
  have stays := h.away fresh hp hgp
  exact (h.shared o ho p hp ne g hg (by rw [stays]; exact hgp)).2.1

theorem AllRenumbered.shares {gs : List (String × ℕ)} (h : AllRenumbered gs orbits f)
    (fresh : g ∉ gs) (shared : Shared orbits g) : Shared (orbits.map f) g := by
  obtain ⟨p, hp, q, hq, ne, hgp, hgq⟩ := shared
  refine ⟨f p, List.mem_map_of_mem hp, f q, List.mem_map_of_mem hq, ?_, ?_, ?_⟩
  · rw [h.away fresh hp hgp, h.away fresh hq hgq]
    exact ne
  · rw [h.away fresh hp hgp]
    exact hgp
  · rw [h.away fresh hq hgq]
    exact hgq

/-- What holds of the rows between the renumberings before `g` and the others. -/
theorem foldl_append_eq {db : Db} (ids : Table.Distinct LegacyOrbit.orbitId db.orbits)
    {before gs : List (String × ℕ)}
    (eq : ((before ++ gs).foldl Db.renumber db).orbits = db.orbits.map f) :
    ∃ db' f₁ f₂, db'.orbits = db.orbits.map f₁ ∧ AllRenumbered before db.orbits f₁ ∧
      Table.Distinct LegacyOrbit.orbitId db'.orbits ∧
      (gs.foldl Db.renumber db').orbits = db'.orbits.map f₂ ∧
      ∀ o ∈ db.orbits, f o = f₂ (f₁ o) := by
  obtain ⟨f₁, eq₁, first⟩ := foldl_renumber ids before
  have ids₁ : Table.Distinct LegacyOrbit.orbitId (before.foldl Db.renumber db).orbits := by
    rw [Table.Distinct, eq₁, List.map_map]
    exact (List.map_congr_left fun o ho => (first.orbitId ho).symm) ▸ ids
  obtain ⟨f₂, eq₂, rest⟩ := foldl_renumber ids₁ gs
  rw [List.foldl_append, eq₂, eq₁, List.map_map] at eq
  exact ⟨_, f₁, f₂, eq₁, first, ids₁, eq₂, fun o ho => (List.map_inj_left.mp eq o ho).symm⟩

/-- The generation comes out on top of its request: it is the last of the shared ones, or none is
shared and none is larger. -/
def Heads (orbits : List LegacyOrbit) (g : String × ℕ) : Prop :=
  (Shared orbits g ∧ ∀ k, Shared orbits (g.1, k) → k ≤ g.2) ∨
    (∀ k, ¬ Shared orbits (g.1, k)) ∧
      ∀ p ∈ orbits, ∀ k, p.group = some (g.1, k) → k ≤ g.2

/-- The duplicated generations in their order, taken apart at one of them. -/
theorem duplicateGenerations_split {db : Db}
    (ids : Table.Distinct LegacyOrbit.orbitId db.orbits) (shared : Shared db.orbits g) :
    ∃ before after, db.duplicateGenerations = before ++ g :: after ∧ g ∉ before ∧
      ∀ h ∈ after, h ∉ before ∧ toLex g < toLex h := by
  have sorted : db.duplicateGenerations.Pairwise fun a b => toLex a ≤ toLex b := by
    have total : Std.Total fun a b : String × ℕ => toLex a ≤ toLex b :=
      ⟨fun a b => le_total (toLex a) (toLex b)⟩
    have trans : IsTrans (String × ℕ) fun a b => toLex a ≤ toLex b := ⟨fun _ _ _ => le_trans⟩
    exact List.pairwise_insertionSort _ _
  have nodup : db.duplicateGenerations.Nodup :=
    (List.perm_insertionSort _ _).nodup_iff.mpr ((List.nodup_dedup _).filter _)
  obtain ⟨before, after, eq⟩ := List.append_of_mem ((mem_duplicateGenerations ids).mpr shared)
  rw [eq] at sorted nodup
  rw [List.nodup_append, List.nodup_cons] at nodup
  obtain ⟨_, ⟨fresh, _⟩, apart⟩ := nodup
  refine ⟨before, after, eq, fun hg => apart g hg g List.mem_cons_self rfl, fun h hh => ⟨?_, ?_⟩⟩
  · exact fun earlier => apart h earlier h (List.mem_cons_of_mem _ hh) rfl
  · have le := List.rel_of_pairwise_cons (List.pairwise_append.mp sorted).2.1 hh
    refine lt_of_le_of_ne le fun same => fresh ?_
    rw [toLex.injective same]
    exact hh

/-- A row outside the shared generations from `h` on is passed by a row of `h`. -/
theorem passed {db : Db} (ids : Table.Distinct LegacyOrbit.orbitId db.orbits)
    (eq : (db.duplicateGenerations.foldl Db.renumber db).orbits = db.orbits.map f)
    {x : LegacyOrbit} (hx : x ∈ db.orbits) (hgx : x.group = some g) {h : String × ℕ}
    (same : h.1 = g.1) (shared : Shared db.orbits h)
    (outside : ∀ h', toLex h ≤ toLex h' → Shared db.orbits h' → h' ≠ g) :
    ∃ q ∈ db.orbits, q.group = some h ∧ (f x).requestGeneration < (f q).requestGeneration := by
  obtain ⟨before, after, split, fresh, later⟩ := duplicateGenerations_split ids shared
  rw [split] at eq
  obtain ⟨db', f₁, f₂, eq₁, first, ids₁, eq₂, step⟩ := foldl_append_eq ids eq
  have member : ∀ o ∈ db.orbits, f₁ o ∈ db'.orbits := fun o ho =>
    eq₁ ▸ List.mem_map_of_mem ho
  have from_h : ∀ h' ∈ h :: after, h' ∉ before ∧ toLex h ≤ toLex h' ∧ Shared db.orbits h' := by
    intro h' hh'
    have listed : h' ∈ db.duplicateGenerations := by
      rw [split]
      exact List.mem_append_right _ hh'
    refine ⟨?_, ?_, (mem_duplicateGenerations ids).mp listed⟩
    · rcases List.mem_cons.mp hh' with rfl | hh'
      · exact fresh
      · exact (later h' hh').1
    · rcases List.mem_cons.mp hh' with rfl | hh'
      · exact le_refl _
      · exact (later h' hh').2.le
  obtain ⟨k, _, hgx₁⟩ := first.group hx (r := g.1) (k := g.2) hgx
  obtain ⟨q', hq', hgq', lt⟩ := foldl_cons_passes ids₁ eq₂
    (by rw [eq₁]; exact first.shares fresh shared) (member x hx) (by rw [same]; exact hgx₁)
    (fun h' hh' moved => by
      obtain ⟨absent, le, shared'⟩ := from_h h' hh'
      have still := first.not_brought absent shared' hx moved
      rw [hgx] at still
      exact outside h' le shared' (Option.some.inj still).symm)
  rw [eq₁] at hq'
  obtain ⟨q, hq, rfl⟩ := List.mem_map.mp hq'
  refine ⟨q, hq, first.not_brought fresh shared hq hgq', ?_⟩
  rw [step x hx, step q hq]
  exact lt

/-- The row that lives alone leads its request exactly if its generation heads it. -/
theorem leads_iff {db : Db} (ids : Table.Distinct LegacyOrbit.orbitId db.orbits)
    (eq : (db.duplicateGenerations.foldl Db.renumber db).orbits = db.orbits.map f)
    {x : LegacyOrbit} (hx : x ∈ db.orbits) (hgx : x.group = some g) (live : x.live = true)
    (alone : ∀ p ∈ db.orbits, p ≠ x → ∀ k, p.group = some (g.1, k) → p.live = false) :
    (∀ p ∈ db.orbits, p ≠ x → ∀ k, p.group = some (g.1, k) →
      (f p).requestGeneration < (f x).requestGeneration) ↔ Heads db.orbits g := by
  obtain ⟨f', eq', all⟩ := foldl_renumber ids db.duplicateGenerations
  have agrees : ∀ o ∈ db.orbits, f o = f' o := by
    rw [eq] at eq'
    exact List.map_inj_left.mp eq'
  constructor
  · intro leads
    -- a row of another shared generation may not pass
    have behind : ∀ h, h.1 = g.1 → Shared db.orbits h →
        ¬ ∀ h', toLex h ≤ toLex h' → Shared db.orbits h' → h' ≠ g := by
      intro h same shared outside
      obtain ⟨q, hq, hgq, lt⟩ := passed ids eq hx hgx same shared outside
      have ne : q ≠ x := by
        rintro rfl
        exact Nat.lt_irrefl _ lt
      exact Nat.lt_asymm lt (leads q hq ne h.2 (by rw [hgq, ← same]))
    by_cases shared : Shared db.orbits g
    · refine Or.inl ⟨shared, fun k several => ?_⟩
      by_contra larger
      refine behind (g.1, k) rfl several fun h' le _ => ?_
      rintro rfl
      rw [Prod.Lex.toLex_le_toLex] at le
      simp only [lt_self_iff_false, false_or, true_and] at le
      exact larger le
    · refine Or.inr ⟨fun k several => ?_, fun p hp k hgp => ?_⟩
      · refine behind (g.1, k) rfl several fun h' _ shared' => ?_
        rintro rfl
        exact shared shared'
      · by_cases same : p = x
        · rw [same, hgx] at hgp
          exact (congrArg Prod.snd (Option.some.inj hgp)).ge
        · have lt := leads p hp same k hgp
          have stays : f' x = x := by
            refine all.untouched x hx fun h hh inGroup => shared ?_
            rw [hgx] at inGroup
            cases inGroup
            exact (mem_duplicateGenerations ids).mp hh
          rw [agrees p hp, agrees x hx, stays, generation_of_group hgx] at lt
          have mono := all.mono hp
          rw [generation_of_group hgp] at mono
          exact (lt_of_le_of_lt mono lt).le
  · rintro (⟨shared, largest⟩ | ⟨free, largest⟩) p hp ne k hgp
    · obtain ⟨before, after, split, fresh, later⟩ := duplicateGenerations_split ids shared
      have last : ∀ h ∈ after, h.1 ≠ g.1 := by
        intro h hh same
        have shared' : Shared db.orbits h := by
          refine (mem_duplicateGenerations ids).mp ?_
          rw [split]
          exact List.mem_append_right _ (List.mem_cons_of_mem _ hh)
        have lt := (later h hh).2
        rw [Prod.Lex.toLex_lt_toLex, same] at lt
        simp only [lt_self_iff_false, false_or, true_and] at lt
        exact absurd (largest h.2 (by rw [← same]; exact shared')) (not_le.mpr lt)
      rw [split] at eq
      obtain ⟨db', f₁, f₂, eq₁, first, ids₁, eq₂, step⟩ := foldl_append_eq ids eq
      have member : ∀ o ∈ db.orbits, f₁ o ∈ db'.orbits := fun o ho =>
        eq₁ ▸ List.mem_map_of_mem ho
      have stays : f₁ x = x := first.away fresh hx hgx
      obtain ⟨k', _, hgp'⟩ := first.group hp hgp
      rw [step p hp, step x hx, stays]
      refine foldl_cons_leads ids₁ eq₂ (by rw [eq₁]; exact first.shares fresh shared) last
        (stays ▸ member x hx) hgx live ?_ (member p hp) ?_ hgp'
      · intro q' hq' apart inGroup
        rw [eq₁] at hq'
        obtain ⟨q, hq, rfl⟩ := List.mem_map.mp hq'
        have hgq := first.not_brought fresh shared hq inGroup
        rw [first.away fresh hq hgq] at apart ⊢
        exact alone q hq apart g.2 hgq
      · intro same
        refine ne ?_
        rw [← stays] at same
        exact ids.eq hp hx (by rw [← first.orbitId hp, ← first.orbitId hx, same])
    · have stays : ∀ o ∈ db.orbits, ∀ k, o.group = some (g.1, k) → f' o = o := by
        intro o ho k hgo
        refine all.untouched o ho fun h hh inGroup => free k ?_
        rw [hgo] at inGroup
        cases inGroup
        exact (mem_duplicateGenerations ids).mp hh
      rw [agrees p hp, agrees x hx, stays p hp k hgp, stays x hx g.2 hgx, generation_of_group hgp,
        generation_of_group hgx]
      refine lt_of_le_of_ne (largest p hp k hgp) fun same => free k ?_
      subst same
      exact ⟨p, hp, x, hx, ne, hgp, hgx⟩

end

end Omd.Migration
