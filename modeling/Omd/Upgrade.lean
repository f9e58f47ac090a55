import Omd.Renumbering

/-!
# What the migration of a legacy database does

The rows that wait get what they lack, the tickets in the order of their age, and every row keeps
what it is.  A database that has been migrated is settled: it lacks nothing, so that it is left
alone when the server starts again.

The newest row of a request is the one that lives exactly if its generation heads the request.
-/

namespace Omd.Migration

open Lib

/-! ## The rows that wait -/

namespace LegacyOrbit

variable (o : LegacyOrbit)

/-- A row with the columns of the queue. -/
def filled (now : Time) (ticket : ℤ) (pathDigest : String) : LegacyOrbit :=
  { o with
    queueSeq := some ticket
    requestedTtl := some (o.requestedTtl.getD 600)
    policyVersion := some (orDefault o.policyVersion legacyPolicyVersion)
    pathspecDigest := some pathDigest
    requestId := some (orDefault o.requestId ("internal:" ++ o.orbitId))
    enqueuedAt := some (o.enqueuedAt.getD (o.createdAt.unbotD now))
    waitDeadline := some (o.waitDeadline.getD (o.enqueuedAt.getD (o.createdAt.unbotD now) + 3600)) }

/-- The row under the request that it is given. -/
def named : LegacyOrbit :=
  if o.incomplete then
    { o with requestId := some (orDefault o.requestId ("internal:" ++ o.orbitId)) }
  else o

/-- The pathspec has a digest, or can be given one. -/
def Digestible : Prop :=
  o.pathspecDigest.filter (· ≠ "") = none → ∃ paths, normalizePathspec o.pathspec = .ok paths

/-- A pending path orbit without a ticket. -/
def Unticketed : Prop := o.kind = .orbit ∧ o.state = .PENDING ∧ o.queueSeq = none

end LegacyOrbit

section Backfill

variable {digest : List String → String} {now : Time}

/-- What the backfill of a row writes, when its pathspec can be digested. -/
theorem backfill_eq_ok {db db' : Db} {row : LegacyOrbit} :
    db.backfill digest now row = .ok db' → row.Digestible ∧ ∃ d, db' =
      { db with
        seq := if row.queueSeq.isSome then db.seq else db.seq + 1
        orbits := Table.modify LegacyOrbit.orbitId row.orbitId (fun o =>
          { o with
            queueSeq := some (row.queueSeq.getD (db.seq + 1))
            requestedTtl := some (row.requestedTtl.getD 600)
            policyVersion := some (orDefault row.policyVersion legacyPolicyVersion)
            pathspecDigest := some d
            requestId := some (orDefault row.requestId ("internal:" ++ row.orbitId))
            enqueuedAt := some (row.enqueuedAt.getD (row.createdAt.unbotD now))
            waitDeadline := some (row.waitDeadline.getD
              (row.enqueuedAt.getD (row.createdAt.unbotD now) + 3600)) }) db.orbits } := by
  intro done
  rw [Db.backfill, Outcome.bind_eq_ok] at done
  obtain ⟨d, found, same⟩ := done
  rw [Outcome.pure_eq_ok] at same
  refine ⟨fun without => ?_, d, same.symm⟩
  rw [LegacyOrbit.digestOr, without] at found
  cases normal : normalizePathspec row.pathspec with
  | error e =>
      rw [normal] at found
      cases found
  | ok paths => exact ⟨paths, rfl⟩

theorem exists_backfill (db : Db) {row : LegacyOrbit} (can : row.Digestible) :
    ∃ db', db.backfill digest now row = .ok db' := by
  rw [Db.backfill, LegacyOrbit.digestOr]
  cases stored : row.pathspecDigest.filter (· ≠ "") with
  | some d => exact ⟨_, rfl⟩
  | none =>
      obtain ⟨paths, normal⟩ := can stored
      rw [normal]
      exact ⟨_, rfl⟩

/-- The backfill fails on no row that can be digested. -/
theorem exists_backfillRows {rows : List LegacyOrbit} (can : ∀ a ∈ rows, a.Digestible) (db : Db) :
    ∃ db', Db.backfillRows digest now rows db = .ok db' := by
  induction rows generalizing db with
  | nil => exact ⟨db, rfl⟩
  | cons a rows ih =>
      obtain ⟨db₁, first⟩ : ∃ db₁, db.backfill digest now a = .ok db₁ :=
        exists_backfill db (can a List.mem_cons_self)
      obtain ⟨db', rest⟩ := ih (fun b hb => can b (List.mem_cons_of_mem _ hb)) db₁
      refine ⟨db', ?_⟩
      rw [Db.backfillRows, Outcome.bind_eq_ok]
      exact ⟨db₁, first, rest⟩

/-- What the loop over the pending rows does to the tables. -/
structure Backfilled (now : Time) (rows : List LegacyOrbit) (db db' : Db)
    (f : LegacyOrbit → LegacyOrbit) : Prop where
  orbits : db'.orbits = db.orbits.map f
  tasks : db'.tasks = db.tasks
  idempotency : db'.idempotency = db.idempotency
  repoBound : db'.repoBoundColumn = db.repoBoundColumn
  seq : db.seq ≤ db'.seq
  digestible : ∀ a ∈ rows, a.Digestible
  others : ∀ o ∈ db.orbits, o.orbitId ∉ rows.map LegacyOrbit.orbitId → f o = o
  fills : ∀ a ∈ rows, ∃ t d, f a = a.filled now t d ∧
    (a.queueSeq = some t ∨ a.queueSeq = none ∧ db.seq < t ∧ t ≤ db'.seq)
  order : rows.Pairwise fun a b => a.queueSeq = none → b.queueSeq = none →
    ∀ t t', (f a).queueSeq = some t → (f b).queueSeq = some t' → t < t'

/-- The loop fills the rows in their order, and draws the tickets one by one. -/
theorem backfillRows_spec {rows : List LegacyOrbit} {db db' : Db}
    (ids : Table.Distinct LegacyOrbit.orbitId db.orbits) (sub : ∀ a ∈ rows, a ∈ db.orbits)
    (distinct : Table.Distinct LegacyOrbit.orbitId rows)
    (done : Db.backfillRows digest now rows db = .ok db') : ∃ f, Backfilled now rows db db' f := by
  induction rows generalizing db with
  | nil =>
      cases done
      exact ⟨id, (List.map_id _).symm, rfl, rfl, rfl, le_refl _, by simp, fun _ _ _ => rfl, by simp,
        List.Pairwise.nil⟩
  | cons a rows ih =>
      rw [Db.backfillRows, Outcome.bind_eq_ok] at done
      obtain ⟨db₁, first, done⟩ := done
      obtain ⟨can, d, eq₁⟩ := backfill_eq_ok first
      rw [Table.Distinct, List.map_cons, List.nodup_cons] at distinct
      have apart : ∀ b ∈ rows, b.orbitId ≠ a.orbitId := fun b hb same =>
        distinct.1 (same ▸ List.mem_map_of_mem hb)
      have ha := sub a List.mem_cons_self
      -- the row that is rewritten is the one that was read
      have rows₁ : db₁.orbits = db.orbits.map fun o =>
          if o.orbitId = a.orbitId then a.filled now (a.queueSeq.getD (db.seq + 1)) d else o := by
        rw [eq₁, Table.modify]
        refine List.map_congr_left fun o ho => ?_
        by_cases same : o.orbitId = a.orbitId
        · obtain rfl := ids.eq ho ha same
          rfl
        · rw [if_neg same, if_neg same]
      have seq₁ : db₁.seq = if a.queueSeq.isSome then db.seq else db.seq + 1 := by
        rw [eq₁]
      have grows : db.seq ≤ db₁.seq := by
        rw [seq₁]
        split <;> omega
      have member : ∀ o ∈ db.orbits, o.orbitId ≠ a.orbitId → o ∈ db₁.orbits := by
        intro o ho ne
        rw [rows₁, List.mem_map]
        exact ⟨o, ho, if_neg ne⟩
      have rewritten : a.filled now (a.queueSeq.getD (db.seq + 1)) d ∈ db₁.orbits := by
        rw [rows₁, List.mem_map]
        exact ⟨a, ha, if_pos rfl⟩
      have ids₁ : Table.Distinct LegacyOrbit.orbitId db₁.orbits := by
        rw [rows₁]
        refine ids.map fun o => ?_
        split
        · rename_i same
          exact same.symm
        · rfl
      obtain ⟨f, rest⟩ := ih ids₁
        (fun b hb => member b (sub b (List.mem_cons_of_mem _ hb)) (apart b hb)) distinct.2 done
      have still : f (a.filled now (a.queueSeq.getD (db.seq + 1)) d) =
          a.filled now (a.queueSeq.getD (db.seq + 1)) d := rest.others _ rewritten distinct.1
      refine ⟨fun o => f (if o.orbitId = a.orbitId then
        a.filled now (a.queueSeq.getD (db.seq + 1)) d else o), ?_⟩
      constructor
      · rw [rest.orbits, rows₁, List.map_map]
        rfl
      · rw [rest.tasks, eq₁]
      · rw [rest.idempotency, eq₁]
      · rw [rest.repoBound, eq₁]
      · exact le_trans grows rest.seq
      · intro b hb
        rcases List.mem_cons.mp hb with rfl | hb
        · exact can
        · exact rest.digestible b hb
      · intro o ho absent
        rw [List.map_cons, List.mem_cons, not_or] at absent
        rw [if_neg absent.1]
        exact rest.others o (member o ho absent.1) absent.2
      · intro b hb
        rcases List.mem_cons.mp hb with rfl | hb
        · refine ⟨b.queueSeq.getD (db.seq + 1), d, ?_, ?_⟩
          · rw [if_pos rfl]
            exact still
          · cases ticket : b.queueSeq with
            | some t => exact Or.inl rfl
            | none =>
                rw [ticket] at seq₁
                have bound := rest.seq
                rw [seq₁] at bound
                exact Or.inr ⟨rfl, Int.lt_succ _, bound⟩
        · obtain ⟨t, d', eq, ticket⟩ := rest.fills b hb
          refine ⟨t, d', ?_, ?_⟩
          · rw [if_neg (apart b hb)]
            exact eq
          · rcases ticket with ticket | ⟨none, lower, upper⟩
            · exact Or.inl ticket
            · exact Or.inr ⟨none, lt_of_le_of_lt grows lower, upper⟩
      · rw [List.pairwise_cons]
        constructor
        · intro b hb missing missing' t t' ht ht'
          rw [if_pos rfl, still, LegacyOrbit.filled, missing] at ht
          rw [if_neg (apart b hb)] at ht'
          obtain ⟨t₂, d', eq, ticket⟩ := rest.fills b hb
          rw [eq] at ht'
          cases ht
          cases ht'
          rcases ticket with ticket | ⟨_, lower, _⟩
          · rw [missing'] at ticket
            cases ticket
          · rw [missing] at seq₁
            rw [seq₁] at lower
            exact lower
        · refine rest.order.imp_of_mem fun {b c} hb hc increasing => ?_
          rw [if_neg (apart b hb), if_neg (apart c hc)]
          exact increasing

end Backfill

/-! ## Every row -/

/-- What the migration leaves of a row. -/
structure Kept (a b : LegacyOrbit) : Prop where
  orbitId : b.orbitId = a.orbitId
  kind : b.kind = a.kind
  state : b.state = a.state
  agentId : b.agentId = a.agentId
  pathspec : b.pathspec = a.pathspec
  fence : b.fence = a.fence
  createdAt : b.createdAt = a.createdAt

/-- Columns that are kept twice are kept. -/
theorem Kept.trans {a b c : LegacyOrbit} (h : Kept a b) (h' : Kept b c) : Kept a c where
  orbitId := h'.orbitId.trans h.orbitId
  kind := h'.kind.trans h.kind
  state := h'.state.trans h.state
  agentId := h'.agentId.trans h.agentId
  pathspec := h'.pathspec.trans h.pathspec
  fence := h'.fence.trans h.fence
  createdAt := h'.createdAt.trans h.createdAt

theorem Kept.live {a b : LegacyOrbit} (h : Kept a b) : b.live = a.live := by
  rw [LegacyOrbit.live, LegacyOrbit.live, h.state]

/-- Renumbering leaves every other column. -/
theorem AllRenumbered.kept {gs : List (String × ℕ)} {orbits : List LegacyOrbit}
    {f : LegacyOrbit → LegacyOrbit} (h : AllRenumbered gs orbits f) {o : LegacyOrbit}
    (ho : o ∈ orbits) : Kept o (f o) := by
  rcases h.moves o ho with stays | ⟨n, _, moved⟩
  · rw [stays]
    exact ⟨rfl, rfl, rfl, rfl, rfl, rfl, rfl⟩
  · rw [moved]
    exact ⟨rfl, rfl, rfl, rfl, rfl, rfl, rfl⟩

section Tickets

variable {db : Db}

/-- The counter is raised above the tickets there are. -/
theorem le_raiseSeq {t : ℤ} (ht : t ∈ db.tickets) : t ≤ db.raiseSeq.seq := by
  rw [Db.raiseSeq]
  cases top : db.tickets.max? with
  | none =>
      rw [List.max?_eq_none_iff.mp top] at ht
      cases ht
  | some m =>
      have le := (List.max?_eq_some_iff.mp top).2 t ht
      dsimp only
      split
      · exact le
      · omega

theorem raiseSeq_of_le (h : ∀ t ∈ db.tickets, t ≤ db.seq) : db.raiseSeq = db := by
  rw [Db.raiseSeq]
  cases top : db.tickets.max? with
  | none => rfl
  | some m =>
      have le := h m (List.max?_eq_some_iff.mp top).1
      exact if_neg (by omega)

@[simp] theorem raiseSeq_orbits : db.raiseSeq.orbits = db.orbits := by
  rw [Db.raiseSeq]
  split
  · rfl
  · split <;> rfl

@[simp] theorem raiseSeq_repoBound : db.raiseSeq.repoBoundColumn = db.repoBoundColumn := by
  rw [Db.raiseSeq]
  split
  · rfl
  · split <;> rfl

@[simp] theorem addColumns_orbits : db.addColumns.orbits = db.orbits := by
  rw [Db.addColumns]
  split <;> rfl

theorem addColumns_repoBound : db.addColumns.repoBoundColumn = true := by
  rw [Db.addColumns]
  split
  · assumption
  · rfl

theorem mem_tickets {t : ℤ} :
    t ∈ db.tickets ↔ ∃ o ∈ db.orbits, o.kind = .orbit ∧ o.queueSeq = some t := by
  rw [Db.tickets, List.mem_filterMap]
  refine exists_congr fun o => and_congr_right fun _ => ?_
  split <;> simp_all

/-- No two tickets are the same when no two path orbits share one. -/
theorem nodup_tickets (ids : Table.Distinct LegacyOrbit.orbitId db.orbits) :
    db.tickets.Nodup ↔ ∀ o ∈ db.orbits, ∀ p ∈ db.orbits, o ≠ p → o.kind = .orbit →
      p.kind = .orbit → ∀ t, o.queueSeq = some t → p.queueSeq ≠ some t := by
  rw [Db.tickets, List.Nodup, List.pairwise_filterMap]
  constructor
  · intro apart o ho p hp ne kind kind' t hot hpt
    rcases pairwise_or apart ho hp ne with h | h
    · exact h t (by rw [if_pos kind, hot]) t (by rw [if_pos kind', hpt]) rfl
    · exact h t (by rw [if_pos kind', hpt]) t (by rw [if_pos kind, hot]) rfl
  · intro free
    have nodup : db.orbits.Nodup := List.Nodup.of_map _ ids
    refine nodup.imp_of_mem fun {o p} ho hp ne t ht t' ht' same => ?_
    subst same
    by_cases kind : o.kind = .orbit
    · by_cases kind' : p.kind = .orbit
      · rw [if_pos kind] at ht
        rw [if_pos kind'] at ht'
        exact free o ho p hp ne kind kind' t ht ht'
      · rw [if_neg kind'] at ht'
        cases ht'
    · rw [if_neg kind] at ht
      cases ht

end Tickets

/-- The rows before the generations are made unique. -/
structure Completed (db db' : Db) (f : LegacyOrbit → LegacyOrbit) : Prop where
  orbits : db'.orbits = db.orbits.map f
  kept : ∀ o ∈ db.orbits, Kept o (f o)
  generation : ∀ o ∈ db.orbits, (f o).requestGeneration = o.requestGeneration
  request : ∀ o ∈ db.orbits, (f o).requestId = o.named.requestId
  complete : ∀ o ∈ db.orbits, (f o).incomplete = false
  schema : ∀ o ∈ db.orbits, ((f o).decisionId.isSome && (f o).decisionSchema.isNone) = false
  digestible : ∀ o ∈ db.orbits, o.incomplete = true → o.Digestible
  ticketed : ∀ o ∈ db.orbits, ∀ t, o.queueSeq = some t → (f o).queueSeq = some t
  unticketed : ∀ o ∈ db.orbits, o.queueSeq = none → ¬ o.Unticketed → (f o).queueSeq = none
  fresh : ∀ o ∈ db.orbits, o.Unticketed →
    ∃ t, (f o).queueSeq = some t ∧ (∀ t' ∈ db.tickets, t' < t) ∧ t ≤ db'.seq
  order : ∀ o ∈ db.orbits, ∀ p ∈ db.orbits, o.Unticketed → p.Unticketed → o.age < p.age →
    ∀ t t', (f o).queueSeq = some t → (f p).queueSeq = some t' → t < t'
  above : ∀ t ∈ db.tickets, t ≤ db'.seq
  repoBound : db'.repoBoundColumn = true

section Completed

variable {digest : List String → String} {now : Time} {db db' : Db}

/-- A row with the schema of its decision. -/
def LegacyOrbit.schemaNamed (o : LegacyOrbit) : LegacyOrbit :=
  if o.decisionId.isSome && o.decisionSchema.isNone then
    { o with decisionSchema := some "admission_decision/v1" }
  else o

/-- Naming the schema leaves the other columns. -/
theorem schemaNamed_cases (o : LegacyOrbit) :
    ∃ schema, o.schemaNamed = { o with decisionSchema := schema } ∧
      (o.decisionId.isSome && schema.isNone) = false := by
  rw [LegacyOrbit.schemaNamed]
  by_cases without : (o.decisionId.isSome && o.decisionSchema.isNone) = true
  · rw [if_pos without]
    exact ⟨_, rfl, by simp⟩
  · rw [if_neg without]
    exact ⟨o.decisionSchema, rfl, Bool.eq_false_iff.mpr without⟩

/-- A row that was filled is not picked again. -/
theorem incomplete_filled (o : LegacyOrbit) (t : ℤ) (d : String) :
    (o.filled now t d).incomplete = false := by
  simp [LegacyOrbit.incomplete, LegacyOrbit.filled]

theorem LegacyOrbit.Unticketed.incomplete {o : LegacyOrbit} (h : o.Unticketed) :
    o.incomplete = true := by
  obtain ⟨kind, state, missing⟩ := h
  simp [LegacyOrbit.incomplete, kind, state, missing]

theorem unticketed_of_incomplete {o : LegacyOrbit} (h : o.incomplete = true)
    (missing : o.queueSeq = none) : o.Unticketed := by
  simp only [LegacyOrbit.incomplete, Bool.and_eq_true, decide_eq_true_eq] at h
  exact ⟨h.1.1, h.1.2, missing⟩

theorem mem_legacyRows {o : LegacyOrbit} :
    o ∈ db.legacyRows ↔ o ∈ db.orbits ∧ o.incomplete = true := by
  rw [Db.legacyRows, List.mem_insertionSort, List.mem_filter]

/-- The rows are filled from the oldest to the youngest. -/
theorem pairwise_legacyRows (db : Db) : db.legacyRows.Pairwise fun a b => a.age ≤ b.age := by
  have total : Std.Total fun a b : LegacyOrbit => a.age ≤ b.age :=
    ⟨fun a b => le_total a.age b.age⟩
  have trans : IsTrans LegacyOrbit fun a b => a.age ≤ b.age := ⟨fun _ _ _ => le_trans⟩
  exact List.pairwise_insertionSort _ _

/-- After the backfill every row is complete, and those that were are as before. -/
theorem completed_of_backfill (ids : Table.Distinct LegacyOrbit.orbitId db.orbits)
    (done : Db.backfillRows digest now db.addColumns.raiseSeq.legacyRows db.addColumns.raiseSeq =
      .ok db') : ∃ f, Completed db db'.nameSchemas f := by
  have same : db.addColumns.raiseSeq.orbits = db.orbits := by simp
  have mem : ∀ o, o ∈ db.addColumns.raiseSeq.legacyRows ↔
      o ∈ db.orbits ∧ o.incomplete = true := by
    intro o
    rw [mem_legacyRows, same]
  have sorted := pairwise_legacyRows db.addColumns.raiseSeq
  have distinct : Table.Distinct LegacyOrbit.orbitId db.addColumns.raiseSeq.legacyRows := by
    rw [Table.Distinct, Db.legacyRows, same]
    exact ((List.perm_insertionSort _ _).map LegacyOrbit.orbitId).nodup_iff.mpr (ids.filter _)
  have bound : ∀ t ∈ db.tickets, t ≤ db.addColumns.raiseSeq.seq := by
    intro t ht
    refine le_raiseSeq ?_
    rw [mem_tickets, addColumns_orbits]
    exact mem_tickets.mp ht
  obtain ⟨g, filled⟩ := backfillRows_spec (same ▸ ids)
    (fun a ha => same ▸ ((mem a).mp ha).1) distinct done
  have row : ∀ o ∈ db.orbits, (o.incomplete = false ∧ g o = o) ∨ (o.incomplete = true ∧
      ∃ t d, g o = o.filled now t d ∧ (o.queueSeq = some t ∨ o.queueSeq = none ∧
        db.addColumns.raiseSeq.seq < t ∧ t ≤ db'.seq)) := by
    intro o ho
    cases lacks : o.incomplete with
    | true => exact Or.inr ⟨rfl, filled.fills o ((mem o).mpr ⟨ho, lacks⟩)⟩
    | false =>
        refine Or.inl ⟨rfl, filled.others o (same ▸ ho) fun listed => ?_⟩
        obtain ⟨a, ha, named⟩ := List.mem_map.mp listed
        obtain ⟨ha, lacks'⟩ := (mem a).mp ha
        rw [ids.eq ha ho named, lacks] at lacks'
        cases lacks'
  refine ⟨fun o => (g o).schemaNamed, ?_⟩
  constructor
  · rw [show db'.nameSchemas.orbits = db'.orbits.map LegacyOrbit.schemaNamed from rfl,
      filled.orbits, same, List.map_map]
    rfl
  · intro o ho
    obtain ⟨schema, eq, _⟩ := schemaNamed_cases (g o)
    rw [eq]
    rcases row o ho with ⟨_, stays⟩ | ⟨_, t, d, filled, _⟩
    · rw [stays]
      exact ⟨rfl, rfl, rfl, rfl, rfl, rfl, rfl⟩
    · rw [filled]
      exact ⟨rfl, rfl, rfl, rfl, rfl, rfl, rfl⟩
  · intro o ho
    obtain ⟨schema, eq, _⟩ := schemaNamed_cases (g o)
    rw [eq]
    rcases row o ho with ⟨_, stays⟩ | ⟨_, t, d, filled, _⟩
    · rw [stays]
    · rw [filled]
      rfl
  · intro o ho
    obtain ⟨schema, eq, _⟩ := schemaNamed_cases (g o)
    rw [eq, LegacyOrbit.named]
    rcases row o ho with ⟨complete, stays⟩ | ⟨lacks, t, d, filled, _⟩
    · rw [stays, complete]
      rfl
    · rw [filled, lacks]
      rfl
  · intro o ho
    obtain ⟨schema, eq, _⟩ := schemaNamed_cases (g o)
    rw [eq]
    rcases row o ho with ⟨complete, stays⟩ | ⟨_, t, d, filled, _⟩
    · rw [stays]
      exact complete
    · rw [filled]
      exact incomplete_filled o t d
  · intro o ho
    obtain ⟨schema, eq, named⟩ := schemaNamed_cases (g o)
    rw [eq]
    exact named
  · exact fun o ho lacks => filled.digestible o ((mem o).mpr ⟨ho, lacks⟩)
  · intro o ho t ticket
    obtain ⟨schema, eq, _⟩ := schemaNamed_cases (g o)
    rw [eq]
    rcases row o ho with ⟨_, stays⟩ | ⟨_, t', d, filled, own | ⟨missing, _⟩⟩
    · rw [stays]
      exact ticket
    · rw [filled]
      exact own.symm.trans ticket
    · rw [missing] at ticket
      cases ticket
  · intro o ho missing away
    obtain ⟨schema, eq, _⟩ := schemaNamed_cases (g o)
    rw [eq]
    rcases row o ho with ⟨_, stays⟩ | ⟨lacks, _⟩
    · rw [stays]
      exact missing
    · exact absurd (unticketed_of_incomplete lacks missing) away
  · intro o ho waits
    obtain ⟨schema, eq, _⟩ := schemaNamed_cases (g o)
    rcases row o ho with ⟨complete, _⟩ | ⟨_, t, d, filled, own | ⟨_, lower, upper⟩⟩
    · rw [waits.incomplete] at complete
      cases complete
    · rw [waits.2.2] at own
      cases own
    · refine ⟨t, ?_, fun t' ht' => lt_of_le_of_lt (bound t' ht') lower, upper⟩
      rw [eq, filled]
      rfl
  · intro o ho p hp waits waits' older t t' hot hpt
    obtain ⟨schema, eq, _⟩ := schemaNamed_cases (g o)
    obtain ⟨schema', eq', _⟩ := schemaNamed_cases (g p)
    rw [eq] at hot
    rw [eq'] at hpt
    have ne : o ≠ p := by
      rintro rfl
      exact lt_irrefl _ older
    rcases pairwise_or (sorted.and filled.order) ((mem o).mpr ⟨ho, waits.incomplete⟩)
      ((mem p).mpr ⟨hp, waits'.incomplete⟩) ne with first | second
    · exact first.2 waits.2.2 waits'.2.2 t t' hot hpt
    · exact absurd second.1 (not_le.mpr older)
  · exact fun t ht => le_trans (bound t ht) filled.seq
  · exact filled.repoBound.trans (by rw [raiseSeq_repoBound, addColumns_repoBound])

theorem group_eq_some {o : LegacyOrbit} {r : String} {k : ℕ} :
    o.group = some (r, k) ↔ o.kind = .orbit ∧ o.requestId = some r ∧ o.requestGeneration = k := by
  rw [LegacyOrbit.group]
  split <;> simp_all [and_comm]

@[simp] theorem named_kind (o : LegacyOrbit) : o.named.kind = o.kind := by
  rw [LegacyOrbit.named]
  split <;> rfl

@[simp] theorem named_generation (o : LegacyOrbit) :
    o.named.requestGeneration = o.requestGeneration := by
  rw [LegacyOrbit.named]
  split <;> rfl

@[simp] theorem named_orbitId (o : LegacyOrbit) : o.named.orbitId = o.orbitId := by
  rw [LegacyOrbit.named]
  split <;> rfl

variable {f : LegacyOrbit → LegacyOrbit}

theorem Completed.group (h : Completed db db' f) {o : LegacyOrbit} (ho : o ∈ db.orbits) :
    (f o).group = o.named.group := by
  rw [LegacyOrbit.group, LegacyOrbit.group, (h.kept o ho).kind, named_kind, h.request o ho,
    h.generation o ho, named_generation]

theorem Completed.ids (h : Completed db db' f)
    (ids : Table.Distinct LegacyOrbit.orbitId db.orbits) :
    Table.Distinct LegacyOrbit.orbitId db'.orbits := by
  have same : (db.orbits.map f).map LegacyOrbit.orbitId = db.orbits.map LegacyOrbit.orbitId := by
    rw [List.map_map]
    exact List.map_congr_left fun o ho => (h.kept o ho).orbitId
  rw [Table.Distinct, h.orbits, same]
  exact ids

theorem Completed.inj (h : Completed db db' f)
    (ids : Table.Distinct LegacyOrbit.orbitId db.orbits) {o p : LegacyOrbit} (ho : o ∈ db.orbits)
    (hp : p ∈ db.orbits) (ne : o ≠ p) : f o ≠ f p := by
  intro same
  refine ne (ids.eq ho hp ?_)
  rw [← (h.kept o ho).orbitId, ← (h.kept p hp).orbitId, same]

/-- The tickets that are drawn clash with none. -/
theorem Completed.tickets (h : Completed db db' f)
    (ids : Table.Distinct LegacyOrbit.orbitId db.orbits) :
    db'.tickets.Nodup ↔ db.tickets.Nodup := by
  rw [nodup_tickets (h.ids ids), nodup_tickets ids, h.orbits]
  constructor
  · intro free o ho p hp ne kind kind' t hot hpt
    refine free (f o) (List.mem_map_of_mem ho) (f p) (List.mem_map_of_mem hp)
      (h.inj ids ho hp ne) ?_ ?_ t (h.ticketed o ho t hot) (h.ticketed p hp t hpt)
    · exact (h.kept o ho).kind.trans kind
    · exact (h.kept p hp).kind.trans kind'
  · intro free a ha b hb ne kind kind' t hat hbt
    obtain ⟨o, ho, rfl⟩ := List.mem_map.mp ha
    obtain ⟨p, hp, rfl⟩ := List.mem_map.mp hb
    have apart : o ≠ p := fun same => ne (congrArg f same)
    rw [(h.kept o ho).kind] at kind
    rw [(h.kept p hp).kind] at kind'
    -- an old ticket is below a new one, and the new ones follow the age
    have below : ∀ {o p : LegacyOrbit}, o ∈ db.orbits → o.kind = .orbit → p ∈ db.orbits →
        p.Unticketed → ∀ t', o.queueSeq = some t' → (f p).queueSeq ≠ some t' := by
      intro o p ho kind hp waits t' hot hpt
      obtain ⟨t'', ticket, above, _⟩ := h.fresh p hp waits
      have lt := above t' (mem_tickets.mpr ⟨o, ho, kind, hot⟩)
      rw [ticket] at hpt
      cases hpt
      exact lt_irrefl _ lt
    have waits : ∀ {o : LegacyOrbit}, o ∈ db.orbits → o.queueSeq = none →
        (f o).queueSeq = some t → o.Unticketed := by
      intro o ho missing ticket
      by_contra away
      rw [h.unticketed o ho missing away] at ticket
      cases ticket
    cases hot : o.queueSeq with
    | some t' =>
        have same := (h.ticketed o ho t' hot).symm.trans hat
        cases same
        cases hpt : p.queueSeq with
        | some t'' =>
            have same := (h.ticketed p hp t'' hpt).symm.trans hbt
            cases same
            exact free o ho p hp apart kind kind' t hot hpt
        | none => exact below ho kind hp (waits hp hpt hbt) t hot hbt
    | none =>
        have waits_o := waits ho hot hat
        cases hpt : p.queueSeq with
        | some t'' =>
            have same := (h.ticketed p hp t'' hpt).symm.trans hbt
            cases same
            exact below hp kind' ho waits_o t hpt hat
        | none =>
            have waits_p := waits hp hpt hbt
            have different : o.age ≠ p.age := by
              intro same
              refine apart (ids.eq ho hp ?_)
              exact congrArg (fun age => (ofLex age).2) same
            rcases lt_or_gt_of_ne different with older | younger
            · exact lt_irrefl t (h.order o ho p hp waits_o waits_p older t t hat hbt)
            · exact lt_irrefl t (h.order p hp o ho waits_p waits_o younger t t hbt hat)

theorem shared_map {orbits : List LegacyOrbit}
    (ids : Table.Distinct LegacyOrbit.orbitId orbits)
    (keeps : ∀ o ∈ orbits, (f o).orbitId = o.orbitId) {k : String × ℕ} :
    Shared (orbits.map f) k ↔
      ∃ o ∈ orbits, ∃ p ∈ orbits, o ≠ p ∧ (f o).group = some k ∧ (f p).group = some k := by
  constructor
  · rintro ⟨a, ha, b, hb, ne, hga, hgb⟩
    obtain ⟨o, ho, rfl⟩ := List.mem_map.mp ha
    obtain ⟨p, hp, rfl⟩ := List.mem_map.mp hb
    exact ⟨o, ho, p, hp, fun same => ne (congrArg f same), hga, hgb⟩
  · rintro ⟨o, ho, p, hp, ne, hgo, hgp⟩
    refine ⟨f o, List.mem_map_of_mem ho, f p, List.mem_map_of_mem hp, fun same => ne ?_, hgo, hgp⟩
    refine ids.eq ho hp ?_
    rw [← keeps o ho, ← keeps p hp, same]

/-- The backfill makes no two rows share a generation that did not by their names. -/
theorem Completed.shared (h : Completed db db' f)
    (ids : Table.Distinct LegacyOrbit.orbitId db.orbits) {k : String × ℕ} :
    Shared db'.orbits k ↔ Shared (db.orbits.map LegacyOrbit.named) k := by
  rw [h.orbits, shared_map ids fun o ho => (h.kept o ho).orbitId,
    shared_map ids fun o _ => named_orbitId o]
  constructor
  · rintro ⟨o, ho, p, hp, ne, hgo, hgp⟩
    rw [h.group ho] at hgo
    rw [h.group hp] at hgp
    exact ⟨o, ho, p, hp, ne, hgo, hgp⟩
  · rintro ⟨o, ho, p, hp, ne, hgo, hgp⟩
    rw [← h.group ho] at hgo
    rw [← h.group hp] at hgp
    exact ⟨o, ho, p, hp, ne, hgo, hgp⟩

theorem Completed.heads (h : Completed db db' f)
    (ids : Table.Distinct LegacyOrbit.orbitId db.orbits) {g : String × ℕ} :
    Heads db'.orbits g ↔ Heads (db.orbits.map LegacyOrbit.named) g := by
  have largest : (∀ p ∈ db'.orbits, ∀ k, p.group = some (g.1, k) → k ≤ g.2) ↔
      ∀ p ∈ db.orbits.map LegacyOrbit.named, ∀ k, p.group = some (g.1, k) → k ≤ g.2 := by
    rw [h.orbits, List.forall_mem_map, List.forall_mem_map]
    constructor
    · intro all o ho
      rw [← h.group ho]
      exact all o ho
    · intro all o ho
      rw [h.group ho]
      exact all o ho
  simp only [Heads, h.shared ids, largest]

end Completed

/-! ## The migration -/

section Migrate

variable {digest : List String → String} {now : Time} {db db' : Db}

/-- The renumbering leaves no generation to two rows. -/
theorem nodup_groups_renumbered (ids : Table.Distinct LegacyOrbit.orbitId db.orbits) :
    (db.duplicateGenerations.foldl Db.renumber db).groups.Nodup := by
  obtain ⟨f, eq, all⟩ := foldl_renumber ids db.duplicateGenerations
  have keeps : ∀ o ∈ db.orbits, (f o).orbitId = o.orbitId := fun o ho => all.orbitId ho
  have ids' : Table.Distinct LegacyOrbit.orbitId
      (db.duplicateGenerations.foldl Db.renumber db).orbits := by
    rw [Table.Distinct, eq, List.map_map]
    exact (List.map_congr_left fun o ho => (keeps o ho).symm) ▸ ids
  rw [nodup_groups ids', eq]
  intro k several
  obtain ⟨o, ho, p, hp, ne, hgo, hgp⟩ := (shared_map ids keeps).mp several
  obtain ⟨absent, before⟩ := all.shared o ho p hp ne k hgo hgp
  exact absent ((mem_duplicateGenerations ids).mpr ⟨o, ho, p, hp, ne, before⟩)

theorem foldl_renumber_seq (db : Db) (gs : List (String × ℕ)) :
    (gs.foldl Db.renumber db).seq = db.seq ∧
      (gs.foldl Db.renumber db).repoBoundColumn = db.repoBoundColumn := by
  induction gs generalizing db with
  | nil => exact ⟨rfl, rfl⟩
  | cons g gs ih => exact ih (db.renumber g)

/-- The migration goes through exactly if the pathspecs can be digested and no two tickets are
the same. -/
theorem migrate_eq_ok (ids : Table.Distinct LegacyOrbit.orbitId db.orbits) :
    db.migrate digest now = .ok db' ↔ ∃ db₁, Db.backfillRows digest now
      db.addColumns.raiseSeq.legacyRows db.addColumns.raiseSeq = .ok db₁ ∧ db.tickets.Nodup ∧
        db' = db₁.nameSchemas.duplicateGenerations.foldl Db.renumber db₁.nameSchemas := by
  rw [Db.migrate]
  dsimp only
  rw [Outcome.bind_eq_ok]
  refine exists_congr fun db₁ => and_congr_right fun filled => ?_
  obtain ⟨f, completed⟩ := completed_of_backfill ids filled
  rw [← completed.tickets ids]
  by_cases distinct : db₁.nameSchemas.tickets.Nodup
  · rw [if_neg (not_not_intro distinct),
      if_neg (not_not_intro (nodup_groups_renumbered (completed.ids ids)))]
    simp [distinct, eq_comm]
  · rw [if_pos distinct]
    simp [distinct]

/-- A database that lacks nothing. -/
structure Settled (db : Db) : Prop where
  repoBound : db.repoBoundColumn = true
  seq : ∀ t ∈ db.tickets, t ≤ db.seq
  complete : ∀ o ∈ db.orbits, o.incomplete = false
  schema : ∀ o ∈ db.orbits, (o.decisionId.isSome && o.decisionSchema.isNone) = false
  tickets : db.tickets.Nodup
  generations : db.groups.Nodup

/-- A table that was upgraded is left as it is. -/
theorem Settled.migrate (h : Settled db) (ids : Table.Distinct LegacyOrbit.orbitId db.orbits) :
    db.migrate digest now = .ok db := by
  have columns : db.addColumns.raiseSeq = db := by
    rw [Db.addColumns, if_pos h.repoBound]
    exact raiseSeq_of_le h.seq
  have nothing : db.legacyRows = [] := by
    refine List.eq_nil_iff_forall_not_mem.mpr fun o ho => ?_
    obtain ⟨ho, lacks⟩ := mem_legacyRows.mp ho
    rw [h.complete o ho] at lacks
    cases lacks
  have schemas : db.nameSchemas = db := by
    have same : db.orbits.map LegacyOrbit.schemaNamed = db.orbits := by
      conv_rhs => rw [← List.map_id db.orbits]
      refine List.map_congr_left fun o ho => if_neg ?_
      rw [h.schema o ho]
      exact Bool.false_ne_true
    change { db with orbits := db.orbits.map LegacyOrbit.schemaNamed } = db
    rw [same]
  have unique : db.duplicateGenerations = [] := by
    refine List.eq_nil_iff_forall_not_mem.mpr fun k hk => ?_
    exact (nodup_groups ids).mp h.generations k ((mem_duplicateGenerations ids).mp hk)
  rw [migrate_eq_ok ids, columns, nothing]
  refine ⟨db, rfl, h.tickets, ?_⟩
  rw [schemas, unique]
  rfl

/-- What a migration that went through did to the rows. -/
theorem migrate_spec (ids : Table.Distinct LegacyOrbit.orbitId db.orbits)
    (done : db.migrate digest now = .ok db') : ∃ db₁ f f₁ f₂, Completed db db₁ f₁ ∧
      db' = db₁.duplicateGenerations.foldl Db.renumber db₁ ∧ db'.orbits = db₁.orbits.map f₂ ∧
      AllRenumbered db₁.duplicateGenerations db₁.orbits f₂ ∧ db'.orbits = db.orbits.map f ∧
      ∀ o ∈ db.orbits, f₁ o ∈ db₁.orbits ∧ f o = f₂ (f₁ o) := by
  obtain ⟨db₁, filled, _, eq⟩ := (migrate_eq_ok ids).mp done
  obtain ⟨f₁, completed⟩ := completed_of_backfill ids filled
  obtain ⟨f₂, eq₂, all⟩ := foldl_renumber (completed.ids ids) db₁.nameSchemas.duplicateGenerations
  refine ⟨db₁.nameSchemas, f₂ ∘ f₁, f₁, f₂, completed, eq, eq ▸ eq₂, all, ?_, fun o ho => ⟨?_, rfl⟩⟩
  · rw [eq, eq₂, completed.orbits, List.map_map]
  · rw [completed.orbits]
    exact List.mem_map_of_mem ho

theorem migrate_ids (ids : Table.Distinct LegacyOrbit.orbitId db.orbits)
    (done : db.migrate digest now = .ok db') :
    Table.Distinct LegacyOrbit.orbitId db'.orbits := by
  obtain ⟨db₁, f, f₁, f₂, completed, _, _, all, orbits, rows⟩ := migrate_spec ids done
  rw [Table.Distinct, orbits, List.map_map]
  refine (List.map_congr_left fun o ho => ?_) ▸ ids
  obtain ⟨member, same⟩ := rows o ho
  exact ((congrArg LegacyOrbit.orbitId same).trans
    ((all.kept member).orbitId.trans (completed.kept o ho).orbitId)).symm

/-- A database that has been migrated lacks nothing. -/
theorem settled_of_migrate (ids : Table.Distinct LegacyOrbit.orbitId db.orbits)
    (done : db.migrate digest now = .ok db') : Settled db' := by
  obtain ⟨_, _, distinct, _⟩ := (migrate_eq_ok ids).mp done
  have ids' := migrate_ids ids done
  obtain ⟨db₁, f, f₁, f₂, completed, eq, orbits, all, _, _⟩ := migrate_spec ids done
  obtain ⟨seq, repoBound⟩ := foldl_renumber_seq db₁ db₁.duplicateGenerations
  rw [← eq] at seq repoBound
  -- a row that is moved keeps its columns and loses its decision
  have row : ∀ o ∈ db'.orbits, ∃ a ∈ db.orbits, o = f₁ a ∨ ∃ n, o = (f₁ a).moved n := by
    intro o ho
    rw [orbits] at ho
    obtain ⟨b, hb, rfl⟩ := List.mem_map.mp ho
    have hb' := hb
    rw [completed.orbits] at hb'
    obtain ⟨a, ha, rfl⟩ := List.mem_map.mp hb'
    rcases all.moves _ hb with stays | ⟨n, _, moved⟩
    · exact ⟨a, ha, Or.inl stays⟩
    · exact ⟨a, ha, Or.inr ⟨n, moved⟩⟩
  have ticket : ∀ b ∈ db₁.orbits, (f₂ b).kind = b.kind ∧ (f₂ b).queueSeq = b.queueSeq := by
    intro b hb
    rcases all.moves b hb with stays | ⟨n, _, moved⟩
    · rw [stays]
      exact ⟨rfl, rfl⟩
    · rw [moved]
      exact ⟨rfl, rfl⟩
  have same : db'.tickets = db₁.tickets := by
    rw [Db.tickets, Db.tickets, orbits, List.filterMap_map]
    refine List.filterMap_congr fun b hb => ?_
    obtain ⟨kind, seq⟩ := ticket b hb
    simp only [Function.comp_apply, kind, seq]
  constructor
  · exact repoBound.trans completed.repoBound
  · intro t ht
    rw [seq]
    rw [same, mem_tickets, completed.orbits] at ht
    obtain ⟨b, hb, kind, hbt⟩ := ht
    obtain ⟨o, ho, rfl⟩ := List.mem_map.mp hb
    rw [(completed.kept o ho).kind] at kind
    by_cases waits : o.Unticketed
    · obtain ⟨t', ticket, _, le⟩ := completed.fresh o ho waits
      rw [ticket] at hbt
      cases hbt
      exact le
    · cases hot : o.queueSeq with
      | none =>
          rw [completed.unticketed o ho hot waits] at hbt
          cases hbt
      | some t' =>
          rw [completed.ticketed o ho t' hot] at hbt
          cases hbt
          exact completed.above t (mem_tickets.mpr ⟨o, ho, kind, hot⟩)
  · intro o ho
    obtain ⟨a, ha, rfl | ⟨n, rfl⟩⟩ := row o ho
    · exact completed.complete a ha
    · exact completed.complete a ha
  · intro o ho
    obtain ⟨a, ha, rfl | ⟨n, rfl⟩⟩ := row o ho
    · exact completed.schema a ha
    · rfl
  · rw [same]
    exact (completed.tickets ids).mpr distinct
  · rw [eq]
    exact nodup_groups_renumbered (completed.ids ids)

/-- Where the generations are unique, the newest row is the one whose generation is largest. -/
theorem latest_iff (ids : Table.Distinct LegacyOrbit.orbitId db.orbits)
    (generations : db.groups.Nodup) {x : LegacyOrbit} (hx : x ∈ db.orbits) {r : String} {k : ℕ}
    (hgx : x.group = some (r, k)) : db.latestOrbitByRequest r = some x ↔
      ∀ p ∈ db.orbits, p ≠ x → ∀ k', p.group = some (r, k') →
        p.requestGeneration < x.requestGeneration := by
  have mem : ∀ p, p ∈ (db.orbits.filter fun o =>
      o.kind = .orbit && o.requestId = some r).insertionSort (fun a b => b.newness ≤ a.newness) ↔
        p ∈ db.orbits ∧ p.group = some (r, p.requestGeneration) := by
    intro p
    rw [List.mem_insertionSort, List.mem_filter, group_eq_some]
    simp
  have sorted : ((db.orbits.filter fun o =>
      o.kind = .orbit && o.requestId = some r).insertionSort fun a b =>
        b.newness ≤ a.newness).Pairwise fun a b => b.newness ≤ a.newness := by
    have total : Std.Total fun a b : LegacyOrbit => b.newness ≤ a.newness :=
      ⟨fun a b => le_total b.newness a.newness⟩
    have trans : IsTrans LegacyOrbit fun a b => b.newness ≤ a.newness :=
      ⟨fun _ _ _ h h' => le_trans h' h⟩
    exact List.pairwise_insertionSort _ _
  have apart : ∀ p ∈ db.orbits, p ≠ x → ∀ k', p.group = some (r, k') →
      p.requestGeneration ≠ x.requestGeneration := by
    intro p hp ne k' hgp same
    refine (nodup_groups ids).mp generations (r, k) ⟨p, hp, x, hx, ne, ?_, hgx⟩
    rw [generation_of_group hgp, generation_of_group hgx] at same
    rw [hgp, show k' = k from same]
  have own : x.group = some (r, x.requestGeneration) := by
    rw [hgx, generation_of_group hgx]
  rw [Db.latestOrbitByRequest]
  generalize (db.orbits.filter fun o => o.kind = .orbit && o.requestId = some r).insertionSort
    (fun a b => b.newness ≤ a.newness) = rows at mem sorted ⊢
  cases rows with
  | nil => cases (mem x).mpr ⟨hx, own⟩
  | cons first rows =>
      rw [List.head?_cons, Option.some.injEq]
      have le : ∀ p ∈ rows, p.requestGeneration ≤ first.requestGeneration := by
        intro p hp
        have le := List.rel_of_pairwise_cons sorted hp
        rw [LegacyOrbit.newness, LegacyOrbit.newness, Prod.Lex.toLex_le_toLex] at le
        omega
      constructor
      · rintro rfl p hp ne k' hgp
        have listed := (mem p).mpr ⟨hp, by rw [hgp, generation_of_group hgp]⟩
        rcases List.mem_cons.mp listed with same | later
        · exact absurd same ne
        · exact lt_of_le_of_ne (le p later) (apart p hp ne k' hgp)
      · intro leads
        by_contra ne
        obtain ⟨member, group⟩ := (mem first).mp List.mem_cons_self
        have lt := leads first member ne _ group
        rcases List.mem_cons.mp ((mem x).mpr ⟨hx, own⟩) with same | later
        · exact ne same.symm
        · exact absurd (le x later) (not_le.mpr lt)

/-- What a database must be for its migration: no two tickets are the same, what waits without a
digest has a pathspec, and of every request the row that lives is alone and its generation comes
out on top. -/
structure Ready (db : Db) : Prop where
  tickets : db.tickets.Nodup
  digestible : ∀ o ∈ db.orbits, o.incomplete = true → o.Digestible
  heads : ∀ x ∈ db.orbits, x.live = true → ∀ r k, x.named.group = some (r, k) →
    (∀ p ∈ db.orbits, p ≠ x → ∀ k', p.named.group = some (r, k') → p.live = false) ∧
      Heads (db.orbits.map LegacyOrbit.named) (r, k)

/-- What the comments of the migration say it does. -/
structure Upgraded (db db' : Db) (f : LegacyOrbit → LegacyOrbit) : Prop where
  orbits : db'.orbits = db.orbits.map f
  kept : ∀ o ∈ db.orbits, Kept o (f o)
  generations : db'.groups.Nodup
  tickets : db'.tickets.Nodup
  fresh : ∀ o ∈ db.orbits, o.Unticketed →
    ∃ t, (f o).queueSeq = some t ∧ ∀ t' ∈ db.tickets, t' < t
  order : ∀ o ∈ db.orbits, ∀ p ∈ db.orbits, o.Unticketed → p.Unticketed →
    o.createdAt < p.createdAt → ∀ t t', (f o).queueSeq = some t → (f p).queueSeq = some t' → t < t'
  latest : ∀ x ∈ db'.orbits, x.live = true → ∀ r k, x.group = some (r, k) →
    db'.latestOrbitByRequest r = some x
  again : ∀ digest now, db'.migrate digest now = .ok db'

/-- A live row that is alone comes out on top exactly if its generation does. -/
theorem latest_migrated (ids : Table.Distinct LegacyOrbit.orbitId db.orbits)
    (done : db.migrate digest now = .ok db') {db₁ : Db} {f₁ f₂ : LegacyOrbit → LegacyOrbit}
    (completed : Completed db db₁ f₁)
    (eq : db' = db₁.duplicateGenerations.foldl Db.renumber db₁)
    (orbits : db'.orbits = db₁.orbits.map f₂)
    (all : AllRenumbered db₁.duplicateGenerations db₁.orbits f₂) {x : LegacyOrbit}
    (hx : x ∈ db.orbits) (live : x.live = true) {r : String} {k : ℕ}
    (hgx : x.named.group = some (r, k))
    (alone : ∀ p ∈ db.orbits, p ≠ x → ∀ k', p.named.group = some (r, k') → p.live = false) :
    db'.latestOrbitByRequest r = some (f₂ (f₁ x)) ↔
      Heads (db.orbits.map LegacyOrbit.named) (r, k) := by
  have ids₁ := completed.ids ids
  have ids' := migrate_ids ids done
  have member : ∀ o ∈ db.orbits, f₁ o ∈ db₁.orbits := by
    intro o ho
    rw [completed.orbits]
    exact List.mem_map_of_mem ho
  have group₁ : (f₁ x).group = some (r, k) := (completed.group hx).trans hgx
  obtain ⟨k', _, group'⟩ := all.group (member x hx) group₁
  have inj : ∀ p ∈ db₁.orbits, p ≠ f₁ x → f₂ p ≠ f₂ (f₁ x) := by
    intro p hp ne same
    refine ne (ids₁.eq hp (member x hx) ?_)
    rw [← all.orbitId hp, ← all.orbitId (member x hx), same]
  rw [latest_iff ids' (settled_of_migrate ids done).generations
    (orbits ▸ List.mem_map_of_mem (member x hx)) group', ← completed.heads ids,
    ← leads_iff ids₁ (eq ▸ orbits) (member x hx) group₁ ((completed.kept x hx).live.trans live)]
  · constructor
    · intro leads p hp ne k'' hgp
      obtain ⟨k₂, _, hgp₂⟩ := all.group hp hgp
      exact leads (f₂ p) (orbits ▸ List.mem_map_of_mem hp) (inj p hp ne) k₂ hgp₂
    · intro leads q hq ne k'' hgq
      rw [orbits] at hq
      obtain ⟨p, hp, rfl⟩ := List.mem_map.mp hq
      refine leads p hp (fun same => ne (congrArg f₂ same)) p.requestGeneration ?_
      obtain ⟨kind, request, _⟩ := group_eq_some.mp hgq
      rcases all.moves p hp with stays | ⟨n, _, moved⟩
      · rw [stays] at kind request
        exact group_eq_some.mpr ⟨kind, request, rfl⟩
      · rw [moved] at kind request
        exact group_eq_some.mpr ⟨kind, request, rfl⟩
  · intro p hp ne k'' hgp
    rw [completed.orbits] at hp
    obtain ⟨o, ho, rfl⟩ := List.mem_map.mp hp
    rw [(completed.kept o ho).live]
    exact alone o ho (fun same => ne (congrArg f₁ same)) k'' ((completed.group ho).symm.trans hgp)

/-- The migration upgrades a table that is ready. -/
theorem upgraded_of_ready (ids : Table.Distinct LegacyOrbit.orbitId db.orbits) (ready : Ready db)
    (digest : List String → String) (now : Time) :
    ∃ db' f, db.migrate digest now = .ok db' ∧ Upgraded db db' f := by
  have can : ∀ a ∈ db.addColumns.raiseSeq.legacyRows, a.Digestible := by
    intro a ha
    obtain ⟨ha, lacks⟩ := mem_legacyRows.mp ha
    rw [raiseSeq_orbits, addColumns_orbits] at ha
    exact ready.digestible a ha lacks
  obtain ⟨db₁, filled⟩ : ∃ db₁, Db.backfillRows digest now db.addColumns.raiseSeq.legacyRows
      db.addColumns.raiseSeq = .ok db₁ := exists_backfillRows can db.addColumns.raiseSeq
  have done := (migrate_eq_ok ids).mpr ⟨db₁, filled, ready.tickets, rfl⟩
  obtain ⟨db₂, f, f₁, f₂, completed, eq, orbits, all, orbits', rows⟩ := migrate_spec ids done
  generalize db₁.nameSchemas.duplicateGenerations.foldl Db.renumber db₁.nameSchemas = db' at *
  have settled := settled_of_migrate ids done
  have kept : ∀ o ∈ db.orbits, Kept o (f o) := by
    intro o ho
    obtain ⟨member, same⟩ := rows o ho
    rw [same]
    exact (completed.kept o ho).trans (all.kept member)
  have ticket : ∀ o ∈ db.orbits, (f o).queueSeq = (f₁ o).queueSeq := by
    intro o ho
    obtain ⟨member, same⟩ := rows o ho
    rw [same]
    rcases all.moves _ member with stays | ⟨n, _, moved⟩
    · rw [stays]
    · rw [moved]
      rfl
  refine ⟨db', f, done, ?_⟩
  constructor
  · exact orbits'
  · exact kept
  · exact settled.generations
  · exact settled.tickets
  · intro o ho waits
    obtain ⟨t, own, above, _⟩ := completed.fresh o ho waits
    exact ⟨t, (ticket o ho).trans own, above⟩
  · intro o ho p hp waits waits' older t t' hot hpt
    rw [ticket o ho] at hot
    rw [ticket p hp] at hpt
    refine completed.order o ho p hp waits waits' ?_ t t' hot hpt
    rw [LegacyOrbit.age, LegacyOrbit.age, Prod.Lex.toLex_lt_toLex]
    exact Or.inl older
  · intro y hy live r k hgy
    rw [orbits'] at hy
    obtain ⟨x, hx, rfl⟩ := List.mem_map.mp hy
    obtain ⟨member, same⟩ := rows x hx
    rw [(kept x hx).live] at live
    obtain ⟨kind, request, _⟩ := group_eq_some.mp hgy
    have named : x.named.group = some (r, x.requestGeneration) := by
      rw [← completed.group hx]
      refine group_eq_some.mpr ⟨?_, ?_, completed.generation x hx⟩
      · rw [(completed.kept x hx).kind, ← (kept x hx).kind]
        exact kind
      · rw [same] at request
        rcases all.moves _ member with stays | ⟨n, _, moved⟩
        · rw [stays] at request
          exact request
        · rw [moved] at request
          exact request
    obtain ⟨alone, heads⟩ := ready.heads x hx live r _ named
    rw [same]
    exact (latest_migrated ids done completed eq orbits all hx live named alone).mpr heads
  · exact fun digest now => settled.migrate (migrate_ids ids done)

/-- A table that the migration upgrades was ready. -/
theorem ready_of_upgraded (ids : Table.Distinct LegacyOrbit.orbitId db.orbits)
    (done : db.migrate digest now = .ok db') {f : LegacyOrbit → LegacyOrbit}
    (upgraded : Upgraded db db' f) : Ready db := by
  obtain ⟨_, _, distinct, _⟩ := (migrate_eq_ok ids).mp done
  obtain ⟨db₁, f', f₁, f₂, completed, eq, orbits, all, orbits', rows⟩ := migrate_spec ids done
  have newest : ∀ x ∈ db.orbits, x.live = true → ∀ r k, x.named.group = some (r, k) →
      db'.latestOrbitByRequest r = some (f₂ (f₁ x)) := by
    intro x hx live r k hgx
    obtain ⟨member, same⟩ := rows x hx
    obtain ⟨k', _, group'⟩ := all.group member (r := r) (k := k) ((completed.group hx).trans hgx)
    refine upgraded.latest _ (orbits ▸ List.mem_map_of_mem member) ?_ r k' group'
    rw [(all.kept member).live, (completed.kept x hx).live]
    exact live
  refine ⟨distinct, completed.digestible, fun x hx live r k hgx => ?_⟩
  have alone : ∀ p ∈ db.orbits, p ≠ x → ∀ k', p.named.group = some (r, k') → p.live = false := by
    intro p hp ne k' hgp
    by_contra lives
    have same := (newest p hp (by simpa using lives) r k' hgp).symm.trans (newest x hx live r k hgx)
    refine ne (ids.eq hp hx ?_)
    have ids_same := congrArg LegacyOrbit.orbitId (Option.some.inj same)
    rw [all.orbitId (rows p hp).1, all.orbitId (rows x hx).1, (completed.kept p hp).orbitId,
      (completed.kept x hx).orbitId] at ids_same
    exact ids_same
  exact ⟨alone, (latest_migrated ids done completed eq orbits all hx live hgx alone).mp
    (newest x hx live r k hgx)⟩

/-- The migration does what it says exactly if the database is ready for it. -/
theorem migrate_upgrades_iff (ids : Table.Distinct LegacyOrbit.orbitId db.orbits)
    (digest : List String → String) (now : Time) :
    (∃ db' f, db.migrate digest now = .ok db' ∧ Upgraded db db' f) ↔ Ready db := by
  constructor
  · rintro ⟨db', f, done, upgraded⟩
    exact ready_of_upgraded ids done upgraded
  · exact fun ready => upgraded_of_ready ids ready digest now

/-- Each request has one row that lives at most, which carries its largest generation. -/
def OneLive (db : Db) : Prop :=
  ∀ x ∈ db.orbits, x.live = true → ∀ r k, x.group = some (r, k) →
    ∀ p ∈ db.orbits, ∀ k', p.group = some (r, k') → k' ≤ k ∧ (p ≠ x → p.live = false)

/-- Where the row that lives carries the largest generation, its generation heads the request if
it is shared as soon as some generation is. -/
theorem heads_iff_of_largest {orbits : List LegacyOrbit} {r : String} {k : ℕ}
    (largest : ∀ p ∈ orbits, ∀ k', p.group = some (r, k') → k' ≤ k) :
    Heads orbits (r, k) ↔ ∀ k', Shared orbits (r, k') → Shared orbits (r, k) := by
  constructor
  · rintro (⟨shared, _⟩ | ⟨free, _⟩) k' several
    · exact shared
    · exact absurd several (free k')
  · intro own
    by_cases shared : Shared orbits (r, k)
    · refine Or.inl ⟨shared, fun k' several => ?_⟩
      obtain ⟨o, ho, _, _, _, hgo, _⟩ := several
      exact largest o ho k' hgo
    · exact Or.inr ⟨fun k' several => shared (own k' several), largest⟩

/-- Two rows of an old generation have ended, and the row of the new one holds. -/
def endedTwice : Db :=
  { orbits :=
      [{ orbitId := "a", state := .RELEASED, pathspec := ["src"],
         createdAt := ((1 : Time) : WithBot Time), requestId := some "r" },
       { orbitId := "b", state := .RELEASED, pathspec := ["src"],
         createdAt := ((2 : Time) : WithBot Time), requestId := some "r" },
       { orbitId := "c", state := .HELD, pathspec := ["src"],
         createdAt := ((3 : Time) : WithBot Time), requestId := some "r",
         requestGeneration := 1 }] }

theorem migrate_upgrades_iff_endedTwice :
    (∃ db' f, endedTwice.migrate (fun _ => "") 0 = .ok db' ∧ Upgraded endedTwice db' f) ↔
      Ready endedTwice :=
  migrate_upgrades_iff (by unfold Table.Distinct; decide) (fun _ => "") 0

/-- The old row that is moved shadows the one that holds. -/
theorem endedTwice_shadowed : OneLive endedTwice ∧
    ¬ ∃ db' f, endedTwice.migrate (fun _ => "") 0 = .ok db' ∧ Upgraded endedTwice db' f := by
  constructor
  · intro x hx live r k hgx p hp k' hgp
    have above : ∀ p ∈ endedTwice.orbits,
        p.requestGeneration ≤ 1 ∧ (p.live = true → p.orbitId = "c") := by
      decide
    have top : ∀ x ∈ endedTwice.orbits, x.live = true → x.requestGeneration = 1 := by decide
    have ids : Table.Distinct LegacyOrbit.orbitId endedTwice.orbits := by
      unfold Table.Distinct
      decide
    have generation := top x hx live
    rw [generation_of_group hgx] at generation
    have le := (above p hp).1
    rw [generation_of_group hgp] at le
    refine ⟨le.trans (Eq.ge generation), fun ne => ?_⟩
    by_contra lives
    exact ne (ids.eq hp hx (((above p hp).2 (by simpa using lives)).trans
      ((above x hx).2 live).symm))
  · rintro ⟨db', f, done, upgraded⟩
    have newest : ((endedTwice.migrate (fun _ => "") 0).toOption.bind fun db' =>
        (db'.latestOrbitByRequest "r").map LegacyOrbit.orbitId) = some "b" := by
      decide +kernel
    have holding : ((endedTwice.migrate (fun _ => "") 0).toOption.map fun db' =>
        (db'.orbits.filter LegacyOrbit.live).map fun o => (o.orbitId, o.group)) =
          some [("c", some ("r", 1))] := by
      decide +kernel
    rw [done] at newest holding
    change some ((db'.orbits.filter LegacyOrbit.live).map fun o => (o.orbitId, o.group)) = _
      at holding
    have listed : ("c", some ("r", 1)) ∈
        (db'.orbits.filter LegacyOrbit.live).map fun o => (o.orbitId, o.group) := by
      rw [Option.some.inj holding]
      exact List.mem_singleton.mpr rfl
    obtain ⟨x, hx, same⟩ := List.mem_map.mp listed
    obtain ⟨hx, live⟩ := List.mem_filter.mp hx
    rw [Prod.mk.injEq] at same
    have latest := upgraded.latest x hx live "r" 1 same.2
    change (db'.latestOrbitByRequest "r").map LegacyOrbit.orbitId = some "b" at newest
    rw [latest, Option.map_some, same.1] at newest
    exact absurd newest (by decide)

end Migrate

end Omd.Migration
