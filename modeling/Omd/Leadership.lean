import Omd.Store

/-!
# Leadership

The coordinators of one database hold its leader lease in turn.  Every transaction of a
coordinator first compares the lease with its own label and with the epoch it remembers;
the epoch of the lease grows with every grant, so of all the instances only the one that
was granted last can match, whatever the labels, the windows and the clocks are.

A transaction of the database is one step; one that is refused or raises changes nothing.
-/

namespace Omd.Leadership

universe v

/-- The record under `leader_lease`. -/
structure Lease where
  coordinatorId : String
  epoch : ℕ
  startedAt : Time
  lastHeartbeat : Time
  ttl : ℚ
  deriving DecidableEq, Repr

/-- One coordinator process: its label, its window and the epoch it remembers. -/
structure Instance where
  coordinatorId : String
  leaderTtl : ℚ
  leaderEpoch : Option ℕ := none
  deriving DecidableEq, Repr

/-- The database: the lease, and whatever the verbs work on. -/
structure Database (α : Type) where
  lease : Option Lease := none
  data : α

/-- `CoordinatorConflict`, by the check that raised it, or an exception of a verb. -/
inductive Refusal
  | incumbentAlive | takenConcurrently | notLeader | raised
  deriving DecidableEq, Repr

section

variable {α : Type}

/-- `_leader_alive`. -/
def leaderAlive (cur : Option Lease) (now : Time) : Bool :=
  match cur with
  | none => false
  | some l => now - l.lastHeartbeat ≤ l.ttl

/-- `cas_leader`. -/
def casLeader (db : Database α) (expectEpoch : Option ℕ) (lease : Lease) :
    Option (Database α) :=
  if db.lease.map Lease.epoch ≠ expectEpoch then none else some { db with lease := some lease }

/-- The epoch of the next grant. -/
def nextEpoch (cur : Option Lease) : ℕ :=
  match cur with
  | none => 1
  | some l => l.epoch + 1

/-- `_acquire_leadership`. -/
def acquireLeadership (now : Time) (me : Instance) (db : Database α) :
    Except Refusal (Instance × Database α) :=
  let cur := db.lease
  if leaderAlive cur now then .error .incumbentAlive
  else
    let lease : Lease :=
      { coordinatorId := me.coordinatorId
        epoch := nextEpoch cur
        startedAt := now
        lastHeartbeat := now
        ttl := me.leaderTtl }
    match casLeader db (cur.map Lease.epoch) lease with
    | none => .error .takenConcurrently
    | some db => .ok ({ me with leaderEpoch := some (nextEpoch cur) }, db)

/-- The lease is the one this instance was granted. -/
def ownsLease (me : Instance) (cur : Option Lease) : Bool :=
  cur.any fun l => l.coordinatorId = me.coordinatorId && some l.epoch = me.leaderEpoch

/-- `_assert_leader`. -/
def assertLeader (me : Instance) (db : Database α) : Except Refusal Unit :=
  if ownsLease me db.lease then .ok () else .error .notLeader

/-- `coordinator_heartbeat`. -/
def coordinatorHeartbeat (now : Time) (me : Instance) (db : Database α) :
    Except Refusal (Instance × Database α) := do
  assertLeader me db
  assertLeader me db
  .ok (me, { db with lease := db.lease.map fun l => { l with lastHeartbeat := now } })

/-- `resign`. -/
def resign (me : Instance) (db : Database α) : Except Refusal (Instance × Database α) :=
  if ownsLease me db.lease then
    .ok ({ me with leaderEpoch := none },
      { db with lease := db.lease.map fun l => { l with lastHeartbeat := 0 } })
  else .ok (me, db)

/-- A transaction of a verb under `_cs`; `none` is a body that raised. -/
def transaction (body : α → Option α) (me : Instance) (db : Database α) :
    Except Refusal (Instance × Database α) := do
  assertLeader me db
  match body db.data with
  | none => .error .raised
  | some data => .ok (me, { db with data := data })

/-- What an instance does next. -/
inductive Op (α : Type)
  | acquire (now : Time)
  | heartbeat (now : Time)
  | resign
  | mutate (body : α → Option α)

/-- The transaction of an operation. -/
def Op.run : Op α → Instance → Database α → Except Refusal (Instance × Database α)
  | .acquire now => acquireLeadership now
  | .heartbeat now => coordinatorHeartbeat now
  | .resign => Leadership.resign
  | .mutate body => transaction body

end

/-! ## Runs -/

/-- The database and its coordinators, `ι` of them. -/
structure Sys (ι : Type v) (α : Type) where
  db : Database α
  instances : ι → Instance

section

variable {ι : Type v} {α : Type} [DecidableEq ι]

/-- One step: a transaction that is refused is rolled back. -/
def step (σ : Sys ι α) (i : ι) (op : Op α) : Sys ι α :=
  match op.run (σ.instances i) σ.db with
  | .error _ => σ
  | .ok (me, db) => { db := db, instances := Function.update σ.instances i me }

/-- Coordinators that were never granted the lease, on any database. -/
def start (labels : ι → String) (windows : ι → ℚ) (db : Database α) : Sys ι α where
  db := db
  instances := fun i => { coordinatorId := labels i, leaderTtl := windows i }

/-- The states of the run in which instance `(ops n).1` makes the `n`-th step. -/
def states (init : Sys ι α) (ops : ℕ → ι × Op α) : ℕ → Sys ι α
  | 0 => init
  | n + 1 => step (states init ops n) (ops n).1 (ops n).2

/-- The step grants the lease to its instance, under this epoch. -/
def Grants (σ : Sys ι α) (i : ι) (op : Op α) (epoch : ℕ) : Prop :=
  ∃ now, op = .acquire now ∧ ∃ me db,
    acquireLeadership now (σ.instances i) σ.db = .ok (me, db) ∧ me.leaderEpoch = some epoch

/-- The instance passes `_assert_leader`. -/
def Passes (σ : Sys ι α) (i : ι) : Prop := assertLeader (σ.instances i) σ.db = .ok ()

end

/-! ## What one transaction does -/

section

variable {α : Type} {me me' : Instance} {db db' : Database α} {now : Time}

/-- The epoch of the lease; before the first grant it is zero. -/
def Database.epoch (db : Database α) : ℕ := db.lease.elim 0 Lease.epoch

theorem acquireLeadership_spec (h : acquireLeadership now me db = .ok (me', db')) :
    me' = { me with leaderEpoch := some (db.epoch + 1) } ∧ db'.epoch = db.epoch + 1 := by
  have next : nextEpoch db.lease = db.epoch + 1 := by
    unfold nextEpoch Database.epoch
    cases db.lease <;> simp
  rw [acquireLeadership] at h
  dsimp only at h
  split at h
  · cases h
  · rw [casLeader, if_neg (not_not.mpr rfl)] at h
    cases h
    exact ⟨by rw [next], next⟩

theorem ownsLease_iff : ownsLease me db.lease = true ↔
    ∃ l, db.lease = some l ∧ l.coordinatorId = me.coordinatorId ∧
      me.leaderEpoch = some l.epoch := by
  simp only [ownsLease, Option.any_eq_true, Bool.and_eq_true, decide_eq_true_eq]
  constructor
  · rintro ⟨l, hl, hid, he⟩
    exact ⟨l, hl, hid, he.symm⟩
  · rintro ⟨l, hl, hid, he⟩
    exact ⟨l, hl, hid, he.symm⟩

/-- An owner remembers the epoch of the lease. -/
theorem leaderEpoch_of_ownsLease (h : ownsLease me db.lease = true) :
    me.leaderEpoch = some db.epoch := by
  obtain ⟨l, hl, -, he⟩ := ownsLease_iff.mp h
  rw [he, Database.epoch, hl]
  rfl

theorem assertLeader_eq_ok : assertLeader me db = .ok () ↔ ownsLease me db.lease = true := by
  rw [assertLeader]
  by_cases h : ownsLease me db.lease = true
  · simp [h]
  · simp [h]

/-- An operation that does not own the lease changes nothing, unless it acquires it. -/
theorem Op.run_unowned {op : Op α} (owns : ownsLease me db.lease = false)
    (h : op.run me db = .ok (me', db')) (hop : ∀ now, op ≠ .acquire now) :
    me' = me ∧ db' = db := by
  cases op with
  | acquire now => exact absurd rfl (hop now)
  | heartbeat now =>
      rw [run, coordinatorHeartbeat, assertLeader, owns] at h
      cases h
  | resign =>
      rw [run, Leadership.resign, owns] at h
      cases h
      exact ⟨rfl, rfl⟩
  | mutate body =>
      rw [run, transaction, assertLeader, owns] at h
      cases h

/-- An operation that does not acquire the lease leaves its epoch, and its instance
remembers the epoch it did, or none. -/
theorem Op.run_epoch {op : Op α} (h : op.run me db = .ok (me', db'))
    (hop : ∀ now, op ≠ .acquire now) :
    db'.epoch = db.epoch ∧ (me' = me ∨ me' = { me with leaderEpoch := none }) := by
  have renewed (t : Time) : Database.epoch
      { db with lease := db.lease.map fun l => { l with lastHeartbeat := t } } = db.epoch := by
    unfold Database.epoch
    cases db.lease <;> rfl
  cases howns : ownsLease me db.lease with
  | false =>
      obtain ⟨rfl, rfl⟩ := op.run_unowned howns h hop
      exact ⟨rfl, Or.inl rfl⟩
  | true =>
      cases op with
      | acquire now => exact absurd rfl (hop now)
      | heartbeat now =>
          rw [run, coordinatorHeartbeat, assertLeader, howns] at h
          cases h
          exact ⟨renewed now, Or.inl rfl⟩
      | resign =>
          rw [run, Leadership.resign, howns] at h
          cases h
          exact ⟨renewed 0, Or.inr rfl⟩
      | mutate body =>
          rw [run, transaction, assertLeader, howns] at h
          cases hbody : body db.data with
          | none =>
              simp only [hbody] at h
              cases h
          | some data =>
              simp only [hbody] at h
              cases h
              exact ⟨rfl, Or.inl rfl⟩

end

/-! ## The invariant -/

section

variable {ι : Type v} {α : Type}

/-- A remembered epoch is one of the past, and of one instance. -/
structure Inv (σ : Sys ι α) : Prop where
  past : ∀ i e, (σ.instances i).leaderEpoch = some e → e ≤ σ.db.epoch
  unique : ∀ i j e, (σ.instances i).leaderEpoch = some e →
    (σ.instances j).leaderEpoch = some e → i = j

theorem Inv.start (labels : ι → String) (windows : ι → ℚ) (db : Database α) :
    Inv (start labels windows db) :=
  ⟨fun _ _ h => (by cases h), fun _ _ _ h => (by cases h)⟩

variable [DecidableEq ι]

/-- What a step does to the epochs: it grants the next one, or the lease keeps its own and
no instance gets one. -/
theorem step_cases (σ : Sys ι α) (i : ι) (op : Op α) :
    ((∃ now, op = .acquire now) ∧ (step σ i op).db.epoch = σ.db.epoch + 1 ∧
      Grants σ i op (σ.db.epoch + 1) ∧
      ∀ k, ((step σ i op).instances k).leaderEpoch =
        if k = i then some (σ.db.epoch + 1) else (σ.instances k).leaderEpoch) ∨
    (¬ (∃ e, Grants σ i op e) ∧ (step σ i op).db.epoch = σ.db.epoch ∧
      ∀ k, ((step σ i op).instances k).leaderEpoch = (σ.instances k).leaderEpoch ∨
        ((step σ i op).instances k).leaderEpoch = none) := by
  cases hrun : op.run (σ.instances i) σ.db with
  | error e =>
      right
      rw [step, hrun]
      refine ⟨?_, rfl, fun k => Or.inl rfl⟩
      rintro ⟨_, now, rfl, me, db, h, -⟩
      rw [Op.run, h] at hrun
      cases hrun
  | ok r =>
      obtain ⟨me, db⟩ := r
      have hstep : step σ i op =
          { db := db, instances := Function.update σ.instances i me } := by
        rw [step, hrun]
      rw [hstep]
      by_cases hop : ∃ now, op = .acquire now
      · obtain ⟨now, rfl⟩ := hop
        left
        rw [Op.run] at hrun
        obtain ⟨hme, hdb⟩ := acquireLeadership_spec hrun
        have hepoch : me.leaderEpoch = some (σ.db.epoch + 1) := by rw [hme]
        refine ⟨⟨now, rfl⟩, hdb, ⟨now, rfl, me, db, hrun, hepoch⟩, fun k => ?_⟩
        by_cases hk : k = i
        · subst hk
          simp only [Function.update_self, if_true, hepoch]
        · simp only [Function.update_of_ne hk, if_neg hk]
      · right
        obtain ⟨hdb, hme⟩ := op.run_epoch hrun fun now h => hop ⟨now, h⟩
        refine ⟨fun ⟨_, now, h, _⟩ => hop ⟨now, h⟩, hdb, fun k => ?_⟩
        by_cases hk : k = i
        · subst hk
          simp only [Function.update_self]
          rcases hme with rfl | rfl
          · exact Or.inl rfl
          · exact Or.inr rfl
        · exact Or.inl (by simp only [Function.update_of_ne hk])

theorem Inv.step {σ : Sys ι α} (h : Inv σ) (i : ι) (op : Op α) : Inv (step σ i op) := by
  rcases step_cases σ i op with ⟨-, hdb, -, hk⟩ | ⟨-, hdb, hk⟩
  · constructor
    · intro k e he
      rw [hk k] at he
      rw [hdb]
      split at he
      · cases he
        exact le_rfl
      · exact (h.past k e he).trans (Nat.le_succ _)
    · intro k j e he he'
      rw [hk k] at he
      rw [hk j] at he'
      split at he <;> split at he'
      · rename_i hki hji
        rw [hki, hji]
      · cases he
        exact absurd (h.past j _ he') (by omega)
      · cases he'
        exact absurd (h.past k _ he) (by omega)
      · exact h.unique k j e he he'
  · have old : ∀ k e, ((Leadership.step σ i op).instances k).leaderEpoch = some e →
        (σ.instances k).leaderEpoch = some e := by
      intro k e he
      rcases hk k with heq | heq
      · exact heq ▸ he
      · rw [heq] at he
        cases he
    constructor
    · intro k e he
      rw [hdb]
      exact h.past k e (old k e he)
    · exact fun k j e he he' => h.unique k j e (old k e he) (old j e he')

theorem Inv.states {init : Sys ι α} (h : Inv init) (ops : ℕ → ι × Op α) (n : ℕ) :
    Inv (states init ops n) := by
  induction n with
  | zero => exact h
  | succ n ih => exact ih.step _ _

/-! ## Fencing -/

theorem epoch_mono (init : Sys ι α) (ops : ℕ → ι × Op α) {m n : ℕ} (h : m ≤ n) :
    (states init ops m).db.epoch ≤ (states init ops n).db.epoch := by
  induction n, h using Nat.le_induction with
  | base => exact le_rfl
  | succ n _ ih =>
      refine ih.trans ?_
      rw [states]
      rcases step_cases (states init ops n) (ops n).1 (ops n).2 with ⟨-, hdb, -⟩ | ⟨-, hdb, -⟩
      · exact hdb ▸ Nat.le_succ _
      · exact hdb.ge

/-- A grant is of the next epoch, which the lease has from then on. -/
theorem Grants.epoch {σ : Sys ι α} {i : ι} {op : Op α} {e : ℕ} (h : Grants σ i op e) :
    e = σ.db.epoch + 1 ∧ (step σ i op).db.epoch = e := by
  have he : e = σ.db.epoch + 1 := by
    obtain ⟨now, -, me, db, hrun, he⟩ := h
    obtain ⟨hme, -⟩ := acquireLeadership_spec hrun
    rw [hme] at he
    exact (Option.some.inj he).symm
  rcases step_cases σ i op with ⟨-, hdb, -⟩ | ⟨hno, -⟩
  · exact ⟨he, hdb.trans he.symm⟩
  · exact absurd ⟨e, h⟩ hno

/-- Between a grant to another and its own next grant, an instance remembers no epoch of
the lease. -/
theorem behind {init : Sys ι α} (hinit : Inv init) (ops : ℕ → ι × Op α) {k n : ℕ} {i : ι}
    {e : ℕ} (grant : Grants (states init ops k) (ops k).1 (ops k).2 e) (hne : i ≠ (ops k).1)
    (hkn : k < n) (still : ∀ m, k < m → m < n → (ops m).1 = i →
      ¬ ∃ e, Grants (states init ops m) (ops m).1 (ops m).2 e) :
    ∀ d, ((states init ops n).instances i).leaderEpoch = some d →
      d < (states init ops n).db.epoch := by
  induction n, hkn using Nat.le_induction with
  | base =>
      intro d hd
      have inv := hinit.states ops k
      rw [states] at hd ⊢
      rcases step_cases (states init ops k) (ops k).1 (ops k).2 with ⟨-, hdb, -, hk⟩ | ⟨hno, -⟩
      · rw [hk i, if_neg hne] at hd
        rw [hdb]
        exact Nat.lt_succ_of_le (inv.past i d hd)
      · exact absurd ⟨e, grant⟩ hno
  | succ n hkn ih =>
      intro d hd
      have ih := ih fun m hm hmn => still m hm (Nat.lt_succ_of_lt hmn)
      rw [states] at hd ⊢
      rcases step_cases (states init ops n) (ops n).1 (ops n).2 with
        ⟨-, hdb, hgrant, hk⟩ | ⟨-, hdb, hk⟩
      · rw [hk i] at hd
        rw [hdb]
        split at hd
        · rename_i hin
          exact absurd ⟨_, hgrant⟩ (still n hkn (Nat.lt_succ_self n) hin.symm)
        · exact (ih d hd).trans (Nat.lt_succ_self _)
      · rw [hdb]
        rcases hk i with heq | heq
        · exact ih d (heq ▸ hd)
        · rw [heq] at hd
          cases hd

/-- An instance that is behind changes nothing, unless it is granted the lease again. -/
theorem step_behind {σ : Sys ι α} {i : ι} {op : Op α}
    (h : ∀ d, (σ.instances i).leaderEpoch = some d → d < σ.db.epoch)
    (no : ¬ ∃ e, Grants σ i op e) : (step σ i op).db = σ.db := by
  have howns : ownsLease (σ.instances i) σ.db.lease = false := by
    rw [Bool.eq_false_iff]
    intro howns
    exact absurd (h _ (leaderEpoch_of_ownsLease howns)) (lt_irrefl _)
  rw [step]
  cases hrun : op.run (σ.instances i) σ.db with
  | error e => rfl
  | ok r =>
      obtain ⟨me, db⟩ := r
      by_cases hop : ∃ now, op = .acquire now
      · obtain ⟨now, rfl⟩ := hop
        obtain ⟨hme, -⟩ := acquireLeadership_spec hrun
        exact absurd ⟨_, now, rfl, me, db, hrun, by rw [hme]⟩ no
      · exact (op.run_unowned howns hrun fun now h => hop ⟨now, h⟩).2

/-- The epochs that are granted grow strictly, so each goes to one instance; at most one
instance passes the check of its transactions; and once another instance was granted the
lease, no transaction of an earlier one changes the database, its lease included, until it
is granted the lease again. -/
theorem leader_fencing (labels : ι → String) (windows : ι → ℚ) (db : Database α)
    (ops : ℕ → ι × Op α) :
    let σ := states (start labels windows db) ops
    (∀ m n e d, Grants (σ m) (ops m).1 (ops m).2 e → Grants (σ n) (ops n).1 (ops n).2 d →
      m < n → e < d) ∧
    (∀ m n e, Grants (σ m) (ops m).1 (ops m).2 e → Grants (σ n) (ops n).1 (ops n).2 e →
      m = n ∧ (ops m).1 = (ops n).1) ∧
    (∀ n i j, Passes (σ n) i → Passes (σ n) j → i = j) ∧
    (∀ k n e, Grants (σ k) (ops k).1 (ops k).2 e → k < n → (ops n).1 ≠ (ops k).1 →
      (∀ m, k < m → m ≤ n → (ops m).1 = (ops n).1 →
        ¬ ∃ e, Grants (σ m) (ops m).1 (ops m).2 e) → (σ (n + 1)).db = (σ n).db) := by
  intro σ
  have inv : Inv (start labels windows db) := Inv.start labels windows db
  have increasing : ∀ m n e d, Grants (σ m) (ops m).1 (ops m).2 e →
      Grants (σ n) (ops n).1 (ops n).2 d → m < n → e < d := by
    intro m n e d hm hn hmn
    have hle : (σ (m + 1)).db.epoch ≤ (σ n).db.epoch := epoch_mono _ ops hmn
    have he : (σ (m + 1)).db.epoch = e := hm.epoch.2
    have hd : d = (σ n).db.epoch + 1 := hn.epoch.1
    omega
  refine ⟨increasing, fun m n e hm hn => ?_, fun n i j hi hj => ?_,
    fun k n e hgrant hkn hne still => ?_⟩
  · have hmn : m = n := by
      rcases lt_trichotomy m n with h | h | h
      · exact absurd (increasing m n e e hm hn h) (lt_irrefl e)
      · exact h
      · exact absurd (increasing n m e e hn hm h) (lt_irrefl e)
    exact ⟨hmn, by rw [hmn]⟩
  · rw [Passes, assertLeader_eq_ok] at hi hj
    exact (inv.states ops n).unique i j _ (leaderEpoch_of_ownsLease hi)
      (leaderEpoch_of_ownsLease hj)
  · have hbehind := behind inv ops hgrant hne hkn fun m hm hmn => still m hm hmn.le
    exact step_behind hbehind (still n hkn le_rfl rfl)

/-- Two coordinators with one label: the second is granted the lapsed lease, and the first
counts no further. -/
example :
    let count (i : Bool) : Bool × Op ℕ := (i, .mutate fun n => some (n + 1))
    let ops : ℕ → Bool × Op ℕ := fun
      | 0 => (true, .acquire 0)
      | 2 => (false, .acquire 100)
      | 3 => count true
      | n + 4 => count (n = 0)
      | _ => count true
    (states (start (fun _ => "omd") (fun _ => 30) { data := 0 }) ops 6).db.data = 2 := by
  decide +kernel

end

end Omd.Leadership
