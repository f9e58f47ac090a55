import Omd.Store
import Mathlib.Data.List.Dedup

/-!
# Delivery of the outbox

The rows of `admission_outbox` are delivered by workers.  A worker claims the first row
that is due, that heads its stream and whose declared predecessors are delivered; it acks
or retries the row under the token of its claim, and a claim that is past its deadline may
be claimed again.  A row that is under way is settled: everything it waits for is
delivered, and stays so.

Each call is one transaction, and a call that raises leaves the tables as they were.
-/

namespace Omd.Delivery

open Lib

/-- The columns of a row that its transition fixes. -/
structure Fact where
  eventId : String
  effectKey : String
  schemaVersion : String
  repositoryId : String
  requestId : String
  requestGeneration : ℤ
  orbitId : String
  transitionKind : String
  correlationId : String
  payload : String
  payloadSha256 : String
  deriving DecidableEq, Repr

/-- The stream a row is in. -/
def Fact.stream (e : Fact) : String × String × ℤ :=
  (e.repositoryId, e.requestId, e.requestGeneration)

/-- `state` of a row. -/
inductive NoticeState
  | PENDING | DELIVERING | DELIVERED
  deriving DecidableEq, Repr

/-- A row of `admission_outbox`. -/
structure Notice where
  outboxSeq : ℕ
  fact : Fact
  state : NoticeState := .PENDING
  attempts : ℕ := 0
  availableAt : Time
  claimedBy : Option String := none
  claimToken : Option ℕ := none
  claimDeadline : Option Time := none
  createdAt : Time
  deliveredAt : Option Time := none
  lastError : Option String := none
  deriving DecidableEq, Repr

/-- The key of a row. -/
def Notice.eventId (r : Notice) : String := r.fact.eventId

/-- The two tables, with the counters of their keys and of the claim tokens.  The rows
stand in the order of `outbox_seq`. -/
structure Outbox where
  rows : List Notice := []
  dependencies : List (String × String) := []
  seq : ℕ := 0
  tokens : ℕ := 0

/-- The errors of `enqueue_admission_outbox`. -/
inductive EnqueueError
  | dependsOnItself | eventCollision | dependencyCollision | predecessorMissing
  deriving DecidableEq, Repr

namespace Outbox

variable (s : Outbox)

/-- `get_admission_outbox`. -/
def get (eventId : String) : Option Notice := Table.get Notice.eventId eventId s.rows

/-- An update of one row. -/
def set (eventId : String) (f : Notice → Notice) : Outbox :=
  { s with rows := Table.modify Notice.eventId eventId f s.rows }

/-- `admission_outbox_predecessors`. -/
def predecessors (eventId : String) : List String :=
  ((s.dependencies.filter fun d => d.1 = eventId).map Prod.snd).insertionSort (· ≤ ·)

/-- `enqueue_admission_outbox`. -/
def enqueue (e : Fact) (predecessorIds : List String) (createdAt : Time) :
    Except EnqueueError (Outbox × Notice) :=
  let declared := predecessorIds.dedup.insertionSort (· ≤ ·)
  if e.eventId ∈ declared then .error .dependsOnItself
  else
    match (s.get e.eventId).or (s.rows.find? fun r => r.fact.effectKey = e.effectKey) with
    | some existing =>
        if existing.fact ≠ e then .error .eventCollision
        else if s.predecessors e.eventId ≠ declared then .error .dependencyCollision
        else .ok (s, existing)
    | none =>
        let row : Notice :=
          { outboxSeq := s.seq + 1
            fact := e
            availableAt := createdAt
            createdAt := createdAt }
        if declared.any fun p => (s.get p).isNone then .error .predecessorMissing
        else
          .ok ({ s with
                 rows := s.rows ++ [row]
                 dependencies := s.dependencies ++ declared.map fun p => (e.eventId, p)
                 seq := s.seq + 1 }, row)

/-- The row is due: it waits and is available, or its claim is past its deadline. -/
def due (now : Time) (r : Notice) : Bool :=
  match r.state with
  | .PENDING => r.availableAt ≤ now
  | .DELIVERING => reached r.claimDeadline now
  | .DELIVERED => false

/-- No earlier row of its stream is undelivered. -/
def headsStream (r : Notice) : Bool :=
  s.rows.all fun p =>
    !(p.fact.stream = r.fact.stream && p.outboxSeq < r.outboxSeq && p.state ≠ .DELIVERED)

/-- Every declared predecessor is there and delivered. -/
def unblocked (r : Notice) : Bool :=
  s.dependencies.all fun d =>
    d.1 ≠ r.eventId || (s.get d.2).any fun p => p.state = .DELIVERED

/-- `claim_next_admission_outbox`. -/
def claimNext (owner : String) (now : Time) (leaseTtl : ℚ) : Outbox × Option Notice :=
  match s.rows.find? fun r =>
      r.state ≠ .DELIVERED && due now r && s.headsStream r && s.unblocked r with
  | none => (s, none)
  | some head =>
      let claimed := { s with tokens := s.tokens + 1 }.set head.eventId fun r =>
        if due now r then
          { r with
            state := .DELIVERING
            claimedBy := some owner
            claimToken := some s.tokens
            claimDeadline := some (now + leaseTtl)
            attempts := r.attempts + 1
            lastError := none }
        else r
      (claimed, claimed.get head.eventId)

/-- The row is under way with this token. -/
def holds (eventId : String) (token : ℕ) : Bool :=
  s.rows.any fun r =>
    r.eventId = eventId && r.state = .DELIVERING && r.claimToken = some token

/-- A statement on the row that is under way with this token. -/
def finish (eventId : String) (token : ℕ) (f : Notice → Notice) : Outbox × Bool :=
  (s.set eventId fun r => if r.state = .DELIVERING ∧ r.claimToken = some token then f r else r,
    s.holds eventId token)

/-- `ack_admission_outbox`. -/
def ack (eventId : String) (token : ℕ) (deliveredAt : Time) : Outbox × Bool :=
  s.finish eventId token fun r =>
    { r with
      state := .DELIVERED
      deliveredAt := some deliveredAt
      claimedBy := none
      claimToken := none
      claimDeadline := none
      lastError := none }

/-- `retry_admission_outbox`. -/
def retry (eventId : String) (token : ℕ) (availableAt : Time) (error : String) : Outbox × Bool :=
  s.finish eventId token fun r =>
    { r with
      state := .PENDING
      availableAt := availableAt
      claimedBy := none
      claimToken := none
      claimDeadline := none
      lastError := some error }

end Outbox

/-! ## Runs -/

/-- A call of a verb or of a worker. -/
inductive Op
  | enqueue (e : Fact) (predecessorIds : List String) (createdAt : Time)
  | claim (owner : String) (now : Time) (leaseTtl : ℚ)
  | ack (eventId : String) (token : ℕ) (deliveredAt : Time)
  | retry (eventId : String) (token : ℕ) (availableAt : Time) (error : String)

/-- The outbox after a call. -/
def step (s : Outbox) : Op → Outbox
  | .enqueue e predecessorIds createdAt =>
      match s.enqueue e predecessorIds createdAt with
      | .error _ => s
      | .ok r => r.1
  | .claim owner now leaseTtl => (s.claimNext owner now leaseTtl).1
  | .ack eventId token deliveredAt => (s.ack eventId token deliveredAt).1
  | .retry eventId token availableAt error => (s.retry eventId token availableAt error).1

/-- The outboxes of a run of calls. -/
def states (ops : ℕ → Op) : ℕ → Outbox
  | 0 => {}
  | n + 1 => step (states ops n) (ops n)

/-- The call claims the event under this token. -/
def Claims (s : Outbox) (op : Op) (eventId : String) (token : ℕ) : Prop :=
  ∃ owner now leaseTtl r, op = .claim owner now leaseTtl ∧
    (s.claimNext owner now leaseTtl).2 = some r ∧ r.eventId = eventId ∧ r.claimToken = some token

/-- The call acks or retries the event under this token. -/
inductive Op.Finishes : Op → String → ℕ → Prop
  | ack (eventId : String) (token : ℕ) (deliveredAt : Time) :
      Finishes (.ack eventId token deliveredAt) eventId token
  | retry (eventId : String) (token : ℕ) (availableAt : Time) (error : String) :
      Finishes (.retry eventId token availableAt error) eventId token

/-- Everything a row waits for is delivered. -/
structure Settled (s : Outbox) (r : Notice) : Prop where
  stream : ∀ p ∈ s.rows, p.fact.stream = r.fact.stream → p.outboxSeq < r.outboxSeq →
    p.state = .DELIVERED
  predecessors : ∀ q, (r.eventId, q) ∈ s.dependencies →
    ∃ p ∈ s.rows, p.eventId = q ∧ p.state = .DELIVERED

/-! ## What one call does -/

/-- The keys are distinct and in order, and a row that is under way or delivered is
settled. -/
structure Ok (s : Outbox) : Prop where
  ids : Table.Distinct Notice.eventId s.rows
  seqs : ∀ r ∈ s.rows, r.outboxSeq ≤ s.seq
  settled : ∀ r ∈ s.rows, r.state ≠ .PENDING → Settled s r

/-- The tables after a call: as they were, with one row more, or with one row changed. -/
inductive Change (s s' : Outbox) : Prop
  | none (eq : s' = s)
  | added (r : Notice) (state : r.state = .PENDING) (new : ∀ p ∈ s.rows, p.eventId ≠ r.eventId)
      (seq : r.outboxSeq = s.seq + 1) (rows : s'.rows = s.rows ++ [r])
      (dependencies : ∃ ps : List String,
        s'.dependencies = s.dependencies ++ ps.map fun p => (r.eventId, p))
      (next : s'.seq = s.seq + 1)
  | changed (r r' : Notice) (mem : r ∈ s.rows) (undelivered : r.state ≠ .DELIVERED)
      (fact : r'.fact = r.fact) (seq : r'.outboxSeq = r.outboxSeq)
      (rows : ∀ p, p ∈ s'.rows ↔ p ∈ s.rows ∧ p.eventId ≠ r.eventId ∨ p = r')
      (ids : Table.Distinct Notice.eventId s'.rows)
      (dependencies : s'.dependencies = s.dependencies) (next : s'.seq = s.seq)
      (state : r'.state = .PENDING ∨ r'.state = .DELIVERING ∧ Settled s r ∨
        r'.state = .DELIVERED ∧ r.state = .DELIVERING)

section

variable {s s' : Outbox}

theorem Ok.mem_set (ok : Ok s) {r : Notice} (hr : r ∈ s.rows) (f : Notice → Notice)
    (p : Notice) : p ∈ (s.set r.eventId f).rows ↔
      p ∈ s.rows ∧ p.eventId ≠ r.eventId ∨ p = f r := by
  rw [Outbox.set, Table.mem_modify]
  refine or_congr_right ⟨?_, fun h => ⟨r, hr, rfl, h⟩⟩
  rintro ⟨r₀, hr₀, hid, rfl⟩
  rw [ok.ids.eq hr₀ hr hid]

/-- A row is claimed when everything it waits for is delivered. -/
theorem settled_of_gates {r : Notice} (heads : s.headsStream r = true)
    (unblocked : s.unblocked r = true) : Settled s r := by
  rw [Outbox.headsStream, List.all_eq_true] at heads
  rw [Outbox.unblocked, List.all_eq_true] at unblocked
  constructor
  · intro p hp hstream hseq
    by_contra hstate
    have := heads p hp
    simp [hstream, hseq, hstate] at this
  · intro q hq
    have := unblocked (r.eventId, q) hq
    simp only [ne_eq, not_true, decide_false, Bool.false_or, Option.any_eq_true,
      decide_eq_true_eq] at this
    obtain ⟨p, hp, hstate⟩ := this
    exact ⟨p, Table.mem_of_get hp, Table.key_of_get hp, hstate⟩

theorem enqueue_change {e : Fact} {ps : List String} {now : Time} {r : Notice}
    (h : s.enqueue e ps now = .ok (s', r)) : Change s s' := by
  rw [Outbox.enqueue] at h
  dsimp only at h
  split at h
  · cases h
  split at h
  · split at h
    · cases h
    split at h
    · cases h
    · cases h
      exact .none rfl
  · rename_i hnone
    split at h
    · cases h
    · cases h
      rw [Option.or_eq_none_iff] at hnone
      refine .added _ rfl ?_ rfl rfl ⟨_, rfl⟩ rfl
      exact Table.get_eq_none.mp hnone.1

/-- What a claim finds. -/
theorem claimNext_cases (ok : Ok s) (owner : String) (now : Time) (leaseTtl : ℚ) :
    s.claimNext owner now leaseTtl = (s, none) ∨
      ∃ r ∈ s.rows, Settled s r ∧ r.state ≠ .DELIVERED ∧ ∃ r' : Notice,
        r' = { r with
          state := .DELIVERING
          claimedBy := some owner
          claimToken := some s.tokens
          claimDeadline := some (now + leaseTtl)
          attempts := r.attempts + 1
          lastError := none } ∧
        (s.claimNext owner now leaseTtl).2 = some r' ∧
        (∀ p, p ∈ (s.claimNext owner now leaseTtl).1.rows ↔
          p ∈ s.rows ∧ p.eventId ≠ r.eventId ∨ p = r') ∧
        Table.Distinct Notice.eventId (s.claimNext owner now leaseTtl).1.rows ∧
        (s.claimNext owner now leaseTtl).1.dependencies = s.dependencies ∧
        (s.claimNext owner now leaseTtl).1.seq = s.seq := by
  rw [Outbox.claimNext]
  split
  · exact Or.inl rfl
  · rename_i r hfind
    right
    have hr := List.mem_of_find?_eq_some hfind
    have hgates := List.find?_some hfind
    simp only [ne_eq, Bool.and_eq_true, decide_eq_true_eq] at hgates
    obtain ⟨⟨⟨hstate, hdue⟩, hheads⟩, hunblocked⟩ := hgates
    have ok' : Ok { s with tokens := s.tokens + 1 } :=
      ⟨ok.ids, ok.seqs, fun r hr h => ⟨(ok.settled r hr h).1, (ok.settled r hr h).2⟩⟩
    have rows := ok'.mem_set hr fun r =>
      if Outbox.due now r then
        { r with
          state := .DELIVERING
          claimedBy := some owner
          claimToken := some s.tokens
          claimDeadline := some (now + leaseTtl)
          attempts := r.attempts + 1
          lastError := none }
      else r
    have ids : Table.Distinct Notice.eventId ({ s with tokens := s.tokens + 1 }.set r.eventId
        fun r =>
          if Outbox.due now r then
            { r with
              state := .DELIVERING
              claimedBy := some owner
              claimToken := some s.tokens
              claimDeadline := some (now + leaseTtl)
              attempts := r.attempts + 1
              lastError := none }
          else r).rows := by
      refine ok.ids.modify fun p _ hid => ?_
      split <;> exact hid
    simp only [hdue, if_true] at rows
    refine ⟨r, hr, settled_of_gates hheads hunblocked, hstate, _, rfl, ?_, rows, ids, rfl, rfl⟩
    exact ids.get_eq_some.mpr ⟨(rows _).mpr (Or.inr rfl), rfl⟩

theorem finish_change (ok : Ok s) (eventId : String) (token : ℕ) {f : Notice → Notice}
    (hf : ∀ r, (f r).fact = r.fact ∧ (f r).outboxSeq = r.outboxSeq ∧
      (f r).state ≠ .DELIVERING) : Change s (s.finish eventId token f).1 := by
  by_cases h : ∃ r ∈ s.rows, r.eventId = eventId ∧ r.state = .DELIVERING ∧
      r.claimToken = some token
  · obtain ⟨r, hr, rfl, hstate, htoken⟩ := h
    obtain ⟨hfact, hseq, hnext⟩ := hf r
    have rows := ok.mem_set hr fun r =>
      if r.state = .DELIVERING ∧ r.claimToken = some token then f r else r
    simp only [hstate, htoken, and_self, if_true] at rows
    refine .changed r (f r) hr (by simp [hstate]) hfact hseq rows ?_ rfl rfl ?_
    · refine ok.ids.modify fun p _ hid => ?_
      split
      · rw [Notice.eventId, (hf p).1]
        exact hid
      · exact hid
    · cases hs : (f r).state with
      | PENDING => exact Or.inl rfl
      | DELIVERING => exact absurd hs hnext
      | DELIVERED => exact Or.inr (Or.inr ⟨rfl, hstate⟩)
  · refine .none ?_
    have same : ∀ r ∈ s.rows, (if r.eventId = eventId then
        if r.state = .DELIVERING ∧ r.claimToken = some token then f r else r else r) = r := by
      intro r hr
      split
      · rename_i hid
        rw [if_neg fun hs => h ⟨r, hr, hid, hs⟩]
      · rfl
    rw [Outbox.finish, Outbox.set, Table.modify, List.map_congr_left same, List.map_id']

theorem step_change (ok : Ok s) (op : Op) : Change s (step s op) := by
  cases op with
  | enqueue e ps now =>
      rw [step]
      cases h : s.enqueue e ps now with
      | error _ => exact .none rfl
      | ok r => exact enqueue_change h
  | claim owner now leaseTtl =>
      rw [step]
      rcases claimNext_cases ok owner now leaseTtl with h |
        ⟨r, hr, settled, hstate, r', hr', -, rows, ids, deps, seq⟩
      · exact .none (by rw [h])
      · exact .changed r r' hr hstate (by rw [hr']) (by rw [hr']) rows ids deps seq
          (Or.inr (Or.inl ⟨by rw [hr'], settled⟩))
  | ack eventId token now =>
      exact finish_change ok eventId token fun r => ⟨rfl, rfl, fun h => by cases h⟩
  | retry eventId token now error =>
      exact finish_change ok eventId token fun r => ⟨rfl, rfl, fun h => by cases h⟩

/-! ## What a call keeps -/

/-- A delivered row stays. -/
theorem Change.delivered (h : Change s s') (ok : Ok s) {r : Notice} (hr : r ∈ s.rows)
    (hstate : r.state = .DELIVERED) : r ∈ s'.rows := by
  cases h with
  | none eq => exact eq ▸ hr
  | added r' _ _ _ rows => exact rows ▸ List.mem_append_left _ hr
  | changed r₀ r' mem undelivered _ _ rows =>
      refine (rows r).mpr (Or.inl ⟨hr, fun hid => undelivered ?_⟩)
      rw [← ok.ids.eq hr mem hid]
      exact hstate

theorem Change.settled (h : Change s s') (ok : Ok s) {r r' : Notice} (settled : Settled s r)
    (hr : r ∈ s.rows) (fact : r'.fact = r.fact) (seq : r'.outboxSeq = r.outboxSeq) :
    Settled s' r' := by
  have id : r'.eventId = r.eventId := congrArg Fact.eventId fact
  constructor
  · intro p hp hstream hlt
    rw [fact] at hstream
    rw [seq] at hlt
    cases h with
    | none eq => exact settled.stream p (eq ▸ hp) hstream hlt
    | added n _ _ hseq rows =>
        rw [rows, List.mem_append, List.mem_singleton] at hp
        rcases hp with hp | rfl
        · exact settled.stream p hp hstream hlt
        · have := ok.seqs r hr
          omega
    | changed r₀ r₁ mem undelivered hfact hseq rows =>
        rcases (rows p).mp hp with ⟨hp, -⟩ | rfl
        · exact settled.stream p hp hstream hlt
        · exact absurd (settled.stream r₀ mem (hfact ▸ hstream) (hseq ▸ hlt)) undelivered
  · intro q hq
    rw [id] at hq
    have old : (r.eventId, q) ∈ s.dependencies := by
      cases h with
      | none eq => exact eq ▸ hq
      | added n _ new _ _ deps =>
          obtain ⟨ps, hps⟩ := deps
          rw [hps, List.mem_append] at hq
          rcases hq with hq | hq
          · exact hq
          · obtain ⟨_, -, heq⟩ := List.mem_map.mp hq
            exact absurd (congrArg Prod.fst heq).symm (new r hr)
      | changed _ _ _ _ _ _ _ _ deps => exact deps ▸ hq
    obtain ⟨p, hp, hid, hstate⟩ := settled.predecessors q old
    exact ⟨p, h.delivered ok hp hstate, hid, hstate⟩

/-- A row that is under way or delivered was there before, and was settled. -/
theorem Change.back (h : Change s s') (ok : Ok s) {r' : Notice} (hr' : r' ∈ s'.rows)
    (hstate : r'.state ≠ .PENDING) : ∃ r ∈ s.rows, r'.fact = r.fact ∧
      r'.outboxSeq = r.outboxSeq ∧ Settled s r := by
  cases h with
  | none eq =>
      rw [eq] at hr'
      exact ⟨r', hr', rfl, rfl, ok.settled r' hr' hstate⟩
  | added n state _ _ rows =>
      rw [rows, List.mem_append, List.mem_singleton] at hr'
      rcases hr' with hr' | rfl
      · exact ⟨r', hr', rfl, rfl, ok.settled r' hr' hstate⟩
      · exact absurd state hstate
  | changed r r₁ mem _ fact seq rows _ _ _ state =>
      rcases (rows r').mp hr' with ⟨hr', -⟩ | rfl
      · exact ⟨r', hr', rfl, rfl, ok.settled r' hr' hstate⟩
      · refine ⟨r, mem, fact, seq, ?_⟩
        rcases state with h | ⟨-, h⟩ | ⟨-, h⟩
        · exact absurd h hstate
        · exact h
        · exact ok.settled r mem (by simp [h])

theorem Ok.change (ok : Ok s) (h : Change s s') : Ok s' := by
  refine ⟨?_, ?_, fun r' hr' hstate => ?_⟩
  · cases h with
    | none eq => exact eq ▸ ok.ids
    | added r _ new _ rows => exact rows ▸ ok.ids.append new
    | changed _ _ _ _ _ _ _ ids => exact ids
  · intro r hr
    cases h with
    | none eq => exact eq ▸ ok.seqs r (eq ▸ hr)
    | added n _ _ hseq rows _ next =>
        rw [rows, List.mem_append, List.mem_singleton] at hr
        rw [next]
        rcases hr with hr | rfl
        · exact (ok.seqs r hr).trans (Nat.le_succ _)
        · exact hseq.le
    | changed r₀ r₁ mem _ _ hseq rows _ _ next =>
        rw [next]
        rcases (rows r).mp hr with ⟨hr, -⟩ | rfl
        · exact ok.seqs r hr
        · exact hseq ▸ ok.seqs r₀ mem
  · obtain ⟨r, hr, fact, seq, settled⟩ := h.back ok hr' hstate
    exact h.settled ok settled hr fact seq

theorem Ok.step (ok : Ok s) (op : Op) : Ok (step s op) := ok.change (step_change ok op)

end

theorem Ok.states (ops : ℕ → Op) (n : ℕ) : Ok (states ops n) := by
  induction n with
  | zero => exact ⟨List.nodup_nil, by simp [Delivery.states], by simp [Delivery.states]⟩
  | succ n ih => exact ih.step (ops n)

/-! ## The latest claim -/

section

variable {s : Outbox}

theorem holds_iff {eventId : String} {token : ℕ} : s.holds eventId token = true ↔
    ∃ r ∈ s.rows, r.eventId = eventId ∧ r.state = .DELIVERING ∧ r.claimToken = some token := by
  simp only [Outbox.holds, List.any_eq_true, Bool.and_eq_true, decide_eq_true_eq, and_assoc]

theorem enqueue_rows {s' : Outbox} {e : Fact} {ps : List String} {now : Time} {n : Notice}
    (h : s.enqueue e ps now = .ok (s', n)) :
    ∀ r ∈ s'.rows, r ∈ s.rows ∨ r.state = .PENDING := by
  rw [Outbox.enqueue] at h
  dsimp only at h
  split at h
  · cases h
  split at h
  · split at h
    · cases h
    split at h
    · cases h
    · cases h
      exact fun r hr => Or.inl hr
  · split at h
    · cases h
    · cases h
      intro r hr
      rw [List.mem_append, List.mem_singleton] at hr
      exact hr.imp_right fun hr => by rw [hr]

theorem finish_rows {eventId : String} {token : ℕ} {f : Notice → Notice}
    (hf : ∀ r, (f r).state ≠ .DELIVERING) :
    ∀ r ∈ (s.finish eventId token f).1.rows, r ∈ s.rows ∨ r.state ≠ .DELIVERING := by
  intro r hr
  rcases Table.mem_modify.mp hr with ⟨hr, -⟩ | ⟨r₀, hr₀, -, rfl⟩
  · exact Or.inl hr
  · split
    · exact Or.inr (hf r₀)
    · exact Or.inl hr₀

/-- A row that is under way with a token was claimed by this call, or was under way with it
already and was not claimed. -/
theorem holds_step (ok : Ok s) (op : Op) {eventId : String} {token : ℕ}
    (h : (step s op).holds eventId token = true) : Claims s op eventId token ∨
      s.holds eventId token = true ∧ ¬ ∃ k, Claims s op eventId k := by
  rw [holds_iff] at h ⊢
  obtain ⟨r', hr', hid, hstate, htoken⟩ := h
  cases op with
  | enqueue e ps now =>
      right
      refine ⟨?_, fun ⟨_, _, _, _, _, h, _⟩ => by cases h⟩
      rw [step] at hr'
      cases henq : s.enqueue e ps now with
      | error _ =>
          rw [henq] at hr'
          exact ⟨r', hr', hid, hstate, htoken⟩
      | ok r =>
          rw [henq] at hr'
          rcases enqueue_rows henq r' hr' with hr' | hpending
          · exact ⟨r', hr', hid, hstate, htoken⟩
          · rw [hpending] at hstate
            cases hstate
  | claim owner now leaseTtl =>
      rw [step] at hr'
      rcases claimNext_cases ok owner now leaseTtl with h |
        ⟨r, hr, -, -, r₁, hr₁, hclaim, rows, -⟩
      · rw [h] at hr'
        refine Or.inr ⟨⟨r', hr', hid, hstate, htoken⟩, ?_⟩
        rintro ⟨k, _, _, _, x, heq, hx, -⟩
        cases heq
        rw [h] at hx
        cases hx
      · have hr₁id : r₁.eventId = r.eventId := by
          rw [hr₁]
          rfl
        rcases (rows r').mp hr' with ⟨hr', hne⟩ | rfl
        · refine Or.inr ⟨⟨r', hr', hid, hstate, htoken⟩, ?_⟩
          rintro ⟨k, _, _, _, x, heq, hx, hxid, -⟩
          cases heq
          rw [hclaim] at hx
          cases hx
          exact hne (hid.trans (hxid.symm.trans hr₁id))
        · exact Or.inl ⟨owner, now, leaseTtl, r', rfl, hclaim, hid, htoken⟩
  | ack id k now =>
      right
      refine ⟨?_, fun ⟨_, _, _, _, _, h, _⟩ => by cases h⟩
      rcases finish_rows (fun r h => by cases h) r' hr' with hr' | hne
      · exact ⟨r', hr', hid, hstate, htoken⟩
      · exact absurd hstate hne
  | retry id k now error =>
      right
      refine ⟨?_, fun ⟨_, _, _, _, _, h, _⟩ => by cases h⟩
      rcases finish_rows (fun r h => by cases h) r' hr' with hr' | hne
      · exact ⟨r', hr', hid, hstate, htoken⟩
      · exact absurd hstate hne

/-- The token a row is under way with is the token of its latest claim. -/
theorem latest_claim (ops : ℕ → Op) {n : ℕ} {eventId : String} {token : ℕ}
    (h : (states ops n).holds eventId token = true) :
    ∃ k < n, Claims (states ops k) (ops k) eventId token ∧
      ∀ m, k < m → m < n → ¬ ∃ j, Claims (states ops m) (ops m) eventId j := by
  induction n with
  | zero => cases h
  | succ n ih =>
      rcases holds_step (Ok.states ops n) (ops n) h with hclaim | ⟨hold, hno⟩
      · exact ⟨n, Nat.lt_succ_self n, hclaim, fun m hm hmn => by omega⟩
      · obtain ⟨k, hk, hclaim, hlatest⟩ := ih hold
        refine ⟨k, hk.trans (Nat.lt_succ_self n), hclaim, fun m hm hmn => ?_⟩
        rcases Nat.lt_succ_iff_lt_or_eq.mp hmn with hmn | rfl
        · exact hlatest m hm hmn
        · exact hno

/-- An ack or a retry without the token of the row changes nothing. -/
theorem step_finish_of_not_holds {op : Op} {eventId : String} {token : ℕ}
    (hop : op.Finishes eventId token) (h : s.holds eventId token = false) : step s op = s := by
  have none : ∀ r ∈ s.rows, ¬ (r.eventId = eventId ∧ r.state = .DELIVERING ∧
      r.claimToken = some token) := by
    intro r hr hrow
    rw [holds_iff.mpr ⟨r, hr, hrow⟩] at h
    cases h
  have same (f : Notice → Notice) : (s.finish eventId token f).1 = s := by
    have : ∀ r ∈ s.rows, (if r.eventId = eventId then
        if r.state = .DELIVERING ∧ r.claimToken = some token then f r else r else r) = r := by
      intro r hr
      split
      · rename_i hid
        rw [if_neg fun hs => none r hr ⟨hid, hs⟩]
      · rfl
    rw [Outbox.finish, Outbox.set, Table.modify, List.map_congr_left this, List.map_id']
  cases hop with
  | ack => exact same _
  | retry => exact same _

end

/-! ## Delivery in order -/

/-- The predecessors that a call declared are recorded. -/
theorem enqueue_dependencies {s s' : Outbox} {e : Fact} {ps : List String} {now : Time}
    {n : Notice} (h : s.enqueue e ps now = .ok (s', n)) :
    ∀ p ∈ ps, (e.eventId, p) ∈ s'.dependencies := by
  rw [Outbox.enqueue] at h
  dsimp only at h
  split at h
  · cases h
  split at h
  · split at h
    · cases h
    split at h
    · cases h
    rename_i hdeclared
    cases h
    intro p hp
    have hmem : p ∈ s.predecessors e.eventId := by
      rw [not_not.mp hdeclared, List.mem_insertionSort]
      exact List.mem_dedup.mpr hp
    rw [Outbox.predecessors, List.mem_insertionSort, List.mem_map] at hmem
    obtain ⟨⟨x, y⟩, hd, rfl⟩ := hmem
    obtain ⟨hd, hx⟩ := List.mem_filter.mp hd
    rw [decide_eq_true_eq] at hx
    exact hx ▸ hd
  · split at h
    · cases h
    · cases h
      intro p hp
      refine List.mem_append_right _ (List.mem_map.mpr ⟨p, ?_, rfl⟩)
      rw [List.mem_insertionSort]
      exact List.mem_dedup.mpr hp

theorem dependencies_mono (ops : ℕ → Op) {m n : ℕ} (h : m ≤ n) :
    (states ops m).dependencies ⊆ (states ops n).dependencies := by
  induction n, h using Nat.le_induction with
  | base => exact List.Subset.refl _
  | succ n _ ih =>
      intro d hd
      have hd := ih hd
      rw [states]
      cases step_change (Ok.states ops n) (ops n) with
      | none eq =>
          rw [eq]
          exact hd
      | added _ _ _ _ _ deps =>
          obtain ⟨ps, hps⟩ := deps
          rw [hps]
          exact List.mem_append_left _ hd
      | changed _ _ _ _ _ _ _ _ deps => exact deps ▸ hd

theorem delivered_stays (ops : ℕ → Op) {m n : ℕ} (h : m ≤ n) {r : Notice}
    (hr : r ∈ (states ops m).rows) (hstate : r.state = .DELIVERED) :
    r ∈ (states ops n).rows := by
  induction n, h using Nat.le_induction with
  | base => exact hr
  | succ n _ ih =>
      exact (step_change (Ok.states ops n) (ops n)).delivered (Ok.states ops n) ih hstate

/-- In every run of calls: a row that is delivered after a call was there before it, with
every earlier row of its stream and every predecessor it was enqueued with delivered; it is
never changed again; and an ack or a retry that changes anything has the token of the
latest claim of its row. -/
theorem delivered_in_order (ops : ℕ → Op) :
    let σ := states ops
    (∀ n, ∀ r' ∈ (σ (n + 1)).rows, r'.state = .DELIVERED → ∃ r ∈ (σ n).rows, r.fact = r'.fact ∧
      r.outboxSeq = r'.outboxSeq ∧
      (∀ p ∈ (σ n).rows, p.fact.stream = r.fact.stream → p.outboxSeq < r.outboxSeq →
        p.state = .DELIVERED) ∧
      ∀ k < n, ∀ ps now s' row, ops k = .enqueue r.fact ps now →
        (σ k).enqueue r.fact ps now = .ok (s', row) →
          ∀ q ∈ ps, ∃ p ∈ (σ n).rows, p.eventId = q ∧ p.state = .DELIVERED) ∧
    (∀ m n, m ≤ n → ∀ r ∈ (σ m).rows, r.state = .DELIVERED →
      r ∈ (σ n).rows ∧ ∀ r' ∈ (σ n).rows, r'.eventId = r.eventId → r' = r) ∧
    (∀ n eventId token, (ops n).Finishes eventId token → σ (n + 1) ≠ σ n →
      ∃ k < n, Claims (σ k) (ops k) eventId token ∧
        ∀ m, k < m → m < n → ¬ ∃ j, Claims (σ m) (ops m) eventId j) := by
  intro σ
  refine ⟨fun n r' hr' hstate => ?_, fun m n hmn r hr hstate => ?_,
    fun n eventId token hop hne => ?_⟩
  · have ok := Ok.states ops n
    obtain ⟨r, hr, hfact, hseq, settled⟩ :=
      (step_change ok (ops n)).back ok hr' (by simp [hstate])
    refine ⟨r, hr, hfact.symm, hseq.symm, settled.stream, ?_⟩
    intro k hk ps now s' row hop henq q hq
    refine settled.predecessors q ?_
    refine dependencies_mono ops (Nat.succ_le_of_lt hk) ?_
    have hstep : states ops (Nat.succ k) = s' := by
      rw [states, hop, step, henq]
    rw [hstep]
    exact enqueue_dependencies henq q hq
  · have hmem := delivered_stays ops hmn hr hstate
    exact ⟨hmem, fun r' hr' hid => (Ok.states ops n).ids.eq hr' hmem hid⟩
  · refine latest_claim ops ?_
    by_contra h
    exact hne (step_finish_of_not_holds hop (by simpa using h))

end Omd.Delivery
