import Omd.Delivery
import Mathlib.Order.WellFounded

/-!
# The timer of the outbox

The worker of the outbox sleeps until `next_admission_outbox_due_at`, then claims.  The two
queries are written apart, and have to agree: a claim finds a row if and only if the timer is
up.  And the timer must not be off while a row is undelivered, else that row waits for ever.

A row is enqueued after the rows it depends on, so the order of `outbox_seq` is the order of
both the streams and the predecessors: the oldest undelivered row waits for nothing.
-/

namespace Omd.Delivery

open Lib

/-- When an undelivered row is due. -/
def Notice.dueAt (r : Notice) : Option Time :=
  match r.state with
  | .PENDING => some r.availableAt
  | _ => r.claimDeadline

namespace Outbox

variable (s : Outbox)

/-- The undelivered rows that wait for no other row. -/
def heads : List Notice :=
  s.rows.filter fun r => r.state ≠ .DELIVERED && s.headsStream r && s.unblocked r

/-- `next_admission_outbox_due_at`. -/
def nextDueAt : Option Time := (s.heads.filterMap Notice.dueAt).min?

end Outbox

/-! ## The two queries -/

section

variable {s s' : Outbox}

theorem due_iff {r : Notice} (undelivered : r.state ≠ .DELIVERED) {now : Time} :
    Outbox.due now r = true ↔ ∃ t, r.dueAt = some t ∧ t ≤ now := by
  cases state : r.state with
  | PENDING => simp [Outbox.due, Notice.dueAt, state]
  | DELIVERING =>
      simp only [Outbox.due, Notice.dueAt, state, reached]
      cases r.claimDeadline <;> simp
  | DELIVERED => exact absurd state undelivered

/-- The timer is up when a row that waits for nothing is due. -/
theorem nextDueAt_le_iff {now : Time} : (∃ t, s.nextDueAt = some t ∧ t ≤ now) ↔
    ∃ r ∈ s.heads, Outbox.due now r = true := by
  have undelivered : ∀ r ∈ s.heads, r.state ≠ .DELIVERED := by
    intro r hr
    have gates := (List.mem_filter.mp hr).2
    simp only [ne_eq, Bool.and_eq_true, decide_eq_true_eq] at gates
    exact gates.1.1
  constructor
  · rintro ⟨t, least, le⟩
    obtain ⟨r, hr, due⟩ := List.mem_filterMap.mp (List.min?_eq_some_iff.mp least).1
    exact ⟨r, hr, (due_iff (undelivered r hr)).mpr ⟨t, due, le⟩⟩
  · rintro ⟨r, hr, due⟩
    obtain ⟨t, at_, le⟩ := (due_iff (undelivered r hr)).mp due
    have mem : t ∈ s.heads.filterMap Notice.dueAt := List.mem_filterMap.mpr ⟨r, hr, at_⟩
    obtain ⟨least, hleast⟩ := Option.isSome_iff_exists.mp (List.isSome_min?_of_mem mem)
    exact ⟨least, hleast, ((List.min?_eq_some_iff.mp hleast).2 t mem).trans le⟩

/-- A claim finds a row when one that waits for nothing is due. -/
theorem claimNext_isSome_iff (ok : Ok s) {owner : String} {now : Time} {leaseTtl : ℚ} :
    (∃ r, (s.claimNext owner now leaseTtl).2 = some r) ↔
      ∃ r ∈ s.heads, Outbox.due now r = true := by
  have gate : ∀ r : Notice, (r.state ≠ .DELIVERED && Outbox.due now r && s.headsStream r &&
      s.unblocked r) = true ↔ (r.state ≠ .DELIVERED && s.headsStream r && s.unblocked r) = true ∧
        Outbox.due now r = true := by
    intro r
    simp only [Bool.and_eq_true]
    tauto
  constructor
  · rintro ⟨r, found⟩
    rw [Outbox.claimNext] at found
    split at found
    · cases found
    · rename_i head hfind
      have passed := List.find?_some hfind
      obtain ⟨gates, due⟩ := (gate head).mp passed
      exact ⟨head, List.mem_filter.mpr ⟨List.mem_of_find?_eq_some hfind, gates⟩, due⟩
  · rintro ⟨r, hr, due⟩
    obtain ⟨mem, gates⟩ := List.mem_filter.mp hr
    rcases claimNext_cases ok owner now leaseTtl with none | ⟨_, _, _, _, r', _, found, _⟩
    · -- a search that finds nothing has met no row of this kind
      rw [Outbox.claimNext] at none
      split at none
      · rename_i missed
        exact absurd ((gate r).mpr ⟨gates, due⟩) (by simpa using List.find?_eq_none.mp missed r mem)
      · rename_i head hfind
        have same := congrArg (fun q => q.1.tokens) none
        simp [Outbox.set] at same
    · exact ⟨r', found⟩

/-! ## No deadlock -/

/-- A row under way has a deadline, and what a row depends on is older. -/
structure Timed (s : Outbox) : Prop where
  deadline : ∀ r ∈ s.rows, r.state = .DELIVERING → r.claimDeadline ≠ none
  older : ∀ d ∈ s.dependencies, ∃ r ∈ s.rows, ∃ p ∈ s.rows, r.eventId = d.1 ∧ p.eventId = d.2 ∧
    p.outboxSeq < r.outboxSeq

/-- No row is lost, and none changes its key or its place. -/
theorem Change.kept (ok : Ok s) (h : Change s s') {r : Notice} (hr : r ∈ s.rows) :
    ∃ r' ∈ s'.rows, r'.eventId = r.eventId ∧ r'.outboxSeq = r.outboxSeq := by
  cases h with
  | none eq => exact ⟨r, eq ▸ hr, rfl, rfl⟩
  | added n _ _ _ rows => exact ⟨r, rows ▸ List.mem_append_left _ hr, rfl, rfl⟩
  | changed r₀ r₁ mem _ fact seq rows =>
      by_cases same : r.eventId = r₀.eventId
      · obtain rfl := ok.ids.eq hr mem same
        exact ⟨r₁, (rows r₁).mpr (Or.inr rfl), congrArg Fact.eventId fact, seq⟩
      · exact ⟨r, (rows r).mpr (Or.inl ⟨hr, same⟩), rfl, rfl⟩

/-- A predecessor that is recorded was recorded before, or belongs to the row just enqueued and
was there before it. -/
theorem enqueue_predecessors {e : Fact} {ps : List String} {now : Time} {n : Notice}
    (h : s.enqueue e ps now = .ok (s', n)) : ∀ d ∈ s'.dependencies, d ∈ s.dependencies ∨
      (∃ r ∈ s'.rows, r.eventId = d.1 ∧ r.outboxSeq = s.seq + 1) ∧
        ∃ p ∈ s.rows, p.eventId = d.2 := by
  intro d hd
  rw [Outbox.enqueue] at h
  dsimp only at h
  split at h
  · cases h
  split at h
  · split at h
    · cases h
    split at h
    · cases h
    · cases h
      exact Or.inl hd
  · split at h
    · cases h
    · rename_i present
      cases h
      rcases List.mem_append.mp hd with old | new
      · exact Or.inl old
      · obtain ⟨q, declared, rfl⟩ := List.mem_map.mp new
        refine Or.inr ⟨⟨_, List.mem_append_right _ (List.mem_singleton_self _), rfl, rfl⟩, ?_⟩
        cases found : s.get q with
        | none =>
            exact absurd (List.any_eq_true.mpr ⟨q, declared, by rw [found]; rfl⟩) present
        | some p => exact ⟨p, Table.mem_of_get found, Table.key_of_get found⟩

theorem Timed.step (ok : Ok s) (timed : Timed s) (op : Op) : Timed (step s op) := by
  have change := step_change ok op
  constructor
  · intro r hr state
    cases op with
    | enqueue e ps now =>
        rw [Delivery.step] at hr
        cases henq : s.enqueue e ps now with
        | error _ =>
            rw [henq] at hr
            exact timed.deadline r hr state
        | ok result =>
            rw [henq] at hr
            rcases enqueue_rows henq r hr with hr | pending
            · exact timed.deadline r hr state
            · rw [pending] at state
              cases state
    | claim owner now leaseTtl =>
        rw [Delivery.step] at hr
        rcases claimNext_cases ok owner now leaseTtl with none |
          ⟨r₀, _, _, _, r₁, hr₁, _, rows, _⟩
        · rw [none] at hr
          exact timed.deadline r hr state
        · rcases (rows r).mp hr with ⟨hr, -⟩ | rfl
          · exact timed.deadline r hr state
          · simp [hr₁]
    | ack eventId token now =>
        rcases finish_rows (fun r h => by cases h) r hr with hr | ended
        · exact timed.deadline r hr state
        · exact absurd state ended
    | retry eventId token now error =>
        rcases finish_rows (fun r h => by cases h) r hr with hr | ended
        · exact timed.deadline r hr state
        · exact absurd state ended
  · intro d hd
    have carried : d ∈ s.dependencies → ∃ r ∈ (Delivery.step s op).rows,
        ∃ p ∈ (Delivery.step s op).rows, r.eventId = d.1 ∧ p.eventId = d.2 ∧
          p.outboxSeq < r.outboxSeq := by
      intro old
      obtain ⟨r, hr, p, hp, hrid, hpid, lt⟩ := timed.older d old
      obtain ⟨r', hr', rid, rseq⟩ := Change.kept ok change hr
      obtain ⟨p', hp', pid, pseq⟩ := Change.kept ok change hp
      exact ⟨r', hr', p', hp', rid.trans hrid, pid.trans hpid, by omega⟩
    cases op with
    | enqueue e ps now =>
        cases henq : s.enqueue e ps now with
        | error _ =>
            rw [Delivery.step, henq] at hd
            exact carried hd
        | ok result =>
            have next : Delivery.step s (.enqueue e ps now) = result.1 := by
              rw [Delivery.step, henq]
            rw [next] at hd
            rcases enqueue_predecessors henq d hd with old | ⟨⟨r, hr, rid, rseq⟩, p, hp, pid⟩
            · exact carried old
            · obtain ⟨p', hp', pid', pseq⟩ := Change.kept ok change hp
              refine ⟨r, next ▸ hr, p', hp', rid, pid'.trans pid, ?_⟩
              have bound := ok.seqs p hp
              omega
    | claim owner now leaseTtl =>
        rcases claimNext_cases ok owner now leaseTtl with none |
          ⟨_, _, _, _, _, _, _, _, _, dependencies, _⟩
        · rw [Delivery.step, none] at hd
          exact carried hd
        · rw [Delivery.step, dependencies] at hd
          exact carried hd
    | ack eventId token now => exact carried hd
    | retry eventId token now error => exact carried hd

theorem Timed.states (ops : ℕ → Op) (n : ℕ) : Timed (states ops n) := by
  induction n with
  | zero => exact ⟨by simp [Delivery.states], by simp [Delivery.states]⟩
  | succ n ih => exact ih.step (Ok.states ops n) (ops n)

/-- The oldest undelivered row waits for nothing. -/
theorem exists_head (ok : Ok s) (timed : Timed s) (h : ∃ r ∈ s.rows, r.state ≠ .DELIVERED) :
    ∃ r ∈ s.heads, r.dueAt ≠ none := by
  obtain ⟨r, ⟨hr, undelivered⟩, oldest⟩ := (measure Notice.outboxSeq).wf.has_min
    {r | r ∈ s.rows ∧ r.state ≠ .DELIVERED} h
  have delivered : ∀ p ∈ s.rows, p.outboxSeq < r.outboxSeq → p.state = .DELIVERED := by
    intro p hp lt
    by_contra waits
    exact oldest p ⟨hp, waits⟩ lt
  have heads : s.headsStream r = true := by
    rw [Outbox.headsStream, List.all_eq_true]
    intro p hp
    by_cases lt : p.outboxSeq < r.outboxSeq
    · simp [delivered p hp lt]
    · simp [lt]
  have unblocked : s.unblocked r = true := by
    rw [Outbox.unblocked, List.all_eq_true]
    intro d hd
    by_cases mine : d.1 = r.eventId
    · obtain ⟨r', hr', p, hp, rid, pid, lt⟩ := timed.older d hd
      obtain rfl : r' = r := ok.ids.eq hr' hr (rid.trans mine)
      have found : s.get d.2 = some p := ok.ids.get_eq_some.mpr ⟨hp, pid⟩
      simp [found, delivered p hp lt]
    · simp [mine]
  refine ⟨r, List.mem_filter.mpr ⟨hr, by simp [undelivered, heads, unblocked]⟩, ?_⟩
  cases state : r.state with
  | PENDING => simp [Notice.dueAt, state]
  | DELIVERING => simpa [Notice.dueAt, state] using timed.deadline r hr state
  | DELIVERED => exact absurd state undelivered

/-- In every state that calls can bring about: a claim finds a row if and only if the timer is
set and up, and the timer is set while a row is undelivered. -/
theorem timer_agrees (ops : ℕ → Op) (n : ℕ) :
    let s := states ops n
    (∀ owner now leaseTtl, (∃ r, (s.claimNext owner now leaseTtl).2 = some r) ↔
      ∃ t, s.nextDueAt = some t ∧ t ≤ now) ∧
    ((∃ r ∈ s.rows, r.state ≠ .DELIVERED) → ∃ t, s.nextDueAt = some t) := by
  intro s
  have ok := Ok.states ops n
  refine ⟨fun owner now leaseTtl => ?_, fun h => ?_⟩
  · rw [claimNext_isSome_iff ok, nextDueAt_le_iff]
  · obtain ⟨r, hr, due⟩ := exists_head ok (Timed.states ops n) h
    obtain ⟨t, at_⟩ := Option.ne_none_iff_exists'.mp due
    have mem : t ∈ s.heads.filterMap Notice.dueAt := List.mem_filterMap.mpr ⟨r, hr, at_⟩
    exact Option.isSome_iff_exists.mp (List.isSome_min?_of_mem mem)

end

end Omd.Delivery
