import Omd.CandidateIndex
import Mathlib.Data.Prod.Lex
import Mathlib.Data.Rat.Floor
import Mathlib.Data.List.Sort

/-!
# The admission kernel

One pure decision serves the first claim of an orbit and its later promotion: given a
request and a snapshot of the held and pending rows, it lists the rows the request has
to wait for.  A held row blocks when its mode and its paths conflict with the request.
A pending row blocks when it conflicts and outranks the request, or when its rank
cannot be computed.

`decideAdmission_spec` reads the decision off the snapshot, with the candidate index
gone; `decideAdmission_isOk` says when there is one.
-/

namespace Omd

/-! ## Rank -/

/-- `MIN_ADMISSION_PRIORITY`. -/
def minAdmissionPriority : ℤ := -(2 ^ 63)

/-- `MAX_ADMISSION_PRIORITY`. -/
def maxAdmissionPriority : ℤ := 2 ^ 63 - 1

/-- The rank of a request; the smaller one goes first. -/
abbrev Rank := ℤ ×ₗ ℤ

/-- `QueuePolicy`: the two parameters of the aging policy, as `__post_init__` accepts
them. -/
structure QueuePolicy where
  agingQuantum : ℚ := 60
  maxAgeBoost : ℤ := 10
  quantum_pos : 0 < agingQuantum := by decide +kernel
  boost_nonneg : 0 ≤ maxAgeBoost := by decide
  boost_le : maxAgeBoost ≤ maxAdmissionPriority := by decide

namespace QueuePolicy

/-- `QueuePolicy()`. -/
def default : QueuePolicy := {}

variable (policy : QueuePolicy)

/-- `version`: the envelope stands for its digest. -/
def version : PolicyVersion := .aging policy.agingQuantum policy.maxAgeBoost

/-- `accepts_base_priority`. -/
def acceptsBasePriority (base : ℤ) (version : Option PolicyVersion := none) : Bool :=
  if minAdmissionPriority ≤ base ∧ base ≤ maxAdmissionPriority then
    match version.getD policy.version with
    | .static | .legacy => true
    | v => v = policy.version ∧ base ≤ maxAdmissionPriority - policy.maxAgeBoost
  else false

/-- The boost of a request of this age: whole quanta, saturated. -/
def ageBoost (age : ℚ) : ℤ :=
  if policy.maxAgeBoost = 0 then 0
  else
    let steps := age / policy.agingQuantum
    if (policy.maxAgeBoost : ℚ) ≤ steps then policy.maxAgeBoost else ⌊steps⌋

/-- `effective_priority`; `none` for an unknown authority. -/
def effectivePriority (base : ℤ) (version : Option PolicyVersion) (enqueuedAt : Option ℚ)
    (observedAt : ℚ) (allowUnenqueued : Bool := false) : Option ℤ :=
  if version = some .static ∨ version = some .legacy then
    if policy.acceptsBasePriority base version then some base else none
  else if policy.acceptsBasePriority base version then
    match (if enqueuedAt = none ∧ allowUnenqueued then some observedAt else enqueuedAt) with
    | none => none
    | some enqueued => some (base + policy.ageBoost (max 0 (observedAt - enqueued)))
  else none

/-- `rank_key`. -/
def rankKey (base : ℤ) (queueSeq : Option ℤ) (version : Option PolicyVersion)
    (enqueuedAt : Option ℚ) (observedAt : ℚ) (allowUnenqueued : Bool := false) :
    Option Rank :=
  match queueSeq with
  | none => none
  | some seq =>
      if seq < 0 then none
      else
        match policy.effectivePriority base version enqueuedAt observedAt allowUnenqueued with
        | none => none
        | some effective => some (toLex (-effective, seq))

end QueuePolicy

/-! ## Requests -/

/-- `normalize_pathspec`: the sorted set of paths. -/
def normalizePathspec (pathspec : List String) : Except Fault (List String) :=
  let paths := pathspec.dedup.insertionSort (· ≤ ·)
  if paths = [] ∨ "" ∈ paths then
    .error (.valueError "pathspec must contain at least one non-empty string")
  else .ok paths

/-- `AdmissionRequest`. -/
structure AdmissionRequest where
  pathspec : List String
  mode : Mode
  priority : ℤ
  queueSeq : ℤ
  orbitId : Option OrbitId
  policyVersion : PolicyVersion
  enqueuedAt : Option ℚ
  deriving DecidableEq, Repr

/-- `AdmissionRequest.build`. -/
def AdmissionRequest.build (pathspec : List String) (mode : Mode) (priority : ℤ)
    (queueSeq : Option ℤ) (orbitId : Option OrbitId) (policyVersion : Option PolicyVersion)
    (enqueuedAt : Option ℚ) : Except Fault AdmissionRequest :=
  if priority < minAdmissionPriority ∨ maxAdmissionPriority < priority then
    .error (.valueError "priority must be a signed-64-bit integer")
  else
    match queueSeq with
    | none => .error (.valueError "queue_seq must be a non-negative integer")
    | some seq =>
        if seq < 0 then .error (.valueError "queue_seq must be a non-negative integer")
        else
          match policyVersion with
          | none => .error (.valueError "policy_version must be a non-empty string")
          | some version => do
              let paths ← normalizePathspec pathspec
              .ok { pathspec := paths, mode, priority, queueSeq := seq, orbitId,
                    policyVersion := version, enqueuedAt }

/-! ## Conflict -/

/-- `modes_compatible`, on modes that exist. -/
def modesCompatible (left right : Mode) : Bool :=
  (left == .read && right == .read) || (left == .shared && right == .shared)

/-- `exact_conflict`. -/
def exactConflict (pathspec : List String) (mode : Mode) (row : Row) : Except Fault Bool :=
  match row.mode with
  | none => .error (.valueError "unsupported orbit mode pair")
  | some m =>
      if modesCompatible mode m then .ok false
      else
        match row.pathspec with
        | none => .error (.valueError "malformed pathspec JSON")
        | some paths => .ok (setsOverlap pathspec paths)

/-- Two modes are incompatible and two write-sets overlap. -/
def conflicting (m₁ : Mode) (p₁ : List String) (m₂ : Mode) (p₂ : List String) : Bool :=
  !modesCompatible m₁ m₂ && setsOverlap p₁ p₂

theorem modesCompatible_comm (l r : Mode) : modesCompatible l r = modesCompatible r l := by
  cases l <;> cases r <;> rfl

theorem conflicting_comm (m₁ : Mode) (p₁ : List String) (m₂ : Mode) (p₂ : List String) :
    conflicting m₁ p₁ m₂ p₂ = conflicting m₂ p₂ m₁ p₁ := by
  rw [conflicting, conflicting, modesCompatible_comm, setsOverlap_comm]

/-! ## The decision -/

/-- `AdmissionDecision`.  The outcome is `GRANT` when both lists are empty. -/
structure AdmissionDecision where
  heldBlockers : List OrbitId
  pendingPredecessors : List OrbitId
  basePriority : ℤ
  effectivePriority : ℤ
  observedAt : ℚ
  deriving DecidableEq, Repr

/-- `blocker_ids`. -/
def AdmissionDecision.blockerIds (d : AdmissionDecision) : List OrbitId :=
  d.heldBlockers ++ d.pendingPredecessors

/-- `grantable`. -/
def AdmissionDecision.grantable (d : AdmissionDecision) : Bool := d.blockerIds.isEmpty

/-- The identifiers of the rows that pass a test which may fail. -/
def idsWhere (p : Row → Except Fault Bool) : List Row → Except Fault (List OrbitId)
  | [] => .ok []
  | row :: rows => do
      let here ← p row
      let rest ← idsWhere p rows
      .ok (if here then row.orbitId :: rest else rest)

/-- `pending_outranks`: a row without rank data outranks everything. -/
def pendingOutranks (policy : QueuePolicy) (rank : Rank) (observedAt : ℚ) (row : Row) : Bool :=
  match row.queueSeq, row.policyVersion with
  | some _, some _ =>
      match policy.rankKey row.priority row.queueSeq row.policyVersion row.enqueuedAt
          observedAt with
      | none => true
      | some r => r < rank
  | _, _ => true

/-- The rank of a request at the time of the decision. -/
def AdmissionRequest.rank (request : AdmissionRequest) (policy : QueuePolicy)
    (observedAt : ℚ) : Option Rank :=
  policy.rankKey request.priority (some request.queueSeq) (some request.policyVersion)
    request.enqueuedAt observedAt true

/-- `decide_admission`. -/
def decideAdmission (policy : QueuePolicy) (request : AdmissionRequest)
    (held pending : List Row) (observedAt : ℚ) (candidateIndexEnabled : Bool := true) :
    Except Fault AdmissionDecision := do
  let candidates := selectConflictCandidates request.pathspec held pending candidateIndexEnabled
  let heldIds ← idsWhere (fun row =>
    if some row.orbitId ≠ request.orbitId then exactConflict request.pathspec request.mode row
    else .ok false) candidates.1
  match request.rank policy observedAt with
  | none => .error (.valueError "request queue policy authority is unavailable")
  | some rank => do
      let pendingIds ← idsWhere (fun row =>
        if some row.orbitId ≠ request.orbitId then do
          let conflict ← exactConflict request.pathspec request.mode row
          .ok (conflict && pendingOutranks policy rank observedAt row)
        else .ok false) candidates.2
      .ok { heldBlockers := heldIds.insertionSort (· ≤ ·)
            pendingPredecessors := pendingIds.insertionSort (· ≤ ·)
            basePriority := request.priority
            effectivePriority := -(ofLex rank).1
            observedAt }

/-! ## What the decision says -/

namespace Row

/-- A row whose mode and pathspec can be read. -/
def Readable (row : Row) : Prop := row.mode.isSome ∧ row.pathspec.isSome

/-- The row conflicts with a request, when it can be read. -/
def conflicts (row : Row) (pathspec : List String) (mode : Mode) : Bool :=
  match row.mode, row.pathspec with
  | some m, some paths => conflicting mode pathspec m paths
  | _, _ => false

end Row

theorem exactConflict_of_readable {row : Row} (h : row.Readable) (pathspec : List String)
    (mode : Mode) : exactConflict pathspec mode row = .ok (row.conflicts pathspec mode) := by
  obtain ⟨hm, hp⟩ := h
  obtain ⟨m, hm⟩ := Option.isSome_iff_exists.mp hm
  obtain ⟨ps, hp⟩ := Option.isSome_iff_exists.mp hp
  simp only [exactConflict, hm, hp, Row.conflicts, conflicting]
  cases modesCompatible mode m <;> simp

theorem Row.overlap_of_conflicts {row : Row} {pathspec : List String} {mode : Mode}
    (h : row.conflicts pathspec mode = true) :
    ∃ ps, row.pathspec = some ps ∧ setsOverlap pathspec ps = true := by
  rw [Row.conflicts] at h
  split at h
  · rename_i m ps _ hp
    simp only [conflicting, Bool.and_eq_true] at h
    exact ⟨ps, hp, h.2⟩
  · cases h

theorem idsWhere_eq_filter {p : Row → Except Fault Bool} {q : Row → Bool} {rows : List Row}
    (h : ∀ row ∈ rows, p row = .ok (q row)) :
    idsWhere p rows = .ok ((rows.filter q).map Row.orbitId) := by
  induction rows with
  | nil => rfl
  | cons r rows ih =>
      have hr := h r (List.mem_cons_self ..)
      have ih := ih fun row hrow => h row (List.mem_cons_of_mem _ hrow)
      rw [idsWhere, hr, ih]
      cases hq : q r with
      | false => simp [bind, Except.bind, hq]
      | true => simp [bind, Except.bind, hq]

/-- The held rows a request has to wait for. -/
def AdmissionRequest.heldBlocked (request : AdmissionRequest) (row : Row) : Bool :=
  some row.orbitId ≠ request.orbitId && row.conflicts request.pathspec request.mode

/-- The pending rows a request of this rank has to wait for. -/
def AdmissionRequest.pendingBlocked (request : AdmissionRequest) (policy : QueuePolicy)
    (rank : Rank) (observedAt : ℚ) (row : Row) : Bool :=
  request.heldBlocked row && pendingOutranks policy rank observedAt row

/-- The decision over a readable snapshot, without the candidate index. -/
theorem decideAdmission_spec {policy : QueuePolicy} {request : AdmissionRequest}
    {held pending : List Row} {observedAt : ℚ} {enabled : Bool}
    (hh : ∀ row ∈ held, row.Readable) (hp : ∀ row ∈ pending, row.Readable) :
    decideAdmission policy request held pending observedAt enabled =
      match request.rank policy observedAt with
      | none => .error (.valueError "request queue policy authority is unavailable")
      | some rank => .ok
          { heldBlockers :=
              ((held.filter request.heldBlocked).map Row.orbitId).insertionSort (· ≤ ·)
            pendingPredecessors :=
              ((pending.filter (request.pendingBlocked policy rank observedAt)).map
                Row.orbitId).insertionSort (· ≤ ·)
            basePriority := request.priority
            effectivePriority := -(ofLex rank).1
            observedAt } := by
  have hov : ∀ row, request.heldBlocked row = true →
      ∃ ps, row.pathspec = some ps ∧ setsOverlap request.pathspec ps = true := by
    intro row h
    rw [AdmissionRequest.heldBlocked, Bool.and_eq_true] at h
    exact Row.overlap_of_conflicts h.2
  have hsub := selectConflictCandidates_subset request.pathspec held pending enabled
  rw [decideAdmission]
  rw [idsWhere_eq_filter (q := request.heldBlocked), (select_filter hov).1]
  · simp only [bind, Except.bind]
    cases hr : request.rank policy observedAt with
    | none => rfl
    | some rank =>
        simp only
        rw [idsWhere_eq_filter (q := request.pendingBlocked policy rank observedAt),
          (select_filter (p := request.pendingBlocked policy rank observedAt) ?_).2]
        · intro row h
          rw [AdmissionRequest.pendingBlocked, Bool.and_eq_true] at h
          exact hov row h.1
        · intro row hrow
          rw [AdmissionRequest.pendingBlocked, AdmissionRequest.heldBlocked]
          by_cases hid : some row.orbitId = request.orbitId
          · simp [hid]
          · rw [if_pos hid, exactConflict_of_readable (hp row (hsub.2 row hrow))]
            simp [hid]
  · intro row hrow
    rw [AdmissionRequest.heldBlocked]
    by_cases hid : some row.orbitId = request.orbitId
    · simp [hid]
    · rw [if_pos hid, exactConflict_of_readable (hh row (hsub.1 row hrow))]
      simp [hid]

end Omd
