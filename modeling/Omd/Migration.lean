import Omd.Admission
import Omd.Store
import Mathlib.Data.Prod.Lex
import Mathlib.Data.String.Basic
import Mathlib.Order.WithBot

/-!
# The migration of a legacy database

`_migrate` runs in one transaction.  It adds the columns that are missing, gives every pending
row that waits without a ticket one that is new, in the order of `created_at`, and makes the
pair of a request and its generation unique: of the rows that share one, all but the first are
moved past the largest generation of the request, group by group.

A unique index that cannot be created rolls all of it back.
-/

namespace Omd.Migration

open Lib

/-- What rolls a migration back. -/
inductive Abort
  | valueError (text : String)
  | integrityError (text : String)
  deriving DecidableEq, Repr

/-- A row of `orbits`, with the columns that the migration reads or writes.  A creation time of
`⊥` is `NULL`, which sorts first. -/
structure LegacyOrbit where
  orbitId : String
  kind : OrbitKind := .orbit
  state : OrbitState
  agentId : Option String := none
  pathspec : List String
  fence : Option ℕ := none
  createdAt : WithBot Time
  queueSeq : Option ℤ := none
  requestedTtl : Option ℚ := none
  policyVersion : Option String := none
  pathspecDigest : Option String := none
  requestId : Option String := none
  requestGeneration : ℕ := 0
  enqueuedAt : Option Time := none
  waitDeadline : Option Time := none
  authoritySnapshotHash : Option String := none
  decisionId : Option String := none
  decisionType : Option String := none
  decisionSchema : Option String := none
  deriving DecidableEq

/-- A row of `tasks`. -/
structure LegacyTask where
  taskId : String
  state : TaskState
  connectRepoBound : Bool := false
  connectAttemptId : Option String := none
  integrationBaseSha : Option String := none
  branchTipSha : Option String := none
  mergeSha : Option String := none
  worktree : Option String := none
  branch : Option String := none
  deriving DecidableEq, Repr

/-- The tables.  `seq` is `-1` while the counter of the tickets is missing, and
`repoBoundColumn` says whether `tasks` has the column `connect_repo_bound`. -/
structure Db where
  orbits : List LegacyOrbit := []
  tasks : List LegacyTask := []
  idempotency : List (String × String) := []
  seq : ℤ := -1
  repoBoundColumn : Bool := false
  deriving DecidableEq

namespace LegacyOrbit

variable (o : LegacyOrbit)

/-- The row holds or waits. -/
def live : Bool := o.state = .HELD || o.state = .PENDING

/-- A pending row that lacks a column of the fair queue. -/
def incomplete : Bool :=
  o.kind = .orbit && o.state = .PENDING &&
    (o.queueSeq.isNone || o.requestedTtl.isNone || o.policyVersion.isNone ||
      o.pathspecDigest.isNone || o.requestId.isNone || o.enqueuedAt.isNone ||
      o.waitDeadline.isNone)

/-- The request and generation of a path orbit. -/
def group : Option (String × ℕ) :=
  if o.kind = .orbit then o.requestId.map fun r => (r, o.requestGeneration) else none

/-- The order of the queue before there were tickets. -/
def age : WithBot Time ×ₗ String := toLex (o.createdAt, o.orbitId)

/-- The order of the rows of one generation: what lives comes last. -/
def rank : Bool ×ₗ (WithBot Time ×ₗ String) := toLex (o.live, o.age)

/-- The order of the rows of one request. -/
def newness : ℕ ×ₗ WithBot Time := toLex (o.requestGeneration, o.createdAt)

end LegacyOrbit

/-- `value or default`. -/
def orDefault (value : Option String) (default : String) : String :=
  (value.filter (· ≠ "")).getD default

/-- `LEGACY_ADMISSION_POLICY_VERSION`. -/
def legacyPolicyVersion : String := "omd-admission/legacy-backfill-v1"

/-- The digest of a pathspec: the stored one, or a new one. -/
def LegacyOrbit.digestOr (digest : List String → String) (row : LegacyOrbit) :
    Except Abort String :=
  match row.pathspecDigest.filter (· ≠ ""), normalizePathspec row.pathspec with
  | some d, _ => .ok d
  | none, .ok paths => .ok (digest paths)
  | none, .error _ => .error (.valueError "pathspec must contain at least one non-empty string")

namespace Db

variable (db : Db)

/-- The columns, with the mode of the merges that an old `connect` left. -/
def addColumns : Db :=
  if db.repoBoundColumn then db
  else
    { db with
      repoBoundColumn := true
      tasks := db.tasks.map fun t =>
        { t with
          connectRepoBound := (t.state = .CONNECTING || t.state = .MERGED) &&
            t.connectAttemptId.isNone &&
              (t.integrationBaseSha.isSome || t.branchTipSha.isSome || t.mergeSha.isSome ||
                t.worktree.isSome || t.branch.isSome) } }

/-- The tickets of the path orbits. -/
def tickets : List ℤ := db.orbits.filterMap fun o => if o.kind = .orbit then o.queueSeq else none

/-- The counter, raised to the largest ticket. -/
def raiseSeq : Db :=
  match db.tickets.max? with
  | none => db
  | some ticket => if db.seq < ticket then { db with seq := ticket } else db

/-- The pending rows that lack a column, oldest first. -/
def legacyRows : List LegacyOrbit :=
  (db.orbits.filter LegacyOrbit.incomplete).insertionSort fun a b => a.age ≤ b.age

/-- The columns of one pending row. -/
def backfill (digest : List String → String) (now : Time) (row : LegacyOrbit) :
    Except Abort Db := do
  let enqueuedAt := row.enqueuedAt.getD (row.createdAt.unbotD now)
  let ticket := row.queueSeq.getD (db.seq + 1)
  let pathDigest ← row.digestOr digest
  return { db with
    seq := if row.queueSeq.isSome then db.seq else db.seq + 1
    orbits := Table.modify LegacyOrbit.orbitId row.orbitId (fun o =>
      { o with
        queueSeq := some ticket
        requestedTtl := some (row.requestedTtl.getD 600)
        policyVersion := some (orDefault row.policyVersion legacyPolicyVersion)
        pathspecDigest := some pathDigest
        requestId := some (orDefault row.requestId ("internal:" ++ row.orbitId))
        enqueuedAt := some enqueuedAt
        waitDeadline := some (row.waitDeadline.getD (enqueuedAt + 3600)) }) db.orbits }

/-- The loop over the pending rows. -/
def backfillRows (digest : List String → String) (now : Time) :
    List LegacyOrbit → Db → Except Abort Db
  | [], db => .ok db
  | row :: rows, db => do
      let db ← db.backfill digest now row
      backfillRows digest now rows db

/-- The schema of the decisions that have none. -/
def nameSchemas : Db :=
  { db with
    orbits := db.orbits.map fun o =>
      if o.decisionId.isSome && o.decisionSchema.isNone then
        { o with decisionSchema := some "admission_decision/v1" }
      else o }

/-- The requests and generations of the path orbits. -/
def groups : List (String × ℕ) := db.orbits.filterMap LegacyOrbit.group

/-- The pairs that several rows share, in order. -/
def duplicateGenerations : List (String × ℕ) :=
  (db.groups.dedup.filter fun g => 1 < db.groups.count g).insertionSort
    fun a b => toLex a ≤ toLex b

/-- `MAX(request_generation)` of a request. -/
def maxGeneration (request : String) : ℕ :=
  ((db.groups.filter fun g => g.1 = request).map Prod.snd).max?.getD 0

end Db

/-- A row that is moved to another generation. -/
def LegacyOrbit.moved (o : LegacyOrbit) (generation : ℕ) : LegacyOrbit :=
  { o with
    requestGeneration := generation
    authoritySnapshotHash := none
    decisionId := none
    decisionType := some "MIGRATION_RENUMBERED" }

/-- The rows, moved one after the other to the generations from `next` on. -/
def renumberRows : ℕ → List LegacyOrbit → List LegacyOrbit → List LegacyOrbit
  | _, [], orbits => orbits
  | next, row :: rows, orbits =>
      renumberRows (next + 1) rows
        (Table.modify LegacyOrbit.orbitId row.orbitId (fun o => o.moved next) orbits)

namespace Db

variable (db : Db)

/-- One duplicated generation: its first row stays, the others are moved. -/
def renumber (g : String × ℕ) : Db :=
  let rows := (db.orbits.filter fun o => o.group = some g).insertionSort fun a b => a.rank ≤ b.rank
  { db with
    idempotency := db.idempotency.filter fun r => !(r.1 = g.1 && r.2 = "claim")
    orbits := renumberRows (db.maxGeneration g.1 + 1) rows.tail db.orbits }

/-- `_migrate`. -/
def migrate (digest : List String → String) (now : Time) : Except Abort Db := do
  let db := db.addColumns.raiseSeq
  let db ← backfillRows digest now db.legacyRows db
  let db := db.nameSchemas
  if ¬ db.tickets.Nodup then .error (.integrityError "orbits.queue_seq")
  else
    let db := db.duplicateGenerations.foldl renumber db
    if ¬ db.groups.Nodup then
      .error (.integrityError "orbits.request_id, orbits.request_generation")
    else .ok db

/-- `latest_orbit_by_request`. -/
def latestOrbitByRequest (request : String) : Option LegacyOrbit :=
  ((db.orbits.filter fun o => o.kind = .orbit && o.requestId = some request).insertionSort
    fun a b => b.newness ≤ a.newness).head?

end Db

end Omd.Migration
