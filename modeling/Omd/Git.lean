import Omd.Claim

/-!
# What a coordinator sees of its repository

The repository is outside the store, and every answer it gives may be an error.  A
`GitView` is the answers one transaction would get; a coordinator without a repository has
none.  The write-set audit is the one check of the coordinator that reads it: every path
the candidate changed must lie under the globs its task holds.
-/

namespace Omd

/-- The trailer a merge commit is found by. -/
inductive Trailer
  | task (id : TaskId)
  | attempt (id : AttemptId)
  deriving DecidableEq, Repr

/-- How `abort_merge_verified` ended. -/
inductive AbortOutcome
  | verified | rollbackError | gitError
  deriving DecidableEq, Repr

/-- The answers of the repository.  `none` is a `GitError`. -/
structure GitView where
  /-- `branch_tip` of a task branch. -/
  branchTip : String → Option Sha := fun _ => none
  /-- `branch_tip` of the integration branch. -/
  integrationTip : Option Sha := none
  /-- `changed_paths candidate base`. -/
  changedPaths : Sha → Sha → Option (List String) := fun _ _ => none
  /-- `ensure_integration_worktree` went through. -/
  worktreeReady : Bool := true
  /-- `branch_in_integration`, strict. -/
  branchInIntegration : Trailer → Option (Option Sha) := fun _ => none
  /-- `assert_ancestor` passes. -/
  isAncestor : Sha → Sha → Bool := fun _ _ => false
  /-- `abort_merge_verified`. -/
  abortMergeVerified : Sha → AbortOutcome := fun _ => .gitError
  /-- `add_worktree` goes through. -/
  addWorktree : Bool := true

/-- The clock, the coordinator and its repository, as one transaction has them. -/
structure Env where
  now : Time
  instanceId : String := ""
  git : Option GitView := none

/-- `WritesetVerdict`. -/
inductive WritesetVerdict
  | SKIPPED_NO_REPO | CLEAN | VIOLATION | AUDIT_ERROR
  deriving DecidableEq, Repr

/-- `blocks`. -/
def WritesetVerdict.blocks : WritesetVerdict → Bool
  | .VIOLATION | .AUDIT_ERROR => true
  | _ => false

/-- `reason`, of a verdict that blocks. -/
def WritesetVerdict.reason : WritesetVerdict → String
  | .VIOLATION => "writeset_violation"
  | _ => "writeset_audit_error"

/-- `_writeset_audit`. -/
def writesetAudit (git : Option GitView) (candidate base : Option Sha) (globs : List String) :
    WritesetVerdict :=
  match git, candidate, base with
  | none, _, _ => .SKIPPED_NO_REPO
  | some view, some candidate, some base =>
      match view.changedPaths candidate base with
      | none => .AUDIT_ERROR
      | some changed =>
          if changed.all fun p => pathInGlobs p globs then .CLEAN else .VIOLATION
  | some _, _, _ => .AUDIT_ERROR

/-- What an attempt merges, onto what, and the verdict about it. -/
structure Candidate where
  branchTip : Option Sha := none
  integrationBase : Option Sha := none
  audit : WritesetVerdict

/-- `_snapshot_connect_candidate`. -/
def snapshotConnectCandidate (git : Option GitView) (branch : Option String)
    (globs : List String) : Candidate :=
  match git with
  | none => { audit := .SKIPPED_NO_REPO }
  | some view =>
      match branch with
      | none => { audit := writesetAudit git none none globs }
      | some branch =>
          match view.branchTip branch, view.integrationTip with
          | some tip, some base =>
              { branchTip := some tip
                integrationBase := some base
                audit := writesetAudit git (some tip) (some base) globs }
          | _, _ => { audit := .AUDIT_ERROR }

/-- `_claimed_write_globs`. -/
def claimedWriteGlobs (writes : List Orbit) : List String := writes.flatMap Orbit.pathspec

end Omd
