import Omd.Connect

/-!
# Merging in the repository

What Phase B does outside the store.  The commands of git, and the check of the operator, are a
parameter: each may fail, and nothing is assumed of it here.  `merge_into` makes a merge commit
out of a candidate that the check accepted, and proves the worktree restored when it makes
none; `_connect_phase_b` leaves the trailer of the attempt in the integration branch.
-/

namespace Omd

/-! ## Commands -/

/-- A command of git.  It may change the world, also when it fails. -/
abbrev Command (W : Type) := EStateM Unit W

/-- How a command with a time limit fails: it exits with an error, or it is stopped. -/
inductive CommandError
  | failed | timeout
  deriving DecidableEq, Repr

/-- A command that may be given a time limit. -/
abbrev TimedCommand (W : Type) := EStateM CommandError W

/-- The message of a merge: `CLOUD CONNECT` and the trailers of the attempt. -/
structure Message where
  task : TaskId
  trailers : List Trailer
  deriving DecidableEq, Repr

/-- The check of the operator: `check_argv`, `check_timeout` and `check_output_limit`. -/
structure Check where
  argv : List String
  timeout : ℚ
  outputLimit : ℤ

/-- What `_run_operator_check` returns. -/
structure CheckRun where
  returncode : ℤ
  stdout : String
  stderr : String
  timedOut : Bool
  deriving DecidableEq, Repr

/-- The commands that a `GitRepo` runs in its integration worktree. -/
structure GitRepo (W T : Type) where
  /-- `worktree add`, unless there is one. -/
  ensureIntegrationWorktree : Command W Unit
  /-- `checkout`. -/
  checkout : String → Command W Unit
  /-- `rev-parse HEAD`. -/
  revParseHead : Command W Sha
  /-- `rev-parse --verify` of a branch. -/
  branchTip : String → Command W Sha
  /-- `status --porcelain --untracked-files=no`. -/
  status : Command W String
  /-- `diff --name-only`. -/
  diff : Command W (List String)
  /-- `diff --name-only --diff-filter=U`. -/
  unmerged : Command W (List String)
  /-- `write-tree`. -/
  writeTree : Command W T
  /-- `rev-parse -q --verify MERGE_HEAD`. -/
  verifyMergeHead : Command W Unit
  /-- `rev-parse --git-path MERGE_HEAD`, and whether there is such a file. -/
  mergeHeadExists : Command W Bool
  /-- `merge --no-ff` of a reference, with `--no-commit` or without. -/
  merge (commit : Bool) (msg : Message) (ref : Sha) (timeout : Option ℚ) : TimedCommand W Unit
  /-- `merge --abort`. -/
  abort : Command W Unit
  /-- `commit --no-edit`. -/
  commit : Command W Unit
  /-- `commit --allow-empty`. -/
  commitEmpty : Message → Command W Unit
  /-- `log --grep` of a trailer in a branch. -/
  grepTrailer : String → Trailer → Command W (Option Sha)
  /-- `merge-base --is-ancestor`. -/
  isAncestor : Sha → Sha → Command W Unit
  /-- `push`. -/
  push (remote branch : String) (timeout : Option ℚ) : TimedCommand W Unit
  /-- The check runs, or its program cannot be started. -/
  check : Check → EStateM String W CheckRun

/-! ## Failures -/

/-- Why a gate does not start, or does not go on. -/
inductive Precondition
  | drifted (expected : Option Sha) (found : Sha)
  | mergeHead
  | dirty (status : String)
  | candidateDiffers (paths : List String)
  deriving DecidableEq, Repr

/-- What a check changed of its candidate. -/
inductive Mutation
  | head (before after : Sha)
  | headUnreadable
  | index
  | indexUnreadable
  | tracked (paths : List String)
  | trackedUnreadable
  deriving DecidableEq, Repr

/-- What speaks against a restored worktree. -/
inductive Problem
  | abortFailed
  | headIs (actual expected : Sha)
  | cannotReadHead
  | mergeHeadStillExists
  | cannotProveMergeHeadAbsent
  | notClean (status : String)
  | cannotProveClean
  deriving DecidableEq, Repr

/-- The errors of `gitio`, and the `ValueError` of a check that is none. -/
inductive GitFailure
  | gitError
  | timeout
  | conflict (conflicts : List String)
  | checkFailed (argv : List String) (returncode : Option ℤ) (stdout stderr : String)
  | checkTimeout (argv : List String) (stdout stderr : String)
  | mutation (argv : List String) (stdout stderr : String) (mutations : List Mutation)
  | precondition (p : Precondition)
  | rollback (cause : GitFailure) (expectedHead : Sha) (actualHead : Option Sha)
      (problems : List Problem)
  | valueError

/-- A program over the repository. -/
abbrev GitM (W : Type) := EStateM GitFailure W

/-- `try`: the error of a program is a result. -/
def attempt {W ε α : Type} (m : EStateM ε W α) : GitM W (Except ε α) := fun w =>
  match m w with
  | .ok a w' => .ok (.ok a) w'
  | .error e w' => .ok (.error e) w'

namespace GitRepo

variable {W T α : Type}

/-- `_git`: a command that fails raises. -/
def git (m : Command W α) : GitM W α := fun w =>
  match m w with
  | .ok a w' => .ok a w'
  | .error () w' => .error .gitError w'

/-- `_git`, of a command that may be given a time limit. -/
def gitTimed (m : TimedCommand W α) : GitM W α := fun w =>
  match m w with
  | .ok a w' => .ok a w'
  | .error .failed w' => .error .gitError w'
  | .error .timeout w' => .error .timeout w'

variable (g : GitRepo W T)

/-- `_merge_in_progress`. -/
def mergeInProgress : GitM W Bool := do
  match ← attempt (git g.verifyMergeHead) with
  | .ok () => return true
  | .error _ => return false

/-! ## The proof of a rollback -/

/-- The merge that is in progress is aborted. -/
def abortProblems : GitM W (List Problem) := do
  if ← g.mergeInProgress then
    match ← attempt (git g.abort) with
    | .ok () => return []
    | .error _ => return [.abortFailed]
  else return []

def headProblems (expected : Sha) : GitM W (Option Sha × List Problem) := do
  match ← attempt (git g.revParseHead) with
  | .ok actual =>
      return (some actual, if actual ≠ expected then [.headIs actual expected] else [])
  | .error _ => return (none, [.cannotReadHead])

def mergeHeadProblems : GitM W (List Problem) := do
  match ← attempt (git g.mergeHeadExists) with
  | .ok exists_ => return if exists_ then [.mergeHeadStillExists] else []
  | .error _ => return [.cannotProveMergeHeadAbsent]

def cleanProblems : GitM W (List Problem) := do
  match ← attempt (git g.status) with
  | .ok status => return if status ≠ "" then [.notClean status] else []
  | .error _ => return [.cannotProveClean]

/-- `_abort_and_verify`. -/
def abortAndVerify (expected : Sha) (cause : GitFailure) : GitM W Unit := do
  let aborted ← g.abortProblems
  let (actual, head) ← g.headProblems expected
  let mergeHead ← g.mergeHeadProblems
  let clean ← g.cleanProblems
  let problems := aborted ++ head ++ mergeHead ++ clean
  if problems ≠ [] then throw (.rollback cause expected actual problems)

/-- `abort_merge_verified`. -/
def abortMergeVerified (expected : Sha) : GitM W Unit := g.abortAndVerify expected .gitError

/-- A failure is raised once the worktree is proven restored. -/
def abortAndRaise (original : Sha) (failure : GitFailure) : GitM W α := do
  g.abortAndVerify original failure
  throw failure

/-! ## The checked merge -/

/-- `_validate_check_args`. -/
def validateCheckArgs (check : Check) : GitM W Unit :=
  if check.argv = [] ∨ check.timeout ≤ 0 ∨ check.outputLimit ≤ 0 then throw .valueError
  else pure ()

/-- The error that a merge which failed is reported by. -/
def mergeFailure (e : GitFailure) (inMerge : Bool) (unmerged : List String) : GitFailure :=
  match e with
  | .timeout => .timeout
  | _ => if inMerge then .conflict (unmerged.mergeSort (· ≤ ·)) else .gitError

/-- The worktree is clean, and at a head that is returned. -/
def mergeStart (branch : String) : GitM W Sha := do
  git (g.checkout branch)
  let originalHead ← git g.revParseHead
  let dirty ← git g.status
  let merging ← g.mergeInProgress
  if merging ∨ dirty ≠ "" then
    -- the message asks once more whether a merge is in progress
    if ← g.mergeInProgress then throw (.precondition .mergeHead)
    else throw (.precondition (.dirty dirty))
  else return originalHead

/-- The candidate is merged, and not committed.  A conflict that `rerere` resolved is no
failure. -/
def mergeCandidate (originalHead : Sha) (msg : Message) (ref : Sha) (timeout : Option ℚ) :
    GitM W Unit := do
  match ← attempt (gitTimed (g.merge false msg ref timeout)) with
  | .ok () => return ()
  | .error e =>
      let unmerged ← git g.unmerged
      let inMerge ← g.mergeInProgress
      match e, inMerge, unmerged with
      | .timeout, _, _ => g.abortAndRaise originalHead (mergeFailure e inMerge unmerged)
      | _, true, [] => return ()
      | _, _, _ => g.abortAndRaise originalHead (mergeFailure e inMerge unmerged)

def headMutations (originalHead : Sha) : GitM W (List Mutation) := do
  match ← attempt (git g.revParseHead) with
  | .ok now => return if now ≠ originalHead then [.head originalHead now] else []
  | .error _ => return [.headUnreadable]

def indexMutations [DecidableEq T] (mergeIndex : T) : GitM W (List Mutation) := do
  match ← attempt (git g.writeTree) with
  | .ok now => return if now ≠ mergeIndex then [.index] else []
  | .error _ => return [.indexUnreadable]

def trackedMutations : GitM W (List Mutation) := do
  match ← attempt (git g.diff) with
  | .ok paths => return if paths ≠ [] then [.tracked paths] else []
  | .error _ => return [.trackedUnreadable]

/-- What the check changed of the candidate. -/
def mutations [DecidableEq T] (originalHead : Sha) (mergeIndex : T) : GitM W (List Mutation) := do
  let head ← g.headMutations originalHead
  let index ← g.indexMutations mergeIndex
  let tracked ← g.trackedMutations
  return head ++ index ++ tracked

/-- The check passes, and leaves the candidate as it was. -/
def checkCandidate [DecidableEq T] (originalHead : Sha) (check : Check) : GitM W Unit := do
  let mergeIndex ← git g.writeTree
  let before ← git g.diff
  if before ≠ [] then g.abortAndRaise originalHead (.precondition (.candidateDiffers before))
  else match ← attempt (g.check check) with
  | .error start => g.abortAndRaise originalHead (.checkFailed check.argv none "" start)
  | .ok run =>
      if run.timedOut then
        g.abortAndRaise originalHead (.checkTimeout check.argv run.stdout run.stderr)
      else if run.returncode ≠ 0 then
        g.abortAndRaise originalHead
          (.checkFailed check.argv (some run.returncode) run.stdout run.stderr)
      else
        let mutations ← g.mutations originalHead mergeIndex
        if mutations ≠ [] then
          g.abortAndRaise originalHead (.mutation check.argv run.stdout run.stderr mutations)

/-- The candidate becomes a commit. -/
def commitCandidate (originalHead : Sha) : GitM W Sha := do
  match ← attempt (git g.commit) with
  | .error failure => g.abortAndRaise originalHead failure
  | .ok () => git g.revParseHead

/-- `_merge_into_checked`. -/
def mergeIntoChecked [DecidableEq T] (branch : String) (ref : Sha) (msg : Message)
    (timeout : Option ℚ) (check : Check) : GitM W Sha := do
  validateCheckArgs check
  let originalHead ← g.mergeStart branch
  g.mergeCandidate originalHead msg ref timeout
  if ← g.mergeInProgress then
    g.checkCandidate originalHead check
    g.commitCandidate originalHead
  -- there was nothing to merge
  else git g.revParseHead

/-! ## The merge -/

/-- `merge_into`. -/
def mergeInto [DecidableEq T] (branch : String) (ref : Sha) (msg : Message) (timeout : Option ℚ)
    (check : Option Check) : GitM W Sha :=
  match check with
  | some check => g.mergeIntoChecked branch ref msg timeout check
  | none => do
      git (g.checkout branch)
      match ← attempt (gitTimed (g.merge true msg ref timeout)) with
      | .ok () => git g.revParseHead
      | .error .timeout =>
          let _ ← attempt (git g.abort)
          throw .timeout
      | .error _ =>
          let unmerged ← git g.unmerged
          let inMerge ← g.mergeInProgress
          match inMerge, unmerged with
          | true, [] =>
              git g.commit
              git g.revParseHead
          | _, _ =>
              let _ ← attempt (git g.abort)
              throw (mergeFailure .gitError inMerge unmerged)

end GitRepo

/-! ## Phase B -/

/-- What a coordinator is configured to merge with. -/
structure MergeCfg where
  integrationBranch : String
  mergeTimeout : Option ℚ := none
  integrationCheck : Option Check := none
  autoPush : Option String := none

/-- The message of the merge of an attempt. -/
def Intent.message (i : Intent) : Message where
  task := i.taskId
  trailers := [.task i.taskId, .attempt i.attemptId]

namespace GitRepo

variable {W T : Type} (g : GitRepo W T) (m : MergeCfg)

/-- The commit that carries the trailer of the attempt.  What was merged before is recorded by an
empty commit. -/
def attemptCommit (i : Intent) (merged : Sha) : GitM W Sha := do
  let found ← git (g.grepTrailer m.integrationBranch (.attempt i.attemptId))
  if found ≠ some merged then
    git (g.commitEmpty i.message)
    git g.revParseHead
  else return merged

/-- The push after a merge, which may fail. -/
def pushIntegration (push : Option String) : GitM W Unit := do
  match (push.orElse fun _ => m.autoPush).filter (· ≠ "") with
  | none => return ()
  | some remote =>
      let _ ← attempt (gitTimed (g.push remote m.integrationBranch m.mergeTimeout))

/-- The merge of Phase B, at the base that was audited. -/
def connectMerge [DecidableEq T] (i : Intent) (push : Option String) : GitM W Sha := do
  match i.branchTipSha.filter (· ≠ "") with
  | none => throw .gitError
  | some candidate =>
      let currentBase ← git (g.branchTip m.integrationBranch)
      if (i.integrationBaseSha.filter (· ≠ "")) ≠ some currentBase then
        throw (.precondition (.drifted i.integrationBaseSha currentBase))
      git g.ensureIntegrationWorktree
      let merged ←
        g.mergeInto m.integrationBranch candidate i.message m.mergeTimeout m.integrationCheck
      let sha ← g.attemptCommit m i merged
      git (g.isAncestor candidate sha)
      g.pushIntegration m push
      return sha

/-- What Phase C starts from: what Phase B returned, and no proof. -/
def unproven (i : Intent) (o : MergeOutcome) : GitProof :=
  { mergeSha := o.mergeSha, err := o.err, rollbackVerified := !i.repoBound }

/-- What follows from the commit that carries the trailer of the attempt, or from there being
none. -/
def reconcileFound (i : Intent) (o : MergeOutcome) : Option Sha → GitM W GitProof
  | some proven =>
      match i.branchTipSha.filter (· ≠ "") with
      | none => return { unproven i o with provenSha := some proven, proofError := true }
      | some candidate => do
          match ← attempt (git (g.isAncestor candidate proven)) with
          | .ok () =>
              return { unproven i o with
                mergeSha := some proven
                err := none
                provenSha := some proven }
          | .error _ => return { unproven i o with provenSha := some proven, proofError := true }
  | none =>
      match o.err with
      | none => return unproven i o
      | some .precondition => return { unproven i o with rollbackVerified := true }
      | some .rollback => return unproven i o
      | some _ =>
          match i.integrationBaseSha with
          | none => return { unproven i o with proofError := true }
          | some sha => do
              match ← attempt (g.abortMergeVerified sha) with
              | .ok () => return { unproven i o with rollbackVerified := true }
              | .error _ => return { unproven i o with proofError := true }

/-- The part of `_connect_phase_c` before its transaction. -/
def reconcile (i : Intent) (o : MergeOutcome) : GitM W GitProof := do
  if !i.repoBound then return unproven i o
  else match ← attempt (git g.ensureIntegrationWorktree) with
  | .error _ => return { unproven i o with proofError := true }
  | .ok () => match ← attempt (git (g.grepTrailer m.integrationBranch (.attempt i.attemptId))) with
  | .error _ => return { unproven i o with proofError := true }
  | .ok found => g.reconcileFound i o found

end GitRepo

end Omd
