import Mathlib
import Omd.Lib.Outcome
import Omd.MergeGate

/-!
# Rollbacks

Phase C asks the repository what became of the merge of Phase B, and rolls the attempt back when
it is told that there is none.  The answers it goes by are those of one `GitView`, and a rollback
that it calls verified finds the worktree at the head it had, or clean at the audited base.
-/

namespace Omd

open Lib Std.Do

set_option mvcgen.warning false

variable {W T α : Type} {obj : Sha → Commit T} {see : W → Worktree T} {t : Worktree T}
  {m : MergeCfg} {i : Intent} {o : MergeOutcome}

namespace GitRepo

variable {g : GitRepo W T}

theorem reconcileFound_view (g : GitRepo W T) (bound : i.repoBound = true) (r : Option Sha)
    (w : W) : ∃ view w', g.reconcileFound i o r w = .ok (reconcileGit (some view) i o) w' := by
  cases r with
  | some proven =>
      cases tip : i.branchTipSha.filter (· ≠ "") with
      | none =>
          -- an empty tip is no ancestor
          refine ⟨{ branchInIntegration := fun _ => some (some proven) }, w, ?_⟩
          simp only [reconcileFound, tip, reconcileGit, bound, unproven]
          cases i.branchTipSha <;> rfl
      | some candidate =>
          have named : i.branchTipSha = some candidate := (Option.filter_eq_some_iff.mp tip).1
          cases ancestor : g.isAncestor candidate proven w with
          | ok a w' =>
              refine ⟨{ branchInIntegration := fun _ => some (some proven)
                        isAncestor := fun _ _ => true }, w', ?_⟩
              simp only [reconcileFound, tip, reconcileGit, bound, unproven]
              simp [named, bind, EStateM.bind, attempt, git, ancestor, pure, EStateM.pure]
          | error e w' =>
              refine ⟨{ branchInIntegration := fun _ => some (some proven) }, w', ?_⟩
              simp only [reconcileFound, tip, reconcileGit, bound, unproven]
              simp [named, bind, EStateM.bind, attempt, git, ancestor, pure, EStateM.pure]
  | none =>
      let view (aborted : AbortOutcome) : GitView :=
        { branchInIntegration := fun _ => some none, abortMergeVerified := fun _ => aborted }
      cases err : o.err with
      | none =>
          refine ⟨view .gitError, w, ?_⟩
          simp [reconcileFound, err, reconcileGit, bound, view, unproven, pure, EStateM.pure]
      | some e =>
      cases e with
      | precondition | rollback =>
          refine ⟨view .gitError, w, ?_⟩
          simp [reconcileFound, err, reconcileGit, bound, view, unproven, pure, EStateM.pure]
      | _ =>
          cases base : i.integrationBaseSha with
          | none =>
              refine ⟨view .gitError, w, ?_⟩
              simp [reconcileFound, err, reconcileGit, bound, view, base, unproven, pure,
                EStateM.pure]
          | some sha =>
          cases abort : g.abortMergeVerified sha w with
          | ok a w' =>
              refine ⟨view .verified, w', ?_⟩
              simp [reconcileFound, err, reconcileGit, bound, view, base, unproven, bind,
                EStateM.bind, attempt, abort, pure, EStateM.pure]
          | error a w' =>
              refine ⟨view .gitError, w', ?_⟩
              simp [reconcileFound, err, reconcileGit, bound, view, base, unproven, bind,
                EStateM.bind, attempt, abort, pure, EStateM.pure]

/-- Phase C always has an answer, and it is the one of a view of the repository. -/
theorem reconcile_view (g : GitRepo W T) (m : MergeCfg) (i : Intent) (o : MergeOutcome) (w : W) :
    ∃ view w', g.reconcile m i o w = .ok (reconcileGit (some view) i o) w' := by
  cases bound : i.repoBound with
  | false => exact ⟨{}, w, by simp [reconcile, reconcileGit, unproven, bound]; rfl⟩
  | true =>
  cases ensured : g.ensureIntegrationWorktree w with
  | error e w₁ =>
      refine ⟨{ worktreeReady := false }, w₁, ?_⟩
      simp [reconcile, reconcileGit, unproven, bound, bind, EStateM.bind, attempt, git, ensured]
      rfl
  | ok _ w₁ =>
  cases found : g.grepTrailer m.integrationBranch (.attempt i.attemptId) w₁ with
  | error e w₂ =>
      refine ⟨{ branchInIntegration := fun _ => none }, w₂, ?_⟩
      simp [reconcile, reconcileGit, unproven, bound, bind, EStateM.bind, attempt, git, ensured,
        found]
      rfl
  | ok r w₂ =>
      have run : g.reconcile m i o w = g.reconcileFound i o r w₂ := by
        simp [reconcile, bound, bind, EStateM.bind, attempt, git, ensured, found]
      rw [run]
      exact reconcileFound_view g bound r w₂

/-- What Phase C found is what the branch records, and what it undid is undone. -/
structure Truthful (obj : Sha → Commit T) (i : Intent) (o : MergeOutcome) (t t' : Worktree T)
    (p : GitProof) : Prop where
  proven : p.proofError = false → ∀ sha, p.provenSha = some sha →
    Descends obj t.head sha ∧ Trailer.attempt i.attemptId ∈ (obj sha).trailers ∧
      ∃ candidate, i.branchTipSha = some candidate ∧ Descends obj sha candidate
  newest : p.proofError = false → Trailer.attempt i.attemptId ∈ (obj t.head).trailers →
    p.provenSha = some t.head
  absent : p.rollbackVerified = true → ∀ sha, Descends obj t.head sha →
    Trailer.attempt i.attemptId ∉ (obj sha).trailers
  worktree : p.rollbackVerified = true → o.err = some .precondition ∧ t' = t ∨
    ∃ base, i.integrationBaseSha = some base ∧ t'.Restored obj base

namespace Truthful

variable {t' : Worktree T} {p : GitProof}

/-- Phase C has no answer. -/
theorem fails (error : p.proofError = true) (unverified : p.rollbackVerified = false) :
    Truthful obj i o t t' p := by
  constructor <;> simp [error, unverified]

/-- The attempt is recorded. -/
theorem proves {proven candidate : Sha} (found : Newest obj t.head (.attempt i.attemptId) proven)
    (eq : p.provenSha = some proven) (unverified : p.rollbackVerified = false)
    (tip : i.branchTipSha = some candidate) (ancestor : Descends obj proven candidate) :
    Truthful obj i o t t' p where
  proven := by
    intro _ sha named
    obtain rfl : proven = sha := Option.some.inj (eq.symm.trans named)
    obtain ⟨history, carries⟩ := found.carries proven rfl
    exact ⟨history, carries, candidate, tip, ancestor⟩
  newest := fun _ carries => eq.trans (found.head carries)
  absent := by simp [unverified]
  worktree := by simp [unverified]

/-- The attempt is not recorded. -/
theorem absents (found : Newest obj t.head (.attempt i.attemptId) none)
    (eq : p.provenSha = none)
    (undone : p.rollbackVerified = true → o.err = some .precondition ∧ t' = t ∨
      ∃ base, i.integrationBaseSha = some base ∧ t'.Restored obj base) :
    Truthful obj i o t t' p where
  proven := by simp [eq]
  newest := fun _ carries => by cases found.head carries
  absent := fun _ => found.absent rfl
  worktree := undone

end Truthful

theorem reconcileFound_spec (h : g.Honest see obj) (bound : i.repoBound = true) {r : Option Sha}
    {t : Worktree T} (found : Newest obj t.head (.attempt i.attemptId) r) :
    ⦃fun w => ⌜see w = t⌝⦄ g.reconcileFound i o r
      ⦃post⟨fun p w => ⌜Truthful obj i o t (see w) p⌝, fun _ _ => ⌜False⌝⟩⦄ := by
  have ancestor := fun a d => (h.isAncestor a d).attempt
  have abort := fun base => attempt_spec (abortAndVerify_spec base .gitError h)
  have unverified : (!i.repoBound) = false := by simp [bound]
  mvcgen [reconcileFound, abortMergeVerified, ancestor, abort]
  · exact .fails rfl unverified
  · rename_i tip _ _ _ _ _ descends
    subst r
    exact .proves found rfl unverified (Option.filter_eq_some_iff.mp tip).1 (descends.2 ())
  · exact .fails rfl unverified
  · subst r
    exact .absents found rfl (by simp [unproven, bound])
  · rename_i err _ seen
    subst r
    exact .absents found rfl fun _ => Or.inl ⟨err, seen⟩
  · subst r
    exact .absents found rfl (by simp [unproven, bound])
  · exact .fails rfl unverified
  · rename_i base _ _ _ _ _ verified
    subst r
    exact .absents found rfl fun _ => Or.inr ⟨_, base, verified.1 ()⟩
  · exact .fails rfl unverified

theorem reconcile_spec (h : g.Honest see obj) (bound : i.repoBound = true) {t : Worktree T}
    (here : t.branch = m.integrationBranch) :
    ⦃fun w => ⌜see w = t⌝⦄ g.reconcile m i o
      ⦃post⟨fun p w => ⌜Truthful obj i o t (see w) p⌝, fun _ _ => ⌜False⌝⟩⦄ := by
  have ensure := h.ensure.attempt
  have grep := (h.grepTrailer m.integrationBranch (.attempt i.attemptId)).attempt
  have found (r : Option Sha) := under fun newest : Newest obj t.head (.attempt i.attemptId) r =>
    reconcileFound_spec (o := o) h bound newest
  have unverified : (!i.repoBound) = false := by simp [bound]
  mvcgen [reconcile, ensure, grep, found]
  · simp_all
  · exact .fails rfl unverified
  · exact .fails rfl unverified
  · rename_i seen _ _ _ _ _ _ _ newest ensured
    rw [ensured.1, seen] at newest
    exact ⟨newest.1, newest.2 _ rfl here.symm⟩

/-! ## Phase B -/

/-- A precondition that fails leaves the worktree, or finds it restored. -/
def Halted (obj : Sha → Commit T) (t t' : Worktree T) (e : GitFailure) : Prop :=
  ∀ p, e = .precondition p → t' = t ∨ t'.Restored obj t.head

theorem Halted.mergeFailure {t' : Worktree T} (e : GitFailure) (inMerge : Bool)
    (unmerged : List String) : Halted obj t t' (mergeFailure e inMerge unmerged) := by
  intro p
  cases e <;> cases inMerge <;> simp [GitRepo.mergeFailure]

/-- Phase B merged at the audited base, and its commit is the head.  Where the branch was not
left, the commit carries the trailer of the attempt. -/
structure Connected (obj : Sha → Commit T) (m : MergeCfg) (i : Intent) (t t' : Worktree T)
    (sha : Sha) : Prop where
  candidate : ∃ candidate, i.branchTipSha = some candidate ∧ Descends obj sha candidate
  base : i.integrationBaseSha = some t.head
  head : sha = t'.head
  trailer : t'.branch = m.integrationBranch → Trailer.attempt i.attemptId ∈ (obj sha).trailers

/-- What Phase B returned, a commit or an error. -/
structure Returned (obj : Sha → Commit T) (m : MergeCfg) (i : Intent) (o : MergeOutcome)
    (t t' : Worktree T) : Prop where
  commit : ∀ sha, o.mergeSha = some sha → Connected obj m i t t' sha
  precondition : o.err = some .precondition → t' = t ∨ t'.Restored obj t.head

end GitRepo

/-! ## What the store records -/

section Settled

variable {cfg : Cfg} {now : Time} {s s' : Store} {p : GitProof} {reply : Reply}

theorem connectRollback_done {task : TaskId} {token : OrbitId} {err : ConnectError}
    (h : connectRollback cfg now s task token err = .ok (s', reply)) :
    reply.state = some (.task .DONE) := by
  rw [connectRollback, Outcome.bind_eq_ok] at h
  obtain ⟨s₁, -, h⟩ := h
  rw [Outcome.bind_eq_ok] at h
  obtain ⟨s₂, -, h⟩ := h
  rw [Outcome.bind_eq_ok] at h
  obtain ⟨s₃, -, h⟩ := h
  dsimp only at h
  split at h <;> (cases h; rfl)

theorem connectMerge_merged {task : TaskId} {token : OrbitId} {sha : Option Sha}
    (h : connectMerge cfg now s task token sha = .ok (s', reply)) :
    reply.state = some (.task .MERGED) ∧ reply.mergeSha = sha := by
  rw [connectMerge, Outcome.bind_eq_ok] at h
  obtain ⟨s₁, -, h⟩ := h
  rw [Outcome.bind_eq_ok] at h
  obtain ⟨s₂, -, h⟩ := h
  rw [Outcome.bind_eq_ok] at h
  obtain ⟨s₃, -, h⟩ := h
  rw [Outcome.bind_eq_ok] at h
  obtain ⟨s₄, -, h⟩ := h
  cases h
  exact ⟨rfl, rfl⟩

/-- What an attempt in a repository was settled by. -/
structure Settled (p : GitProof) (reply : Reply) : Prop where
  merged : reply.state = some (.task .MERGED) → p.proofError = false ∧ p.err = none ∧
    ∃ sha, p.provenSha = some sha ∧ p.mergeSha = some sha ∧ reply.mergeSha = some sha
  done : reply.state = some (.task .DONE) → p.rollbackVerified = true ∧ p.err ≠ none

theorem connectPhaseC_settled (bound : i.repoBound = true)
    (h : connectPhaseC cfg now s i p = .ok (s', reply)) : Settled p reply := by
  rw [connectPhaseC] at h
  split at h
  · cases h
    constructor <;> rintro ⟨⟩
  split at h
  · cases h
    constructor <;> rintro ⟨⟩
  rename_i noError
  have noError : p.proofError = false := by simpa using noError
  split at h
  · rename_i err
    split at h
    · cases h
      constructor <;> rintro ⟨⟩
    · rename_i proof
      obtain ⟨sha, merged⟩ : ∃ sha, p.mergeSha = some sha := by
        rw [← Option.ne_none_iff_exists']
        exact fun none_ => proof ⟨bound, Or.inl none_⟩
      have proven : p.provenSha = some sha := by
        by_contra differs
        exact proof ⟨bound, Or.inr (merged ▸ differs)⟩
      obtain ⟨state, same⟩ := connectMerge_merged h
      refine ⟨fun _ => ⟨noError, err, sha, proven, merged, same.trans merged⟩, fun done => ?_⟩
      rw [state] at done
      cases done
  · cases h
    constructor <;> rintro ⟨⟩
  · rename_i err
    split at h
    · cases h
      constructor <;> rintro ⟨⟩
    · rename_i verified
      refine ⟨fun merged => ?_, fun _ => ⟨by simpa [bound] using verified, by simp [err]⟩⟩
      rw [connectRollback_done h] at merged
      cases merged

variable {g : GitRepo W T} {w w₁ w₂ : W} {push : Option String}

/-- The store follows the branch. -/
theorem store_follows_branch (h : g.Honest see obj) (bound : i.repoBound = true)
    (here : (see w).branch = m.integrationBranch) (answered : g.reconcile m i o w = .ok p w₁)
    (stored : connectPhaseC cfg now s i p = .ok (s', reply)) :
    (reply.state = some (.task .MERGED) → ∃ sha candidate, reply.mergeSha = some sha ∧
      Descends obj (see w).head sha ∧ Trailer.attempt i.attemptId ∈ (obj sha).trailers ∧
        i.branchTipSha = some candidate ∧ Descends obj sha candidate) ∧
    (reply.state = some (.task .DONE) →
      (∀ sha, Descends obj (see w).head sha →
        Trailer.attempt i.attemptId ∉ (obj sha).trailers) ∧
      (o.err = some .precondition ∧ see w₁ = see w ∨
        ∃ base, i.integrationBaseSha = some base ∧ (see w₁).Restored obj base)) := by
  have truthful := run_ok (GitRepo.reconcile_spec (o := o) h bound here) rfl answered
  have settled := connectPhaseC_settled bound stored
  refine ⟨fun merged => ?_, fun done => ?_⟩
  · obtain ⟨noError, -, sha, proven, -, same⟩ := settled.merged merged
    obtain ⟨history, carries, candidate, tip, ancestor⟩ := truthful.proven noError sha proven
    exact ⟨sha, candidate, same, history, carries, tip, ancestor⟩
  · obtain ⟨verified, -⟩ := settled.done done
    exact ⟨truthful.absent verified, truthful.worktree verified⟩

end Settled

/-! ### Attempts at a merge -/

/-- An attempt to merge the candidate. -/
def sampleIntent : Intent where
  taskId := "T"
  branch := some "omd/T"
  worktree := none
  writes := []
  branchTipSha := some "candidate"
  integrationBaseSha := some "base"
  attemptId := 1
  ownerInstance := "c"
  ownerGeneration := 1
  tokenId := 2
  tokenAgent := "A"
  requestId := none
  requestAgent := none
  requestArgHash := none
  repoBound := true

/-- The store that the attempt is bound in. -/
def sampleStore : Store where
  tasks := [{
    taskId := "T"
    state := .CONNECTING
    createdAt := 0
    agentId := some "A"
    connectAttemptId := some 1
    connectOwnerInstance := some "c"
    connectOwnerGeneration := 1
    connectTokenId := some 2
    connectRepoBound := true }]
  orbits := [{
    orbitId := 2
    agentId := "A"
    state := .HELD
    createdAt := 0
    kind := .merge_token
    resourceKey := some Store.mergeResource
    operationId := some 1
    ownerInstance := some "c"
    ownerGeneration := some 1 }]

/-- The store follows a commit that is proven. -/
theorem sampleStore_merged : ∃ s' reply,
    connectPhaseC {} 1 sampleStore sampleIntent
      ⟨some "merge", none, some "merge", false, false⟩ = .ok (s', reply) ∧
    reply.state = some (.task .MERGED) := by
  have run : (match connectPhaseC {} 1 sampleStore sampleIntent
      ⟨some "merge", none, some "merge", false, false⟩ with
    | .ok x => decide (x.2.state = some (.task .MERGED))
    | .error _ => false) = true := by decide +kernel
  split at run
  · exact ⟨_, _, ‹_›, of_decide_eq_true run⟩
  · cases run

/-- A merge whose answer was lost is found in the branch. -/
theorem store_follows_branch_lost : ∃ s' reply sha candidate,
    connectPhaseC {} 1 sampleStore sampleIntent
      ⟨some "merge", none, some "merge", false, false⟩ = .ok (s', reply) ∧
    reply.mergeSha = some sha ∧ Descends sampleObj "merge" sha ∧
      Trailer.attempt 1 ∈ (sampleObj sha).trailers ∧
        sampleIntent.branchTipSha = some candidate ∧ Descends sampleObj sha candidate := by
  have answered : sampleRepo.reconcile ⟨"main", none, none, none⟩ sampleIntent
      { err := some .timeout } sampleMerged =
        .ok ⟨some "merge", none, some "merge", false, false⟩ sampleMerged := rfl
  obtain ⟨s', reply, stored, merged⟩ := sampleStore_merged
  obtain ⟨sha, candidate, found⟩ :=
    (store_follows_branch sample_honest rfl rfl answered stored).1 merged
  exact ⟨s', reply, sha, candidate, stored, found⟩

section Settled

variable {cfg : Cfg} {now : Time} {s s' : Store} {p : GitProof} {reply : Reply}
  {g : GitRepo W T} {w w₁ w₂ : W} {push : Option String}

end Settled

end Omd
