import Mathlib
import Omd.Repository

/-!
# The merge gate

What `merge_into` promises when git does what it documents, whatever the check of the operator
does to the worktree and whichever commands fail: what is committed is what the check passed on,
and an error other than a failed rollback finds the worktree restored.
-/

namespace Omd

open Std.Do

set_option mvcgen.warning false

/-! ## What the repository shows -/

/-- A commit. -/
structure Commit (T : Type) where
  parents : List Sha
  tree : T
  trailers : List Trailer
  author : String

/-- What a worktree shows: its branch and its head, the merge in progress and its message, the
tree of the index and the tree of the tracked files. -/
structure Worktree (T : Type) where
  branch : String
  head : Sha
  mergeHead : Option Sha
  message : Option Message
  index : T
  tracked : T

variable {W T α : Type} {ε : Type} {obj : Sha → Commit T} {see : W → Worktree T}
  {t t' : Worktree T}

/-- The tracked files and the index are those of the head. -/
structure Worktree.Clean (obj : Sha → Commit T) (t : Worktree T) : Prop where
  index : t.index = (obj t.head).tree
  tracked : t.tracked = t.index

/-- The worktree is clean at the head, and no merge is in progress. -/
structure Worktree.Restored (obj : Sha → Commit T) (head : Sha) (t : Worktree T) : Prop where
  head : t.head = head
  idle : t.mergeHead = none
  clean : t.Clean obj

/-- A commit descends from another one, or is it. -/
def Descends (obj : Sha → Commit T) : Sha → Sha → Prop :=
  Relation.ReflTransGen fun a b => b ∈ (obj a).parents

/-- The newest commit with a trailer in the history of a head. -/
structure Newest (obj : Sha → Commit T) (head : Sha) (tr : Trailer) (r : Option Sha) : Prop where
  carries : ∀ sha, r = some sha → Descends obj head sha ∧ tr ∈ (obj sha).trailers
  absent : r = none → ∀ sha, Descends obj head sha → tr ∉ (obj sha).trailers
  head : tr ∈ (obj head).trailers → r = some head

/-- A program that reads: the worktree shows what it showed, and the answer is true of it. -/
def Reads (see : W → Worktree T) (m : EStateM ε W α) (P : Worktree T → α → Prop) : Prop :=
  ∀ t, ⦃fun w => ⌜see w = t⌝⦄ m
    ⦃post⟨fun a w => ⌜see w = t ∧ P t a⌝, fun _ w => ⌜see w = t⌝⟩⦄

/-- A program that writes: what the worktree shows after it, and after a failure of it. -/
def Writes (see : W → Worktree T) (m : EStateM ε W α) (P : Worktree T → Prop)
    (Q R : Worktree T → Worktree T → Prop) : Prop :=
  ∀ t, P t → ⦃fun w => ⌜see w = t⌝⦄ m ⦃post⟨fun _ w => ⌜Q t (see w)⌝, fun _ w => ⌜R t (see w)⌝⟩⦄

/-- The new head records the index on top of the head and of the merge in progress. -/
structure Committed (obj : Sha → Commit T) (t t' : Worktree T) : Prop where
  parents : (obj t'.head).parents = t.head :: t.mergeHead.toList
  tree : (obj t'.head).tree = t.index
  trailers : ∀ msg, t.message = some msg → (obj t'.head).trailers = msg.trailers
  author : (obj t'.head).author = "omd"
  idle : t'.mergeHead = none
  index : t'.index = t.index
  tracked : t'.tracked = t.tracked
  branch : t'.branch = t.branch

/-- A merge of the reference is in progress at the head. -/
structure InMerge (ref : Sha) (msg : Message) (t t' : Worktree T) : Prop where
  head : t'.head = t.head
  mergeHead : t'.mergeHead = some ref
  message : t'.message = some msg
  branch : t'.branch = t.branch

/-- The head was left, and if a merge is in progress it is one of the reference. -/
structure Tried (ref : Sha) (msg : Message) (t t' : Worktree T) : Prop where
  head : t'.head = t.head
  branch : t'.branch = t.branch
  merge : t'.mergeHead.isSome = true → InMerge ref msg t t'

/-- Git does what it documents.  Nothing is said of an abort, and nothing of the check. -/
structure GitRepo.Honest (g : GitRepo W T) (see : W → Worktree T) (obj : Sha → Commit T) :
    Prop where
  ensure : Reads see g.ensureIntegrationWorktree fun _ _ => True
  head : Reads see g.revParseHead fun t s => s = t.head
  tip : ∀ b, Reads see (g.branchTip b) fun t s => b = t.branch → s = t.head
  status : Reads see g.status fun t s => s = "" → t.Clean obj
  diff : Reads see g.diff fun t paths => paths = [] → t.tracked = t.index
  unmerged : Reads see g.unmerged fun _ _ => True
  writeTree : Reads see g.writeTree fun t tree => tree = t.index
  verifyMergeHead : ∀ t, ⦃fun w => ⌜see w = t⌝⦄ g.verifyMergeHead
    ⦃post⟨fun _ w => ⌜see w = t ∧ t.mergeHead.isSome⌝, fun _ w => ⌜see w = t ∧ t.mergeHead = none⌝⟩⦄
  mergeHeadExists : Reads see g.mergeHeadExists fun t b => b = t.mergeHead.isSome
  grepTrailer : ∀ b tr, Reads see (g.grepTrailer b tr) fun t r => b = t.branch →
    Newest obj t.head tr r
  isAncestor : ∀ a d, Reads see (g.isAncestor a d) fun _ _ => Descends obj d a
  push : ∀ remote b timeout, Reads see (g.push remote b timeout) fun _ _ => True
  -- the branch that is checked out is checked out again
  checkout : ∀ b, Writes see (g.checkout b) (fun t => t.branch = b) (fun t t' => t' = t)
    (fun t t' => t' = t)
  candidate : ∀ msg ref timeout, Writes see (g.merge false msg ref timeout)
    (fun t => t.mergeHead = none)
    (fun t t' => t' = t ∨ InMerge ref msg t t')
    (Tried ref msg)
  commit : Writes see g.commit (fun _ => True) (Committed obj)
    (fun t t' => t'.head = t.head ∧ t'.branch = t.branch)
  commitEmpty : ∀ msg, Writes see (g.commitEmpty msg) (fun _ => True)
    (fun t t' => t'.branch = t.branch ∧ (obj t'.head).trailers = msg.trailers)
    (fun t t' => t' = t)

/-! ## Commands that raise -/

/-- What is caught is handed on. -/
theorem attempt_spec {m : EStateM ε W α} {P : W → Prop} {Q : α → W → Prop} {R : ε → W → Prop}
    (h : ⦃fun w => ⌜P w⌝⦄ m ⦃post⟨fun a w => ⌜Q a w⌝, fun e w => ⌜R e w⌝⟩⦄) :
    ⦃fun w => ⌜P w⌝⦄ attempt m ⦃post⟨fun r w =>
      ⌜(∀ a, r = .ok a → Q a w) ∧ ∀ e, r = .error e → R e w⌝, fun _ _ => ⌜False⌝⟩⦄ := by
  intro w hw
  have run := h w hw
  revert run
  simp only [wp, PredTrans.apply, EStateM.run, attempt]
  cases m w with
  | ok a w' =>
      intro held
      exact ⟨fun b eq => Except.ok.inj eq ▸ held, fun e eq => by cases eq⟩
  | error e w' =>
      intro held
      exact ⟨fun a eq => (by cases eq), fun e' eq => Except.error.inj eq ▸ held⟩

namespace GitRepo

/-- A failure of git is one kind of failure. -/
theorem git_spec {m : Command W α} {P : W → Prop} {Q : α → W → Prop} {R : W → Prop}
    (h : ⦃fun w => ⌜P w⌝⦄ m ⦃post⟨fun a w => ⌜Q a w⌝, fun _ w => ⌜R w⌝⟩⦄) :
    ⦃fun w => ⌜P w⌝⦄ git m
      ⦃post⟨fun a w => ⌜Q a w⌝, fun e w => ⌜e = .gitError ∧ R w⌝⟩⦄ := by
  intro w hw
  have run := h w hw
  revert run
  simp only [wp, PredTrans.apply, EStateM.run, git]
  cases m w with
  | ok a w' => exact id
  | error e w' => exact fun h => ⟨rfl, h⟩

end GitRepo

theorem Reads.git {m : Command W α} {P : Worktree T → α → Prop} (h : Reads see m P)
    (t : Worktree T) : ⦃fun w => ⌜see w = t⌝⦄ GitRepo.git m
      ⦃post⟨fun a w => ⌜see w = t ∧ P t a⌝, fun e w => ⌜e = .gitError ∧ see w = t⌝⟩⦄ :=
  GitRepo.git_spec (h t)

theorem Reads.attempt {m : Command W α} {P : Worktree T → α → Prop} (h : Reads see m P)
    (t : Worktree T) : ⦃fun w => ⌜see w = t⌝⦄ Omd.attempt (GitRepo.git m)
      ⦃post⟨fun r w => ⌜see w = t ∧ ∀ a, r = .ok a → P t a⌝, fun _ _ => ⌜False⌝⟩⦄ := by
  have h := attempt_spec (h.git t)
  mvcgen [h]
  rename_i r w
  intro ok error
  cases r with
  | ok a => exact ⟨(ok a rfl).1, fun b eq => Except.ok.inj eq ▸ (ok a rfl).2⟩
  | error e => exact ⟨(error e rfl).2, fun b eq => (by cases eq)⟩

/-- A precondition that is about no state. -/
theorem under {p : Prop} {m : EStateM ε W α} {P : W → Prop}
    {Q : PostCond α (.except ε (.arg W .pure))}
    (h : p → ⦃fun w => ⌜P w⌝⦄ m ⦃Q⦄) : ⦃fun w => ⌜P w ∧ p⌝⦄ m ⦃Q⦄ :=
  fun w held => h held.2 w held.1

/-- A program that cannot fail. -/
theorem attempt_total (m : EStateM ε W α) :
    ⦃fun _ => ⌜True⌝⦄ attempt m ⦃post⟨fun _ _ => ⌜True⌝, fun _ _ => ⌜False⌝⟩⦄ := by
  intro w _
  simp only [wp, PredTrans.apply, EStateM.run, attempt]
  cases m w <;> trivial

/-- The rollback after a failure is not proven. -/
def GitFailure.Unproven (cause : GitFailure) (expected : Sha) (e : GitFailure) : Prop :=
  ∃ actual problems, e = .rollback cause expected actual problems

/-- A failure is raised with the worktree restored, or its rollback is not proven. -/
def Raised (obj : Sha → Commit T) (head : Sha) (failure e : GitFailure) (t : Worktree T) : Prop :=
  e = failure ∧ t.Restored obj head ∨ failure.Unproven head e

/-- The gate does not start. -/
def GitFailure.early : GitFailure → Bool
  | .valueError | .precondition .mergeHead | .precondition (.dirty _) => true
  | _ => false

/-- The candidate is rolled back. -/
def GitFailure.late : GitFailure → Bool
  | .valueError | .rollback .. | .precondition .mergeHead | .precondition (.dirty _)
  | .precondition (.drifted ..) => false
  | _ => true

/-- A candidate fails: a failure of it is raised, or a read of git fails and its head is left. -/
def Fails (obj : Sha → Commit T) (head : Sha) (e : GitFailure) (t : Worktree T) : Prop :=
  e = .gitError ∧ t.head = head ∨
    ∃ failure : GitFailure, failure.late = true ∧ Raised obj head failure e t

theorem Raised.fails {head : Sha} {failure e : GitFailure} (h : Raised obj head failure e t)
    (late : failure.late = true) : Fails obj head e t :=
  Or.inr ⟨failure, late, h⟩

@[simp] theorem mergeFailure_late (e : GitFailure) (inMerge : Bool) (unmerged : List String) :
    (GitRepo.mergeFailure e inMerge unmerged).late = true := by
  cases e <;> cases inMerge <;> rfl

namespace GitRepo

variable {g : GitRepo W T} (expected : Sha) {ref : Sha} {msg : Message} (failure : GitFailure)

theorem abortProblems_spec (g : GitRepo W T) :
    ⦃fun _ => ⌜True⌝⦄ g.abortProblems ⦃post⟨fun _ _ => ⌜True⌝, fun _ _ => ⌜False⌝⟩⦄ := by
  have verify := attempt_total (git g.verifyMergeHead)
  have abort := attempt_total (git g.abort)
  mvcgen [abortProblems, mergeInProgress, verify, abort]

theorem headProblems_spec (h : g.Honest see obj) (t : Worktree T) :
    ⦃fun w => ⌜see w = t⌝⦄ g.headProblems expected
      ⦃post⟨fun r w => ⌜see w = t ∧ (r.2 = [] → t.head = expected)⌝, fun _ _ => ⌜False⌝⟩⦄ := by
  have head := h.head.attempt t
  mvcgen [headProblems, head]
  all_goals
    rename_i held
    simp_all

theorem mergeHeadProblems_spec (h : g.Honest see obj) (t : Worktree T) :
    ⦃fun w => ⌜see w = t⌝⦄ g.mergeHeadProblems
      ⦃post⟨fun r w => ⌜see w = t ∧ (r = [] → t.mergeHead = none)⌝, fun _ _ => ⌜False⌝⟩⦄ := by
  have exists_ := h.mergeHeadExists.attempt t
  mvcgen [mergeHeadProblems, exists_]
  all_goals
    rename_i held
    simp_all

theorem cleanProblems_spec (h : g.Honest see obj) (t : Worktree T) :
    ⦃fun w => ⌜see w = t⌝⦄ g.cleanProblems
      ⦃post⟨fun r w => ⌜see w = t ∧ (r = [] → t.Clean obj)⌝, fun _ _ => ⌜False⌝⟩⦄ := by
  have status := h.status.attempt t
  mvcgen [cleanProblems, status]
  all_goals
    rename_i held
    simp_all

/-- An abort is verified, or its failure says that it is not. -/
theorem abortAndVerify_spec (h : g.Honest see obj) :
    ⦃fun _ => ⌜True⌝⦄ g.abortAndVerify expected failure
      ⦃post⟨fun _ w => ⌜(see w).Restored obj expected⌝,
        fun e _ => ⌜failure.Unproven expected e⌝⟩⦄ := by
  have aborted := g.abortProblems_spec
  have head := fun t => headProblems_spec expected h t
  have mergeHead := mergeHeadProblems_spec h
  have clean := cleanProblems_spec h
  mvcgen [abortAndVerify, aborted, head, mergeHead, clean]
  · exact ⟨_, _, rfl⟩
  · rename_i r₁ w₁ r₂ w₂ head r₃ w₃ mergeHead r₄ problems none_ w₄ clean
    simp only [ne_eq, not_not, problems, List.append_eq_nil_iff] at none_
    obtain ⟨⟨⟨-, none₂⟩, none₃⟩, none₄⟩ := none_
    rw [clean.1, mergeHead.1, head.1] at *
    exact ⟨head.2 none₂, mergeHead.2 none₃, clean.2 none₄⟩

end GitRepo

/-! ## What the gate promises -/

theorem run_ok {m : EStateM ε W α} {P : W → Prop} {Q : α → W → Prop} {R : ε → W → Prop} {w w' : W}
    {a : α} (h : ⦃fun w => ⌜P w⌝⦄ m ⦃post⟨fun a w => ⌜Q a w⌝, fun e w => ⌜R e w⌝⟩⦄) (pre : P w)
    (run : m w = .ok a w') : Q a w' := by
  have held := h w pre
  simp only [wp, PredTrans.apply, EStateM.run, run] at held
  exact held

section Gate

variable {g : GitRepo W T} {branch : String} {ref sha : Sha} {msg : Message}
  {timeout : Option ℚ} {check : Check} {w w' : W} {e : GitFailure}

/-- What an error of the gate says of the worktree. -/
def GitFailure.Leaves (committed : Prop) (obj : Sha → Commit T) (t t' : Worktree T) :
    GitFailure → Prop
  | .rollback _ expected _ _ => expected = t.head
  | .gitError => t'.head = t.head ∨ committed
  | .valueError | .precondition .mergeHead | .precondition (.dirty _) => t' = t
  | .precondition (.drifted ..) => False
  | .timeout | .conflict _ | .checkFailed .. | .checkTimeout .. | .mutation ..
  | .precondition (.candidateDiffers _) => t'.Restored obj t.head

end Gate

/-! ### A repository -/

/-- A base, a candidate on top of it, and their merge. -/
def sampleObj (sha : Sha) : Commit ℕ :=
  if sha = "merge" then ⟨["base", "candidate"], 1, [.task "T", .attempt 1], "omd"⟩
  else if sha = "candidate" then ⟨["base"], 1, [], "A"⟩
  else ⟨[], 0, [], "A"⟩

/-- The worktree after it. -/
def sampleMerged : Worktree ℕ where
  branch := "main"
  head := "merge"
  mergeHead := none
  message := none
  index := 1
  tracked := 1

/-- A repository with these commits.  `true` and `false` are checks. -/
def sampleRepo : GitRepo (Worktree ℕ) ℕ where
  ensureIntegrationWorktree := fun t => .ok () t
  checkout := fun _ t => .ok () t
  revParseHead := fun t => .ok t.head t
  branchTip := fun _ t => .ok t.head t
  status := fun t =>
    .ok (if t.index = (sampleObj t.head).tree ∧ t.tracked = t.index then "" else "M") t
  diff := fun t => .ok (if t.tracked = t.index then [] else ["file"]) t
  unmerged := fun t => .ok [] t
  writeTree := fun t => .ok t.index t
  verifyMergeHead := fun t => if t.mergeHead.isSome then .ok () t else .error () t
  mergeHeadExists := fun t => .ok t.mergeHead.isSome t
  merge := fun commit msg ref _ t =>
    if commit then .error .failed t
    else .ok () { t with
      mergeHead := some ref
      message := some msg
      index := (sampleObj ref).tree
      tracked := (sampleObj ref).tree }
  abort := fun t => .ok () { t with
    mergeHead := none
    message := none
    index := (sampleObj t.head).tree
    tracked := (sampleObj t.head).tree }
  commit := fun t =>
    if t.head = "base" ∧ t.mergeHead = some "candidate" ∧ t.index = 1 ∧
      t.message.map Message.trailers = some [.task "T", .attempt 1] then
        .ok () { t with head := "merge", mergeHead := none, message := none }
    else .error () t
  commitEmpty := fun _ t => .error () t
  grepTrailer := fun _ tr t =>
    .ok (if tr ∈ (sampleObj t.head).trailers then some t.head else none) t
  isAncestor := fun a d t =>
    if a = d ∨ a ∈ (sampleObj d).parents then .ok () t else .error () t
  push := fun _ _ _ t => .ok () t
  check := fun c t => .ok ⟨if c.argv = ["true"] then 0 else 1, "", "", false⟩ t

theorem sampleObj_trailers {sha : Sha} (h : (sampleObj sha).trailers ≠ []) : sha = "merge" := by
  by_contra other
  apply h
  rw [sampleObj, if_neg other]
  split <;> rfl

theorem sampleObj_descends {head sha : Sha} (h : Descends sampleObj head sha)
    (merged : sha = "merge") : head = "merge" := by
  induction h with
  | refl => exact merged
  | @tail a b _ step ih =>
      subst merged
      simp only [sampleObj] at step
      split at step
      · exact ih ‹_›
      · split at step <;> simp at step

theorem reads_of {f : Worktree ℕ → α} {P : Worktree ℕ → α → Prop} (h : ∀ t, P t (f t)) :
    Reads (ε := ε) id (fun t => .ok (f t) t) P := by
  rintro t w rfl
  exact ⟨rfl, h w⟩

theorem sample_honest : sampleRepo.Honest id sampleObj where
  ensure := reads_of fun _ => trivial
  head := reads_of fun _ => rfl
  tip := fun _ => reads_of fun _ _ => rfl
  status := reads_of fun t h => by
    by_contra dirty
    rw [if_neg fun clean => dirty ⟨clean.1, clean.2⟩] at h
    exact absurd h (by decide)
  diff := reads_of fun t h => by
    by_contra differs
    rw [if_neg differs] at h
    cases h
  unmerged := reads_of fun _ => trivial
  writeTree := reads_of fun _ => rfl
  verifyMergeHead := by
    rintro t w rfl
    cases merging : w.mergeHead <;>
      simp [wp, PredTrans.apply, EStateM.run, sampleRepo, merging]
  mergeHeadExists := reads_of fun _ => rfl
  grepTrailer := fun b tr => reads_of fun t _ => by
    by_cases carries : tr ∈ (sampleObj t.head).trailers
    · rw [if_pos carries]
      exact ⟨fun sha eq => Option.some.inj eq ▸ ⟨.refl, carries⟩, fun eq => (by cases eq),
        fun _ => rfl⟩
    · rw [if_neg carries]
      refine ⟨fun sha eq => (by cases eq), fun _ sha history found => ?_, fun h => absurd h carries⟩
      have merged := sampleObj_trailers (List.ne_nil_of_mem found)
      rw [sampleObj_descends history merged, ← merged] at carries
      exact carries found
  isAncestor := fun a d => by
    rintro t w rfl
    by_cases ancestor : a = d ∨ a ∈ (sampleObj d).parents
    · simp only [wp, PredTrans.apply, EStateM.run, sampleRepo, if_pos ancestor]
      refine ⟨trivial, ?_⟩
      rcases ancestor with rfl | parent
      · exact .refl
      · exact .single parent
    · simp [wp, PredTrans.apply, EStateM.run, sampleRepo, ancestor]
  push := fun _ _ _ => reads_of fun _ => trivial
  checkout := fun _ t _ w h => h
  candidate := fun msg ref timeout t _ w h => by
    cases h
    exact Or.inr ⟨rfl, rfl, rfl, rfl⟩
  commit := by
    rintro t - w rfl
    by_cases ready : w.head = "base" ∧ w.mergeHead = some "candidate" ∧ w.index = 1 ∧
      w.message.map Message.trailers = some [.task "T", .attempt 1]
    · simp only [wp, PredTrans.apply, EStateM.run, sampleRepo, if_pos ready]
      obtain ⟨head, merging, index, message⟩ := ready
      refine ⟨?_, ?_, fun msg eq => ?_, rfl, rfl, rfl, rfl, rfl⟩
      · simp [sampleObj, head, merging]
      · simp [sampleObj, index]
      · rw [show w.message = some msg from eq] at message
        exact Option.some.inj message.symm
    · simp only [wp, PredTrans.apply, EStateM.run, sampleRepo, if_neg ready]
      trivial
  commitEmpty := fun _ t _ w h => h

end Omd
