import Omd.System

/-!
# The connect of a barrier against plain connect

Phase A of a barrier and Phase A of `connect` are two routines with one end,
`openAttempt`.  Their gates over the orbits agree: `staleWrites` without an agent is the
fence test of both, and the audit is one function.  What the barrier lacks is the read
coherence of `connect`, so the two agree about a task exactly when its reads are coherent.
-/

namespace Omd

/-- Phase A of a barrier opens an attempt. -/
def tripOpens (env : Env) (s : Store) (task : TaskId) (fence : Option ℕ) (id : BarrierId)
    (generation : ℕ) : Bool :=
  match barrierConnectPhaseA env s task fence id generation with
  | .ok (_, a) => a.phase.intent.isSome
  | .error _ => false

/-- Phase A of `connect` opens an attempt, in the state its sweep left. -/
def connectOpens (env : Env) (s : Store) (task : TaskId) (fence : Option ℕ) : Bool :=
  match connectSwept env s task none fence none none with
  | .ok (_, a) => a.intent.isSome
  | .error _ => false

/-- The gates of `connect` pass. -/
def connectGatesPass (env : Env) (s : Store) (task : TaskId) (fence : Option ℕ) : Bool :=
  (s.getTask task).any fun t =>
    (connectTaskGate t).isNone && (connectGates env.git s t none fence).isRight

/-- No read of the task is older than a merge that overlaps it. -/
def readsCoherent (s : Store) (task : TaskId) : Bool :=
  (s.getTask task).any fun t =>
    (ghostReads s t).isEmpty && (s.staleReadOrbitsForTask task).isEmpty

/-! ## The common end -/

theorem heldMergeToken_bumpUuid (s : Store) : s.bumpUuid.heldMergeToken = s.heldMergeToken := rfl

/-- The token is free and the task is in a state that connects. -/
def canOpen (s : Store) (t : Task) : Bool :=
  s.heldMergeToken.isNone && (t.state = .IN_ORBIT || t.state = .DONE)

/-- An attempt without a request opens exactly when the token is free and the task
connects. -/
theorem openAttempt_opens_iff (env : Env) (s : Store) (t : Task) (owner : AgentId)
    (candidate : Candidate) (busy : String) :
    (match openAttempt env s t owner candidate none busy with
      | .ok (_, a) => a.intent.isSome
      | .error _ => false) = canOpen s t := by
  rw [openAttempt, canOpen, acquireMergeToken, heldMergeToken_bumpUuid]
  cases hheld : s.heldMergeToken with
  | some o => simp
  | none =>
      simp only [connectingState_eq]
      by_cases hstate : t.state = .IN_ORBIT ∨ t.state = .DONE
      · rw [if_pos hstate]
        simp [bindRequest, bind, Except.bind, hstate]
      · rw [if_neg hstate]
        simp only [bind, Except.bind]
        rw [not_or] at hstate
        cases releaseMergeToken env.now _ _ <;> simp [hstate.1, hstate.2]

/-! ## Agreement -/

/-- The gates of `connect` are those of the barrier and the coherence of the reads. -/
theorem connectGates_isRight (git : Option GitView) (s : Store) (t : Task)
    (fence : Option ℕ) :
    (connectGates git s t none fence).isRight =
      ((barrierGates git s t fence).isRight &&
        ((ghostReads s t).isEmpty && (s.staleReadOrbitsForTask t.taskId).isEmpty)) := by
  rw [connectGates, barrierGates]
  by_cases hwrites : s.writesForTask t.taskId = []
  · simp [hwrites]
  · simp only [if_neg hwrites]
    by_cases hstale : staleWrites (s.writesForTask t.taskId) none fence ≠ []
    · simp [hstale]
    · simp only [if_neg hstale]
      by_cases haudit : (snapshotConnectCandidate git t.branch
          (claimedWriteGlobs (s.writesForTask t.taskId))).audit.blocks = true
      · simp [haudit]
      · simp only [haudit, Bool.false_eq_true, if_false]
        by_cases hg : ghostReads s t = [] <;>
          by_cases hs : s.staleReadOrbitsForTask t.taskId = [] <;> simp [hg, hs]

/-- What Phase A of a barrier needs. -/
theorem tripOpens_eq (env : Env) (s : Store) (task : TaskId) (fence : Option ℕ)
    (id : BarrierId) (generation : ℕ) :
    tripOpens env s task fence id generation =
      (ownsTrip (s.getBarrier id) generation && (s.getTask task).any fun t =>
        (connectTaskGate t).isNone && ((barrierGates env.git s t fence).isRight &&
          canOpen s t)) := by
  rw [tripOpens, barrierConnectPhaseA]
  cases hown : ownsTrip (s.getBarrier id) generation with
  | false => simp
  | true =>
      cases htask : s.getTask task with
      | none => simp
      | some t =>
          cases hgate : connectTaskGate t with
          | some reply => simp [hgate]
          | none =>
              cases hb : barrierGates env.git s t fence with
              | inl reply => simp [hgate, hb]
              | inr candidate =>
                  have hopen := openAttempt_opens_iff env s t
                    ((t.agentId.filter (· ≠ "")).getD ("barrier:" ++ task)) candidate
                    "merge in progress"
                  simp only [Bool.not_true, Bool.false_eq_true, if_false, Option.any_some, hgate,
                    Option.isNone_none, hb, Sum.isRight_inr, Bool.true_and, bind, Except.bind]
                  rw [← hopen]
                  cases openAttempt env s t _ candidate none "merge in progress" <;> rfl

/-- What Phase A of `connect` needs after its sweep. -/
theorem connectOpens_eq (env : Env) (s : Store) (task : TaskId) (fence : Option ℕ) :
    connectOpens env s task fence = (s.getTask task).any fun t =>
      (connectTaskGate t).isNone && ((connectGates env.git s t none fence).isRight &&
        canOpen s t) := by
  rw [connectOpens, connectSwept]
  simp only [checkAlive, Option.bind_none]
  cases htask : s.getTask task with
  | none => simp
  | some t =>
      cases hgate : connectTaskGate t with
      | some reply => simp [hgate]
      | none =>
          cases hb : connectGates env.git s t none fence with
          | inl reply => simp [hgate, hb]
          | inr candidate =>
              simp only [Option.any_some, hgate, Option.isNone_none, hb, Sum.isRight_inr,
                Bool.true_and]
              exact openAttempt_opens_iff env s t _ candidate _

/-- A trip that moves a task to `CONNECTING` moves one that `connect` would move too, in
the same state and with the same fence, exactly when the reads of the task are coherent. -/
theorem trip_agrees_with_connect_iff (env : Env) (s : Store) (task : TaskId)
    (fence : Option ℕ) (id : BarrierId) (generation : ℕ)
    (opens : tripOpens env s task fence id generation = true) :
    (connectGatesPass env s task fence = true ↔ readsCoherent s task = true) ∧
      (connectOpens env s task fence = true ↔ readsCoherent s task = true) := by
  rw [tripOpens_eq, Bool.and_eq_true] at opens
  obtain ⟨-, opens⟩ := opens
  rw [connectGatesPass, connectOpens_eq, readsCoherent]
  cases htask : s.getTask task with
  | none => simp [htask] at opens
  | some t =>
      have hid : t.taskId = task := Lib.Table.key_of_get htask
      simp only [htask, Option.any_some, Bool.and_eq_true] at opens
      obtain ⟨hgate, hbarrier, hopen⟩ := opens
      simp only [Option.any_some, connectGates_isRight, hgate, hbarrier, hopen, hid,
        Bool.true_and, Bool.and_true, and_self]

/-- A store in which `T` arrived at a barrier that is tripping. -/
def loneTrip : Store where
  tasks := [{ taskId := "T", writes := ["a"], state := .DONE, createdAt := 0 }]
  orbits := [{ orbitId := 0, taskId := some "T", agentId := "A", pathspec := ["a"], state := .HELD,
               fence := some 1, createdAt := 0 }]
  barriers := [{ barrierId := ("x", 0), name := "x", parties := 1, generation := 0,
                 state := .TRIPPING }]
  uuid := 1

theorem loneTrip_agrees :
    tripOpens { now := 1, instanceId := "c" } loneTrip "T" (some 1) ("x", 0) 0 = true ∧
      (connectGatesPass { now := 1, instanceId := "c" } loneTrip "T" (some 1) = true ↔
        readsCoherent loneTrip "T" = true) ∧
      (connectOpens { now := 1, instanceId := "c" } loneTrip "T" (some 1) = true ↔
        readsCoherent loneTrip "T" = true) :=
  ⟨by decide +kernel, trip_agrees_with_connect_iff { now := 1, instanceId := "c" } loneTrip "T"
    (some 1) ("x", 0) 0 (by decide +kernel)⟩

/-! ## A trip over a ghost read -/

/-- Two tasks of one coordinator: `T` reads what `U` merges, and `T` is the one party of a
barrier that trips. -/
def ghostTrip : List (Env × Action) :=
  let at_ (now : Time) (a : Action) : Env × Action := ({ now := now, instanceId := "c" }, a)
  [ at_ 1 (.call (.declare { taskId := "T", writes := ["a"], reads := ["r"], priority := 1 })),
    at_ 1 (.call (.declare { taskId := "U", writes := ["r"] })),
    at_ 2 (.call .nextTask),
    at_ 3 (.call (.claim { agentId := "A", pathspec := ["r"], mode := .read, taskId := some "T" })),
    at_ 4 (.call (.release 0 "A" (some 1) none none)),
    at_ 5 (.call (.claim { agentId := "A", pathspec := ["a"], taskId := some "T" })),
    at_ 6 (.call (.start "T" "A" none none)),
    at_ 7 (.call .nextTask),
    at_ 8 (.call (.claim { agentId := "B", pathspec := ["r"], taskId := some "U" })),
    at_ 9 (.call (.start "U" "B" none none)),
    at_ 10 (.call (.finish "U" (some "B") (some 3) none none)),
    at_ 11 (.connect { taskId := "U", agentId := some "B", fence := some 3 }),
    at_ 11 (.resume 0 {}), at_ 11 (.resume 0 {}), at_ 11 (.resume 0 {}),
    at_ 11 (.resume 0 {}), at_ 11 (.resume 0 {}),
    at_ 12 (.call (.finish "T" (some "A") (some 2) none none)),
    at_ 13 (.call (.barrierDeclare "x" ["T"] .break_ none)),
    at_ 14 (.arrive { name := "x", agentId := "A", taskId := "T" }),
    at_ 14 (.resume 1 {}), at_ 14 (.resume 1 {}) ]

/-- A reachable trip merges a task that `connect` refuses. -/
theorem trip_ignores_ghost_reads :
    ∃ σ, Reachable {} σ ∧ σ.store.getBarrier ("x", 0) ≠ none ∧
      tripOpens { now := 15, instanceId := "c" } σ.store "T" (some 2) ("x", 0) 0 = true ∧
      connectGatesPass { now := 15, instanceId := "c" } σ.store "T" (some 2) = false ∧
      connectOpens { now := 15, instanceId := "c" } σ.store "T" (some 2) = false :=
  exists_reachable ghostTrip (by decide +kernel)

end Omd
