import Omd.Listeners

/-!
# Latches

A latch has two kinds of writers.  `flag_set` keeps its rank, by which a step back is
refused and a waiter is satisfied; `finish`, Phase C and recovery write the value alone.
The rank of a flag that they merged says nothing about the merge, so what a latch promises
holds in the runs in which they merge only what `flag_set` has merged before, and finish
nothing that it has merged.

In a run of the system no step touches the row of a latch otherwise than as one of these
writers, so the law for the writers is one for the system.
-/

namespace Omd

open Lib

variable {cfg : Cfg} {env : Env} {σ σ₁ σ' : Sys} {a : Action} {c : Scope} {E : TaskId → Prop}
  {s s' s₁ : Store} {key : String}

/-- The writers of a latch. -/
inductive LatchWriter
  | finish (agent : Option AgentId)
  | merge
  | set (value : String) (agent : Option AgentId)

/-- What a writer does. -/
def LatchWriter.write (s : Store) (key : String) : LatchWriter → Store
  | .finish agent => s.setFlag key "done" agent
  | .merge => s.setFlag key "merged" none
  | .set value agent => (flagSetLatch s key value agent).1

/-- One writer of a latch.  Whatever leaves the flag may happen beside it. -/
def LatchStep (key : String) (s : Store) (w : LatchWriter) (s' : Store) : Prop :=
  s'.getFlag key = (w.write s key).getFlag key

/-- The row is the one that `flag_set` has merged. -/
def Flag.setMerged (f : Flag) : Bool := 2 ≤ f.rank

/-- The writer of the value alone merges only what `flag_set` has merged, and finishes only
what it has not. -/
def KeepsRank (key : String) (s : Store) : LatchWriter → Prop
  | .finish _ => (s.getFlag key).any Flag.setMerged = false
  | .merge => (s.getFlag key).any Flag.setMerged = true
  | .set .. => True

/-- What a latch promises once it was merged. -/
structure Store.StaysMerged (s : Store) (key : String) : Prop where
  value : (s.getFlag key).map Flag.value ≠ some "done"
  done : flagSatisfied (s.getFlag key) "done" = true
  merged : flagSatisfied (s.getFlag key) "merged" = true
  rejects : ∀ agent, (flagSetLatch s key "done" agent).1 = s ∧
    (flagSetLatch s key "done" agent).2.reply.ok = some false

/-! ## The rows that the writers leave -/

theorem getFlag_latchFlag (s : Store) (key value : String) (agent : Option AgentId)
    (flag : Option Flag) (epoch : ℕ) : (latchFlag s key value agent flag epoch).1.getFlag key =
      some { key := key, value := value, setBy := agent, epoch := epoch,
             rank := nextRank value flag } := by
  have upsert := getFlag_upsertFlag s
    { key := key, value := value, setBy := agent, epoch := epoch, rank := nextRank value flag }
  rw [latchFlag, Store.getFlag, wakeFlagWaiters_flags]
  exact upsert

/-- What a writer leaves depends on the row it finds. -/
theorem LatchWriter.write_congr (w : LatchWriter) (same : s₁.getFlag key = s.getFlag key) :
    (w.write s₁ key).getFlag key = (w.write s key).getFlag key := by
  cases w with
  | finish agent | merge =>
      rw [LatchWriter.write, LatchWriter.write, getFlag_setFlag, getFlag_setFlag, same]
  | set value agent =>
      rw [LatchWriter.write, LatchWriter.write, flagSetLatch, flagSetLatch, same]
      cases row : s.getFlag key with
      | none => rw [getFlag_latchFlag, getFlag_latchFlag]
      | some f =>
          dsimp only
          split_ifs
          · exact same
          · exact same
          · exact same
          · rw [getFlag_latchFlag, getFlag_latchFlag]

/-- A value that `flag_set` finds written it leaves. -/
theorem getFlag_flagSetLatch_again {value : String} {agent : Option AgentId}
    (h : s₁.getFlag key = (flagSetLatch s key value agent).1.getFlag key) :
    (flagSetLatch s₁ key value agent).1.getFlag key = s₁.getFlag key := by
  -- the row is the new one, or the one that was refused before
  have fresh {flag : Option Flag} {epoch : ℕ}
      (row : s₁.getFlag key = (latchFlag s key value agent flag epoch).1.getFlag key) :
      (flagSetLatch s₁ key value agent).1.getFlag key = s₁.getFlag key := by
    rw [getFlag_latchFlag] at row
    simp [flagSetLatch, row]
  rw [flagSetLatch] at h
  cases row : s.getFlag key with
  | none =>
      rw [row] at h
      exact fresh h
  | some f =>
      rw [row] at h
      dsimp only at h
      have kept (h : s₁.getFlag key = s.getFlag key) (refused : flagSetLatch s key value agent =
          (s, (flagSetLatch s key value agent).2)) :
          (flagSetLatch s₁ key value agent).1.getFlag key = s₁.getFlag key := by
        have congr := LatchWriter.write_congr (.set value agent) h
        rw [LatchWriter.write, LatchWriter.write] at congr
        rw [congr, refused]
        exact h.symm
      split_ifs at h with signal written down
      · exact kept h (by simp [flagSetLatch, row, signal])
      · exact kept h (by simp [flagSetLatch, row, signal, written])
      · exact kept h (by simp [flagSetLatch, row, signal, written, down])
      · exact fresh h

/-- The writers that write alike. -/
def LatchWriter.Alike : LatchWriter → LatchWriter → Prop
  | .finish _, .finish _ => True
  | .merge, .merge => True
  | .set value agent, .set value' agent' => value = value' ∧ agent = agent'
  | _, _ => False

/-- Of two writers that write alike the second leaves what it would have left alone. -/
theorem LatchStep.again {w w' : LatchWriter} (h : LatchStep key s w s₁)
    (h' : LatchStep key s₁ w' s')
    (alike : w.Alike w') : LatchStep key s w' s' := by
  rw [LatchStep] at h h' ⊢
  rw [h']
  cases w with
  | finish agent =>
      cases w' with
      | finish agent' =>
          rw [LatchWriter.write, getFlag_setFlag] at h
          rw [LatchWriter.write, LatchWriter.write, getFlag_setFlag, getFlag_setFlag, h]
          cases s.getFlag key <;> rfl
      | merge | set => cases alike
  | merge =>
      cases w' with
      | merge =>
          rw [LatchWriter.write, getFlag_setFlag] at h
          rw [LatchWriter.write, LatchWriter.write, getFlag_setFlag, getFlag_setFlag, h]
          cases s.getFlag key <;> rfl
      | finish | set => cases alike
  | set value agent =>
      cases w' with
      | set value' agent' =>
          obtain ⟨rfl, rfl⟩ := alike
          exact (getFlag_flagSetLatch_again h).trans h
      | finish | merge => cases alike

/-! ## The writers of a step -/

/-- What an action writes to a latch. -/
inductive WritesLatch (env : Env) (σ : Sys) (a : Action) (key : String) : LatchWriter → Prop
  | finish {agent : Option AgentId} (h : Marks env σ a key "done") :
      WritesLatch env σ a key (.finish agent)
  | merge (h : Marks env σ a key "merged") : WritesLatch env σ a key .merge
  | set {value : String} {agent : Option AgentId} {ttl : Option ℚ} {id : Option RequestId}
      {epoch : Option ℕ} (h : a = .call (.flagSet key value agent .LATCH ttl id epoch)) :
      WritesLatch env σ a key (.set value agent)

/-- No action both finishes a task and merges one. -/
theorem Marks.unmerged {task task' : TaskId} (h : Marks env σ a task "done") :
    ¬ Marks env σ a task' "merged" := by
  intro h'
  rcases h.source with ⟨-, agent, fence, id, epoch, call⟩ | ⟨other, -⟩
  · rcases h'.source with ⟨other, -⟩ | ⟨-, uncalled⟩
    · exact absurd other (by decide)
    · exact uncalled _ call
  · exact absurd other (by decide)

/-- What one action writes to a latch it writes alike. -/
theorem WritesLatch.alike {w w' : LatchWriter} (h : WritesLatch env σ a key w)
    (h' : WritesLatch env σ a key w') :
    w.Alike w' := by
  have unset {task value value' : String} {agent : Option AgentId} {ttl : Option ℚ}
      {id : Option RequestId} {epoch : Option ℕ}
      (call : a = .call (.flagSet key value agent .LATCH ttl id epoch)) :
      ¬ Marks env σ a task value' := by
    have signal : Licence {} env σ a .signal := .signal call rfl
    exact signal.unmarked
  cases h with
  | finish marks =>
      cases h' with
      | finish => exact trivial
      | merge marks' => exact absurd marks' marks.unmerged
      | set call => exact absurd marks (unset call)
  | merge marks =>
      cases h' with
      | merge => exact trivial
      | finish marks' => exact absurd marks marks'.unmerged
      | set call => exact absurd marks (unset call)
  | set call =>
      cases h' with
      | finish marks | merge marks => exact absurd marks (unset call)
      | set call' =>
          cases call.symm.trans call'
          exact ⟨rfl, rfl⟩

/-- The writers that a scope lets write. -/
inductive LatchWriter.Licensed (c : Scope) (key : String) : LatchWriter → Prop
  | finish {agent : Option AgentId} (may : c.may (.mark key "done")) :
      Licensed c key (.finish agent)
  | merge (may : c.may (.mark key "merged")) : Licensed c key .merge
  | set {value : String} {agent : Option AgentId} (may : c.may (.set key value agent)) :
      Licensed c key (.set value agent)

theorem latched_setFlag {value k : String} {agent : Option AgentId} (h : Latched s.flags key) :
    Latched (s.setFlag k value agent).flags key := by
  intro f hf hkey
  rw [Store.setFlag] at hf
  split at hf
  · rcases List.mem_append.mp hf with hf | hf
    · exact h f hf hkey
    · rw [List.mem_singleton.mp hf]
  · rcases Table.mem_modify.mp hf with ⟨hf, -⟩ | ⟨f₀, hf₀, -, rfl⟩
    · exact h f hf hkey
    · exact h f₀ hf₀ hkey

theorem latched_flagSetLatch {value k : String} {agent : Option AgentId}
    (h : Latched s.flags key) : Latched (flagSetLatch s k value agent).1.flags key := by
  have write (flag : Option Flag) (epoch : ℕ) :
      Latched (latchFlag s k value agent flag epoch).1.flags key := by
    intro f hf hkey
    rw [latchFlag, wakeFlagWaiters_flags] at hf
    rcases mem_upsertFlag hf with hf | rfl
    · exact h f hf hkey
    · rfl
  rw [flagSetLatch]
  split
  · exact write _ _
  · split_ifs
    · exact h
    · exact h
    · exact h
    · exact write _ _

/-- One change leaves the row of a latch, or is one of its writers. -/
theorem Micro.latch (h : Micro c E s s') (plain : ∀ orbit, key ≠ readStaleKey orbit)
    (latched : Latched s.flags key) (unowned : ¬ c.may (.own key))
    (values : ∀ value, c.may (.mark key value) → value = "done" ∨ value = "merged") :
    Latched s'.flags key ∧ (s'.getFlag key = s.getFlag key ∨
      ∃ w : LatchWriter, w.Licensed c key ∧ LatchStep key s w s') := by
  rcases h.signals with board | change
  · obtain ⟨latched', same⟩ := board.latched key plain latched
    exact ⟨latched', Or.inl same⟩
  cases change with
  | write k may writer others back rows wakes =>
      by_cases same : key = k
      · subst same
        obtain ⟨value, agent, may, flags⟩ := writer.resolve_left unowned
        have row : s'.getFlag key = (flagSetLatch s key value agent).1.getFlag key := by
          rw [Store.getFlag, flags, Store.getFlag]
        exact ⟨flags ▸ latched_flagSetLatch latched, Or.inr ⟨_, .set may, row⟩⟩
      · refine ⟨fun f hf hkey => ?_, Or.inl (others key same)⟩
        rcases back f hf with old | own
        · exact latched f old hkey
        · exact absurd (hkey.symm.trans own) same
  | mark task value agent may unsigned flags waiters =>
      refine ⟨flags ▸ latched_setFlag latched, ?_⟩
      have row : s'.getFlag key = (s.setFlag task value agent).getFlag key := by
        rw [Store.getFlag, flags, Store.getFlag]
      by_cases same : key = task
      · subst same
        right
        rcases values value may with rfl | rfl
        · exact ⟨_, .finish may, row⟩
        · rw [unsigned rfl] at row
          exact ⟨_, .merge may, row⟩
      · exact Or.inl (row.trans (getFlag_setFlag_ne s same))
  | listen w may id drawn unready flags waiters | poll id state may ended flags waiters =>
      rw [Store.getFlag, flags, Store.getFlag]
      exact ⟨latched, Or.inl rfl⟩

/-- A step leaves the row of a latch, or is one of its writers: `finish`, the Phase C of an attempt,
a recovery, or `flag_set`. -/
theorem step_latch (ok : σ.Ok) (h : step cfg env σ a = .ok σ')
    (plain : ∀ orbit, key ≠ readStaleKey orbit) (latched : Latched σ.store.flags key)
    (unowned : ∀ value agent ttl id epoch,
      a ≠ .call (.flagSet key value agent .EPHEMERAL ttl id epoch)) :
    Latched σ'.store.flags key ∧ (σ'.store.getFlag key = σ.store.getFlag key ∨
      ∃ w, WritesLatch env σ a key w ∧ LatchStep key σ.store w σ'.store) := by
  refine (step_spec ok h).1.invariant (I := fun s => Latched s.flags key ∧
    (s.getFlag key = σ.store.getFlag key ∨
      ∃ w, WritesLatch env σ a key w ∧ LatchStep key σ.store w s))
    (fun may E s₁ s₂ licensed _ ih step => ?_) ok.store ⟨latched, Or.inl rfl⟩
  obtain ⟨latched₁, left₁⟩ := ih
  have unowned₁ : ¬ may (.own key) := by
    intro hmay
    cases licensed _ hmay with
    | own call => exact unowned _ _ _ _ _ call
  have values : ∀ value, may (.mark key value) → value = "done" ∨ value = "merged" := by
    intro value hmay
    cases licensed _ hmay with
    | mark marks => exact marks.source.imp And.left And.left
  obtain ⟨latched₂, left₂⟩ := step.latch plain latched₁ unowned₁ values
  refine ⟨latched₂, ?_⟩
  rcases left₂ with same | ⟨w', licence, write'⟩
  · refine left₁.imp same.trans ?_
    rintro ⟨w, writes, write⟩
    exact ⟨w, writes, same.trans write⟩
  · have writes' : WritesLatch env σ a key w' := by
      cases licence with
      | finish hmay =>
          cases licensed _ hmay with
          | mark marks => exact .finish marks
      | merge hmay =>
          cases licensed _ hmay with
          | mark marks => exact .merge marks
      | set hmay =>
          cases licensed _ hmay with
          | set call => exact .set call
    rcases left₁ with same | ⟨w, writes, write⟩
    · exact Or.inr ⟨w', writes', write'.trans (w'.write_congr same)⟩
    · exact Or.inr ⟨w', writes', write.again write' (writes.alike writes')⟩

/-! ## One writer -/

/-- A latch of whose merge the rank knows. -/
structure Flag.Ranked (f : Flag) : Prop where
  type : f.flagType = .LATCH
  status : f.status = .LIVE
  merged : f.value = "merged" → f.setMerged = true
  done : f.setMerged = true → f.value ≠ "done"

theorem nextRank_merged (flag : Option Flag) : 2 ≤ nextRank "merged" flag := by
  rw [nextRank, if_neg (by decide)]
  exact le_max_left _ _

/-- The rank never goes down. -/
theorem le_nextRank (value : String) (f : Flag) : f.rank ≤ nextRank value (some f) := by
  rw [nextRank]
  split
  · exact le_rfl
  · exact le_max_right _ _

theorem Flag.Ranked.latch {key value : String} {agent : Option AgentId} {flag : Option Flag}
    {epoch : ℕ} (downgrade : value = "done" → ∀ f, flag = some f → f.rank < 2) :
    Flag.Ranked { key := key, value := value, setBy := agent, epoch := epoch,
                  rank := nextRank value flag } := by
  refine ⟨rfl, rfl, ?_, ?_⟩
  · rintro rfl
    exact decide_eq_true (nextRank_merged flag)
  · rintro merged rfl
    have above : 2 ≤ nextRank "done" flag := of_decide_eq_true merged
    rw [nextRank, if_neg (by decide)] at above
    cases flag with
    | none =>
        simp only [Option.map_none, Option.getD_none] at above
        exact absurd above (by decide)
    | some f =>
        have below := downgrade rfl f rfl
        have rank : latchRank "done" = 1 := by decide
        simp only [Option.map_some, Option.getD_some, rank] at above
        omega

/-- A latch that was merged refuses to be done. -/
theorem flagSetLatch_rejects {f : Flag} (row : s.getFlag key = some f) (ranked : f.Ranked)
    (merged : f.setMerged = true) (agent : Option AgentId) :
    flagSetLatch s key "done" agent = (s, .set (.refuse "monotonic downgrade rejected")) := by
  have rank : 2 ≤ f.rank := of_decide_eq_true merged
  have one : latchRank "done" = 1 := by decide
  rw [flagSetLatch, row]
  simp only [ranked.type, reduceCtorEq, if_false, ranked.done merged, and_false, one]
  rw [if_pos ⟨by omega, by omega, by omega⟩]

/-- What the rank of a latch that was merged promises. -/
theorem Flag.Ranked.staysMerged {f : Flag} (ranked : f.Ranked) (row : s.getFlag key = some f)
    (merged : f.setMerged = true) : s.StaysMerged key := by
  have rank : 2 ≤ f.rank := of_decide_eq_true merged
  have one : latchRank "done" = 1 := by decide
  have two : latchRank "merged" = 2 := by decide
  constructor
  · rw [row]
    exact fun value => ranked.done merged (Option.some.inj value)
  · rw [row, flagSatisfied, if_neg (not_not.mpr ranked.status), one]
    simp only [zero_lt_one, decide_true, Bool.true_and, Bool.or_eq_true, decide_eq_true_eq]
    exact Or.inr (by omega)
  · rw [row, flagSatisfied, if_neg (not_not.mpr ranked.status), two]
    simp only [zero_lt_two, decide_true, Bool.true_and, Bool.or_eq_true, decide_eq_true_eq]
    exact Or.inr rank
  · intro agent
    rw [flagSetLatch_rejects row ranked merged agent]
    exact ⟨rfl, rfl⟩

theorem LatchStep.ranked {w : LatchWriter} (h : LatchStep key s w s') (keeps : KeepsRank key s w)
    (ih : ∀ f, s.getFlag key = some f → f.Ranked) :
    ∃ f', s'.getFlag key = some f' ∧ f'.Ranked ∧
      ∀ f, s.getFlag key = some f → f.setMerged = true → f'.setMerged = true := by
  cases w with
  | finish agent =>
      rw [LatchStep, LatchWriter.write, getFlag_setFlag] at h
      refine ⟨_, h, ?_⟩
      rw [KeepsRank] at keeps
      cases row : s.getFlag key with
      | none =>
          refine ⟨⟨rfl, rfl, fun value => ?_, fun merged => ?_⟩, fun f hf => (by cases hf)⟩
          · have value : "done" = "merged" := value
            exact absurd value (by decide)
          · have above : 2 ≤ 0 := of_decide_eq_true merged
            exact absurd above (by decide)
      | some f =>
          have unmerged : f.setMerged = false := by simpa [row] using keeps
          have old := ih f row
          refine ⟨⟨old.type, old.status, fun value => ?_, fun merged => ?_⟩, ?_⟩
          · have value : "done" = "merged" := value
            exact absurd value (by decide)
          · exact absurd (merged.symm.trans unmerged) (by decide)
          · rintro _ ⟨⟩ merged
            exact merged
  | merge =>
      rw [LatchStep, LatchWriter.write, getFlag_setFlag] at h
      refine ⟨_, h, ?_⟩
      rw [KeepsRank] at keeps
      cases row : s.getFlag key with
      | none => simp [row] at keeps
      | some f =>
          have merged : f.setMerged = true := by simpa [row] using keeps
          have old := ih f row
          refine ⟨⟨old.type, old.status, fun _ => merged, fun _ => ?_⟩, fun _ _ _ => merged⟩
          change "merged" ≠ "done"
          decide
  | set value agent =>
      rw [LatchStep, LatchWriter.write, flagSetLatch] at h
      cases row : s.getFlag key with
      | none =>
          simp only [row] at h
          rw [getFlag_latchFlag] at h
          exact ⟨_, h, .latch fun _ f hf => (by cases hf), fun f hf => (by cases hf)⟩
      | some f =>
          have old := ih f row
          simp only [row, old.type, reduceCtorEq, if_false] at h
          have same (h : s'.getFlag key = s.getFlag key) : ∃ f', s'.getFlag key = some f' ∧
              f'.Ranked ∧ ∀ f₀, some f = some f₀ → f₀.setMerged = true → f'.setMerged = true := by
            refine ⟨f, h.trans row, old, ?_⟩
            rintro _ ⟨⟩ merged
            exact merged
          split at h
          · exact same h
          split at h
          · exact same h
          · rename_i fresh up
            rw [getFlag_latchFlag] at h
            refine ⟨_, h, .latch ?_, ?_⟩
            · rintro rfl _ ⟨⟩
              by_contra above
              have one : latchRank "done" = 1 := by decide
              exact up ⟨by omega, by omega, by omega⟩
            · rintro _ ⟨⟩ merged
              have rank : 2 ≤ f.rank := of_decide_eq_true merged
              exact decide_eq_true (rank.trans (le_nextRank value f))

/-! ## Runs -/

theorem LatchStep.run_ranked (start : ∀ f, s.getFlag key = some f → f.Ranked)
    (run : Transition.Run (LatchStep key) (KeepsRank key) s s') :
    ∀ f, s'.getFlag key = some f → f.Ranked := by
  refine run.invariant (I := fun s => ∀ f, s.getFlag key = some f → f.Ranked)
    (fun s w s' ih keeps h f' row' => ?_) start
  obtain ⟨f, row, ranked, -⟩ := h.ranked keeps ih
  cases row.symm.trans row'
  exact ranked

/-- A latch that is merged at some point of a run of its writers stays merged. -/
theorem latch_stays_merged (start : s.getFlag key = none)
    (run : Transition.Run (LatchStep key) (KeepsRank key) s s₁)
    (merged : (s₁.getFlag key).map Flag.value = some "merged")
    (later : Transition.Run (LatchStep key) (KeepsRank key) s₁ s') : s'.StaysMerged key := by
  have ranked₁ : ∀ f, s₁.getFlag key = some f → f.Ranked := by
    refine LatchStep.run_ranked (fun f row => ?_) run
    rw [start] at row
    cases row
  obtain ⟨f₁, row₁, value₁⟩ := Option.map_eq_some_iff.mp merged
  have init : (∀ f, s₁.getFlag key = some f → f.Ranked) ∧
      ∃ f, s₁.getFlag key = some f ∧ f.setMerged = true :=
    ⟨ranked₁, f₁, row₁, (ranked₁ f₁ row₁).merged value₁⟩
  obtain ⟨ranked, f, row, set⟩ := later.invariant
    (I := fun s => (∀ f, s.getFlag key = some f → f.Ranked) ∧
      ∃ f, s.getFlag key = some f ∧ f.setMerged = true)
    (fun s w s' ih keeps h => by
      obtain ⟨ranked, f, row, set⟩ := ih
      obtain ⟨f', row', ranked', stays⟩ := h.ranked keeps ranked
      refine ⟨fun g hg => ?_, f', row', stays f row set⟩
      cases row'.symm.trans hg
      exact ranked') init
  exact (ranked f row).staysMerged row set

/-- A flag that `flag_set` merges, and Phase C after it. -/
theorem setThenMerge_stays :
    ((LatchWriter.merge.write ((LatchWriter.set "merged" none).write {} "T") "T").StaysMerged
      "T") := by
  refine latch_stays_merged (s := {}) rfl (.tail (.refl _) ?_ rfl) ?_ (.tail (.refl _) ?_ rfl)
  · exact trivial
  · decide +kernel
  · rw [KeepsRank]
    decide +kernel

/-- A merged flag is set back. -/
theorem merge_then_done : ∃ s₁ s', Transition.Run (LatchStep "T") (fun _ _ => True) {} s₁ ∧
    (s₁.getFlag "T").map Flag.value = some "merged" ∧
    Transition.Run (LatchStep "T") (fun _ _ => True) s₁ s' ∧
    (s'.getFlag "T").map Flag.value = some "done" ∧ ¬ s₁.StaysMerged "T" := by
  refine ⟨LatchWriter.merge.write {} "T",
    (LatchWriter.set "done" none).write (LatchWriter.merge.write {} "T") "T", ?_, ?_, ?_, ?_, ?_⟩
  · exact .tail (l := .merge) (.refl _) trivial rfl
  · decide +kernel
  · exact .tail (l := .set "done" none) (.refl _) trivial rfl
  · decide +kernel
  · intro h
    exact absurd h.done (by decide +kernel)

/-! ## Runs of the system -/

/-- The action keeps the rank of a latch: nobody owns the flag, and whoever writes its value alone
keeps to what `flag_set` has merged. -/
structure KeepsLatch (key : String) (σ : Sys) (l : Env × Action) : Prop where
  unowned : ∀ value agent ttl id epoch,
    l.2 ≠ .call (.flagSet key value agent .EPHEMERAL ttl id epoch)
  keeps : ∀ w, WritesLatch l.1 σ l.2 key w → KeepsRank key σ.store w

/-- What a step that keeps the rank of a latch leaves of it. -/
structure Sys.Ranks (σ : Sys) (key : String) : Prop where
  ok : σ.Ok
  latched : Latched σ.store.flags key
  ranked : ∀ f, σ.store.getFlag key = some f → f.Ranked

theorem Sys.Ranks.step {l : Env × Action} (h : σ.Ranks key) (next : Step cfg σ l σ')
    (plain : ∀ orbit, key ≠ readStaleKey orbit) (keeps : KeepsLatch key σ l) : σ'.Ranks key ∧
      ∀ f, σ.store.getFlag key = some f → f.setMerged = true →
        ∃ f', σ'.store.getFlag key = some f' ∧ f'.setMerged = true := by
  have ok' : σ'.Ok := (step_spec h.ok next).2
  obtain ⟨latched', same | ⟨w, writes, write⟩⟩ :=
    step_latch h.ok next plain h.latched keeps.unowned
  · exact ⟨⟨ok', latched', same ▸ h.ranked⟩, fun f row merged => ⟨f, same.trans row, merged⟩⟩
  · obtain ⟨f', row', ranked', stays⟩ := write.ranked (keeps.keeps w writes) h.ranked
    refine ⟨⟨ok', latched', fun f row => ?_⟩, fun f row merged => ⟨f', row', stays f row merged⟩⟩
    rw [row'] at row
    exact Option.some.inj row ▸ ranked'

/-- A latch that is merged in a run of the system stays merged while the rank is kept. -/
theorem merged_latch_stays (plain : ∀ orbit, key ≠ readStaleKey orbit)
    (reach : ReachableBy cfg (KeepsLatch key) σ₁)
    (merged : (σ₁.store.getFlag key).map Flag.value = some "merged")
    (later : Transition.Run (Step cfg) (KeepsLatch key) σ₁ σ') : σ'.store.StaysMerged key := by
  have init : Sys.Ranks {} key := by
    refine ⟨.empty, fun f hf => (by cases hf), fun f row => (by cases row)⟩
  have ranks₁ : σ₁.Ranks key := by
    refine Transition.Run.invariant (I := fun τ => Sys.Ranks τ key) ?_ reach init
    intro τ l τ' ih keeps next
    exact (ih.step next plain keeps).1
  obtain ⟨f₁, row₁, value₁⟩ := Option.map_eq_some_iff.mp merged
  have start : σ₁.Ranks key ∧ ∃ f, σ₁.store.getFlag key = some f ∧ f.setMerged = true :=
    ⟨ranks₁, f₁, row₁, (ranks₁.ranked f₁ row₁).merged value₁⟩
  obtain ⟨ranks, f, row, set⟩ : σ'.Ranks key ∧
      ∃ f, σ'.store.getFlag key = some f ∧ f.setMerged = true := by
    refine later.invariant
      (I := fun τ => Sys.Ranks τ key ∧ ∃ f, τ.store.getFlag key = some f ∧ f.setMerged = true)
      ?_ start
    rintro τ l τ' ⟨ranks, f, row, set⟩ keeps next
    obtain ⟨ranks', stays⟩ := ranks.step next plain keeps
    exact ⟨ranks', stays f row set⟩
  exact (ranks.ranked f row).staysMerged row set

end Omd
