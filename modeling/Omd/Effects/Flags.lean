import Omd.Effects.Basic

/-!
# The effect of a flag

A write of a flag that wakes the waiters of its key leaves nobody who waits for a flag that
is ready: about the other keys it says nothing, and of its own waiters those stay who want
another value.  `set_flag` wakes nobody; the sections that call it need a licence.
-/

namespace Omd

open Lib

variable {c : Scope} {E : TaskId → Prop} {s s' : Store}

/-! ## Lookup -/

theorem getFlag_modifyFlag (s : Store) (key : String) {f : Flag → Flag}
    (keeps : ∀ r, r.key = key → (f r).key = key) (k : String) :
    (s.modifyFlag key f).getFlag k = (s.getFlag k).map fun r => if k = key then f r else r :=
  Table.get_modify keeps s.flags

theorem getFlag_append (s : Store) (flag : Flag) (k : String) :
    Store.getFlag { s with flags := s.flags ++ [flag] } k =
      (s.getFlag k).or (if flag.key = k then some flag else none) :=
  Table.get_append

theorem getFlag_upsertFlag (s : Store) (flag : Flag) :
    (s.upsertFlag flag).getFlag flag.key = some flag := by
  rw [Store.upsertFlag]
  cases row : s.getFlag flag.key with
  | none =>
      refine (getFlag_append s flag flag.key).trans ?_
      rw [row, if_pos rfl, Option.none_or]
  | some f =>
      refine (getFlag_modifyFlag s flag.key (fun _ _ => rfl) flag.key).trans ?_
      rw [row, Option.map_some, if_pos rfl]

theorem getFlag_upsertFlag_ne (s : Store) {flag : Flag} {k : String} (ne : k ≠ flag.key) :
    (s.upsertFlag flag).getFlag k = s.getFlag k := by
  rw [Store.upsertFlag]
  split
  · refine (getFlag_append s flag k).trans ?_
    rw [if_neg ne.symm, Option.or_none]
  · refine (getFlag_modifyFlag s flag.key (fun _ _ => rfl) k).trans ?_
    simp [ne]

theorem getFlag_setFlag (s : Store) (key value : String) (agent : Option AgentId) :
    (s.setFlag key value agent).getFlag key = some (match s.getFlag key with
      | none => { key := key, value := value, setBy := agent }
      | some f => { f with value := value, setBy := agent }) := by
  let write (r : Flag) : Flag := { r with value := value, setBy := agent }
  have keeps : ∀ r, r.key = key → (write r).key = key := fun _ h => h
  rw [Store.setFlag]
  cases row : s.getFlag key with
  | none =>
      refine (getFlag_append s _ key).trans ?_
      rw [row, if_pos rfl, Option.none_or]
  | some f =>
      refine (getFlag_modifyFlag s key keeps key).trans ?_
      rw [row, Option.map_some, if_pos rfl]

theorem getFlag_setFlag_ne (s : Store) {key value k : String} {agent : Option AgentId}
    (ne : k ≠ key) : (s.setFlag key value agent).getFlag k = s.getFlag k := by
  let write (r : Flag) : Flag := { r with value := value, setBy := agent }
  have keeps : ∀ r, r.key = key → (write r).key = key := fun _ h => h
  rw [Store.setFlag]
  split
  · refine (getFlag_append s _ k).trans ?_
    rw [if_neg ne.symm, Option.or_none]
  · refine (getFlag_modifyFlag s key keeps k).trans ?_
    simp [ne]

/-! ## Waking -/

/-- What the wake of a key makes of a row, when it finds this waiter. -/
def FlagWaiter.heed (flag : Option Flag) (w row : FlagWaiter) : FlagWaiter :=
  if flagBroken flag then { row with state := .BROKEN }
  else if flagSatisfied flag w.wantValue then { row with state := .SATISFIED }
  else row

theorem wakeFlagWaiters_eq (s : Store) (key : String) :
    wakeFlagWaiters s key = { s with
      flagWaiters := (s.waitersForKey key).foldl (fun rows w =>
        Table.modify FlagWaiter.waiterId w.waiterId (w.heed (s.getFlag key)) rows)
        s.flagWaiters } := by
  rw [wakeFlagWaiters]
  generalize s.getFlag key = flag
  generalize s.waitersForKey key = ws
  induction ws generalizing s with
  | nil => rfl
  | cons w ws ih =>
      rw [List.foldl_cons, List.foldl_cons, ih]
      unfold FlagWaiter.heed
      split
      · rfl
      · split
        · rfl
        · simp [Table.modify]

theorem wakeFlagWaiters_flags (s : Store) (key : String) :
    (wakeFlagWaiters s key).flags = s.flags := by
  rw [wakeFlagWaiters_eq]

/-- A wake is about the waiting rows of the key. -/
theorem wakeFlagWaiters_rows (distinct : Table.Distinct FlagWaiter.waiterId s.flagWaiters)
    (key : String) : (wakeFlagWaiters s key).flagWaiters = s.flagWaiters.map fun w =>
      if (w.key = key && w.state = .WAITING) = true then w.heed (s.getFlag key) w else w := by
  rw [wakeFlagWaiters_eq]
  refine distinct.foldl_modify_filter _ fun w r => ?_
  rw [FlagWaiter.heed]
  split_ifs <;> rfl

theorem FlagWaiter.woken_heed {flag : Option Flag} {w : FlagWaiter} (waiting : w.state = .WAITING) :
    w.Woken (w.heed flag w) := by
  rw [heed]
  split_ifs
  · exact .broken waiting
  · exact .satisfied waiting
  · exact .stays

/-- Who waits on does so because the flag is not ready. -/
theorem FlagWaiter.heed_waiting {flag : Option Flag} {w : FlagWaiter}
    (waits : (w.heed flag w).state = .WAITING) :
    w.heed flag w = w ∧ flagReady flag w.wantValue = false := by
  rw [heed] at waits ⊢
  split_ifs at waits ⊢ with broken satisfied
  exact ⟨rfl, by simp [flagReady, broken, satisfied]⟩

/-- A write of one flag, with the wake of its key. -/
theorem wakeFlagWaiters_wakes {r : Store} {key : String}
    (others : ∀ k, k ≠ key → r.getFlag k = s.getFlag k)
    (waiters : r.flagWaiters = s.flagWaiters) :
    Wakes s.flags s.flagWaiters (wakeFlagWaiters r key).flags
      (wakeFlagWaiters r key).flagWaiters := by
  constructor
  · intro distinct
    refine ⟨_, fun w _ => ?_, waiters ▸ wakeFlagWaiters_rows (waiters.symm ▸ distinct) key⟩
    split_ifs with found
    · rw [Bool.and_eq_true, decide_eq_true_eq, decide_eq_true_eq] at found
      exact FlagWaiter.woken_heed found.2
    · exact .stays
  · intro distinct heard w' hw' waits
    rw [wakeFlagWaiters_rows (waiters.symm ▸ distinct) key, waiters] at hw'
    rw [wakeFlagWaiters_flags]
    obtain ⟨w, hw, rfl⟩ := List.mem_map.mp hw'
    split_ifs at waits ⊢ with found
    · obtain ⟨same, unready⟩ := FlagWaiter.heed_waiting waits
      rw [Bool.and_eq_true, decide_eq_true_eq] at found
      rw [same, found.1]
      exact unready
    · rw [Bool.and_eq_true, decide_eq_true_eq, decide_eq_true_eq, not_and'] at found
      exact (congrArg (flagReady · w.wantValue) (others w.key (found waits))).trans
        (heard w hw waits)

/-! ## Writes that wake -/

theorem frame_wake {rows : List Flag} {key : String}
    (leases : ∀ f ∈ rows, ∀ id, f.leaseId = some id → ∃ f₀ ∈ s.flags, f₀.leaseId = some id)
    (others : ∀ k, k ≠ key → Table.get Flag.key k rows = s.getFlag k)
    (back : ∀ f ∈ rows, f ∈ s.flags ∨ f.key = key)
    (dormant : (∀ orbit, key ≠ readStaleKey orbit) → Dormant s.flags key → Dormant rows key)
    (unlatched : (∀ orbit, key ≠ readStaleKey orbit) → ¬ Latched s.flags key) :
    Frame s (wakeFlagWaiters { s with flags := rows } key) := by
  have wakes : Wakes s.flags s.flagWaiters _ _ :=
    wakeFlagWaiters_wakes (r := { s with flags := rows }) others rfl
  rw [wakeFlagWaiters_eq] at wakes ⊢
  refine { leases := leases, board := ⟨wakes, fun k plain asleep => ?_, fun k plain latched => ?_⟩ }
  · by_cases same : k = key
    · subst same
      exact dormant plain asleep
    · obtain ⟨f, row, status⟩ := asleep
      exact ⟨f, (others k same).trans row, status⟩
  · have apart : k ≠ key := fun same => unlatched (same ▸ plain) (same ▸ latched)
    refine ⟨fun f hf hkey => ?_, others k apart⟩
    rcases back f hf with old | own
    · exact latched f old hkey
    · exact absurd (hkey.symm.trans own) apart

/-- The end of a flag that is no latch. -/
theorem frame_endFlag (s : Store) (key : String) {f : Flag → Flag}
    (hf : ∀ r, (f r).leaseId = r.leaseId ∧ (f r).key = r.key ∧ (f r).status ≠ .LIVE)
    (unlatched : (∀ orbit, key ≠ readStaleKey orbit) → ¬ Latched s.flags key) :
    Frame s (wakeFlagWaiters (s.modifyFlag key f) key) := by
  have keeps : ∀ r, r.key = key → (f r).key = key := fun r h => (hf r).2.1.trans h
  refine frame_wake (leases_modifyFlag key fun r => Or.inl (hf r).1) (fun k ne => ?_)
    (fun r' hr' => ?_) ?_ unlatched
  · refine (getFlag_modifyFlag s key keeps k).trans ?_
    simp [ne]
  · rcases Table.mem_modify.mp hr' with ⟨old, -⟩ | ⟨r, -, same, rfl⟩
    · exact Or.inl old
    · exact Or.inr (keeps r same)
  · rintro - ⟨r, row, -⟩
    refine ⟨f r, (getFlag_modifyFlag s key keeps key).trans ?_, (hf r).2.2⟩
    rw [Store.getFlag, row, Option.map_some, if_pos rfl]

/-- A write that keeps the types of the rows makes no latch. -/
theorem unlatched_modifyFlag {key k : String} {f : Flag → Flag} (unlatched : ¬ Latched s.flags k)
    (hf : ∀ r, (f r).flagType = r.flagType ∧ (f r).key = r.key) :
    ¬ Latched (s.modifyFlag key f).flags k := by
  intro latched
  refine unlatched fun r hr hkey => ?_
  by_cases same : r.key = key
  · rw [← (hf r).1]
    exact latched _ (Table.mem_modify.mpr (Or.inr ⟨r, hr, same, rfl⟩)) ((hf r).2.trans hkey)
  · exact latched r (Table.mem_modify.mpr (Or.inl ⟨hr, same⟩)) hkey

theorem frame_breakEphemeralFlagsForLease (s : Store) (lease : OrbitId) :
    Frame s (breakEphemeralFlagsForLease s lease) := by
  rw [breakEphemeralFlagsForLease]
  have unlatched : ∀ f ∈ s.ephemeralFlagsForLease lease, ¬ Latched s.flags f.key := by
    intro f hf latched
    simp only [Store.ephemeralFlagsForLease, List.mem_filter, Bool.and_eq_true,
      decide_eq_true_eq] at hf
    obtain ⟨hf, ⟨type, -⟩, -⟩ := hf
    cases type.symm.trans (latched f hf rfl)
  generalize s.ephemeralFlagsForLease lease = fs at unlatched
  induction fs generalizing s with
  | nil => exact .refl s
  | cons f fs ih =>
      rw [List.foldl_cons]
      refine (frame_endFlag s f.key
        (f := fun r => { r with status := .BROKEN, epoch := f.epoch + 1 })
        (fun _ => ⟨rfl, rfl, by simp⟩) fun _ => unlatched f List.mem_cons_self).trans
          (ih _ fun g hg => ?_)
      rw [wakeFlagWaiters_flags]
      exact unlatched_modifyFlag (unlatched g (List.mem_cons_of_mem f hg)) fun _ => ⟨rfl, rfl⟩

theorem frame_clearReadStaleSignal (s : Store) (orbit : OrbitId) :
    Frame s (clearReadStaleSignal s orbit) := by
  rw [clearReadStaleSignal]
  split
  · exact .refl s
  · split
    · rename_i f row _
      refine frame_endFlag s f.key (fun _ => ⟨rfl, rfl, by simp⟩) fun plain => ?_
      exact absurd (Table.key_of_get row) (plain orbit)
    · exact .refl s

theorem upsertFlag_eq (s : Store) (flag : Flag) :
    s.upsertFlag flag = { s with flags := (s.upsertFlag flag).flags } := by
  rw [Store.upsertFlag]
  split <;> rfl

theorem mem_upsertFlag {flag f : Flag} (h : f ∈ (s.upsertFlag flag).flags) :
    f ∈ s.flags ∨ f = flag := by
  rw [Store.upsertFlag] at h
  split at h
  · simpa using h
  · rcases Table.mem_modify.mp h with ⟨h, -⟩ | ⟨f₀, -, -, rfl⟩
    · exact Or.inl h
    · exact Or.inr rfl

/-- The announcement of a stale read. -/
theorem frame_announceRead (s : Store) (orbit : OrbitId) {flag : Flag}
    (key : flag.key = readStaleKey orbit) (lease : flag.leaseId = none) :
    Frame s (wakeFlagWaiters (s.upsertFlag flag) flag.key) := by
  rw [upsertFlag_eq]
  refine frame_wake (fun f hf id hid => ?_) (fun k ne => getFlag_upsertFlag_ne s ne)
    (fun f hf => (mem_upsertFlag hf).imp_right (congrArg Flag.key))
    (fun plain => absurd key (plain orbit)) fun plain => absurd key (plain orbit)
  rcases mem_upsertFlag hf with hf | rfl
  · exact ⟨f, hf, hid⟩
  · rw [lease] at hid
    cases hid

/-- `flag_set` writes the row of a flag, with a lease that there is. -/
theorem setSignal_keeps {flag : Flag} (may : c.may .signal)
    (writer : c.may (.own flag.key) ∨ ∃ value agent, c.may (.set flag.key value agent) ∧
      (s.upsertFlag flag).flags = (flagSetLatch s flag.key value agent).1.flags)
    (lease : ∀ id, flag.leaseId = some id → (∃ f₀ ∈ s.flags, f₀.leaseId = some id) ∨
      ∃ o ∈ s.orbits, o.orbitId = id ∧ o.kind = .flag_ephemeral) :
    Keeps c E s (wakeFlagWaiters (s.upsertFlag flag) flag.key) := by
  have wakes : Wakes s.flags s.flagWaiters _ _ :=
    wakeFlagWaiters_wakes (r := s.upsertFlag flag) (fun k ne => getFlag_upsertFlag_ne s ne)
      (by rw [upsertFlag_eq])
  rw [wakeFlagWaiters_flags] at wakes
  have same : wakeFlagWaiters (s.upsertFlag flag) flag.key = { s with
      flags := (s.upsertFlag flag).flags
      flagWaiters := (wakeFlagWaiters (s.upsertFlag flag) flag.key).flagWaiters } := by
    rw [wakeFlagWaiters_eq, upsertFlag_eq]
  rw [same]
  refine .of_micro (.flags (.write flag.key may writer (fun k ne => getFlag_upsertFlag_ne s ne)
    (fun f hf => (mem_upsertFlag hf).imp_right (congrArg Flag.key)) (fun f hf id hid => ?_)
    wakes) (.refl _)) rfl
  rcases mem_upsertFlag hf with hf | rfl
  · exact Or.inl ⟨f, hf, hid⟩
  · exact lease id hid

/-! ## Writes that do not -/

theorem setFlag_keeps {task : TaskId} {value : String} {agent : Option AgentId}
    (may : c.may (.mark task value)) (unsigned : value = "merged" → agent = none) :
    Keeps c E s (s.setFlag task value agent) := by
  have same : s.setFlag task value agent =
      { s with flags := (s.setFlag task value agent).flags } := by
    rw [Store.setFlag]
    split <;> rfl
  refine .of_micro (.flags (.mark task value agent may unsigned rfl ?_) ?_) ?_ <;> rw [same]
  exact .refl _

theorem setFlagWaiter_keeps {id : ℕ} {state : FlagWaiterState} (may : c.may (.poll id))
    (ended : state ≠ .WAITING) : Keeps c E s (s.setFlagWaiter id state) :=
  .of_micro (.flags (.poll id state may ended rfl rfl) (.refl _)) rfl

end Omd
