import Omd.Admission

/-!
# Snapshots that cannot be read

Admission takes the rows as they are stored: a mode may be none of the three, a pathspec no
list of strings, and rank data no numbers.  What reads such a datum raises.  With the
candidate index fewer rows are read than without it, so that the index hides neither a
blocker nor a failure is a fact about these raw rows: a row is only left out when reading it
raises nothing and finds no conflict.

On rows that can be read this is the kernel of `Omd.Admission`, by `decideAdmission_raw`.
-/

namespace Omd

open Lib

/-! ## Raw rows -/

/-- A stored pathspec: whether it is a list or a tuple, and what iterating over it yields.  An
element that is no string is `none`. -/
structure RawPathspec where
  sequence : Bool
  elements : Except Fault (List (Option String))

/-- A row before anything is read. -/
structure RawRow where
  orbitId : OrbitId
  mode : Except Fault Mode
  pathspec : RawPathspec
  priority : Except Fault ℤ
  queueSeq : Option (Except Fault ℤ)
  policyVersion : Option PolicyVersion
  enqueuedAt : Option ℚ

/-- The row as the index sees it. -/
def RawRow.indexed (row : RawRow) : Row where
  orbitId := row.orbitId
  mode := row.mode.toOption
  pathspec :=
    if row.pathspec.sequence then row.pathspec.elements.toOption.bind (·.mapM id) else none
  priority := row.priority.toOption.getD 0
  queueSeq := row.queueSeq.bind Except.toOption
  policyVersion := row.policyVersion
  enqueuedAt := row.enqueuedAt

/-- A datum that reading it raises for when it is absent. -/
def orRaise {α : Type} (fault : Fault) : Option α → Except Fault α
  | none => .error fault
  | some a => .ok a

/-- The raw form of a row. -/
def Row.raw (row : Row) : RawRow where
  orbitId := row.orbitId
  mode := orRaise (.valueError "unsupported orbit mode pair") row.mode
  pathspec :=
    ⟨true, (orRaise (.valueError "malformed pathspec JSON") row.pathspec).map (·.map some)⟩
  priority := .ok row.priority
  queueSeq := row.queueSeq.map .ok
  policyVersion := row.policyVersion
  enqueuedAt := row.enqueuedAt

/-! ## The kernel over raw rows -/

/-- The rows of `sets_overlap` for one glob of the request. -/
def globOverlapsAny (glob : String) : List (Option String) → Except Fault Bool
  | [] => .ok false
  | none :: _ => .error (.typeError "glob must be a string")
  | some g :: rest => if globsOverlap glob g then .ok true else globOverlapsAny glob rest

/-- `sets_overlap`, up to the first pair that overlaps. -/
def setsOverlapRaw : List String → List (Option String) → Except Fault Bool
  | [], _ => .ok false
  | glob :: globs, elements => do
      if ← globOverlapsAny glob elements then .ok true else setsOverlapRaw globs elements

/-- `exact_conflict`. -/
def exactConflictRaw (pathspec : List String) (mode : Mode) (row : RawRow) :
    Except Fault Bool := do
  let m ← row.mode
  if modesCompatible mode m then .ok false
  else do
    let elements ← row.pathspec.elements
    setsOverlapRaw pathspec elements

/-- `pending_outranks`. -/
def pendingOutranksRaw (policy : QueuePolicy) (rank : Rank) (observedAt : ℚ) (row : RawRow) :
    Except Fault Bool :=
  match row.queueSeq, row.policyVersion with
  | some seq, some version => do
      let base ← row.priority
      let seq ← seq
      match policy.rankKey base (some seq) (some version) row.enqueuedAt observedAt with
      | none => .ok true
      | some r => .ok (r < rank)
  | _, _ => .ok true

/-- The identifiers of the rows that pass a test which may fail. -/
def idsWhereRaw (p : RawRow → Except Fault Bool) : List RawRow → Except Fault (List OrbitId)
  | [] => .ok []
  | row :: rows => do
      let here ← p row
      let rest ← idsWhereRaw p rows
      .ok (if here then row.orbitId :: rest else rest)

/-- `select_conflict_candidates`. -/
def selectRawCandidates (paths : List String) (held pending : List RawRow) (enabled : Bool) :
    List RawRow × List RawRow :=
  if enabled then
    match CandidateIndex.build (held.map RawRow.indexed) (pending.map RawRow.indexed),
        literalPrefixes (some paths) with
    | .ok index, .ok prefixes =>
        if none ∈ prefixes then (held, pending)
        else
          let keys := index.selected prefixes.reduceOption
          (selectRows keys .HELD 0 held, selectRows keys .PENDING 0 pending)
    | _, _ => (held, pending)
  else (held, pending)

/-- `decide_admission`. -/
def decideAdmissionRaw (policy : QueuePolicy) (request : AdmissionRequest)
    (held pending : List RawRow) (observedAt : ℚ) (candidateIndexEnabled : Bool) :
    Except Fault AdmissionDecision := do
  let candidates := selectRawCandidates request.pathspec held pending candidateIndexEnabled
  let heldIds ← idsWhereRaw (fun row =>
    if some row.orbitId ≠ request.orbitId then exactConflictRaw request.pathspec request.mode row
    else .ok false) candidates.1
  match request.rank policy observedAt with
  | none => .error (.valueError "request queue policy authority is unavailable")
  | some rank => do
      let pendingIds ← idsWhereRaw (fun row =>
        if some row.orbitId ≠ request.orbitId then do
          if ← exactConflictRaw request.pathspec request.mode row then
            pendingOutranksRaw policy rank observedAt row
          else .ok false
        else .ok false) candidates.2
      .ok { heldBlockers := heldIds.insertionSort (· ≤ ·)
            pendingPredecessors := pendingIds.insertionSort (· ≤ ·)
            basePriority := request.priority
            effectivePriority := -(ofLex rank).1
            observedAt }

/-! ## What the index leaves out -/

theorem globOverlapsAny_map_some (glob : String) (globs : List String) :
    globOverlapsAny glob (globs.map some) = .ok (globs.any (globsOverlap glob)) := by
  induction globs with
  | nil => rfl
  | cons g globs ih =>
      rw [List.map_cons, globOverlapsAny, ih, List.any_cons]
      by_cases h : globsOverlap glob g = true
      · rw [if_pos h, h, Bool.true_or]
      · rw [if_neg h, Bool.eq_false_iff.mpr h, Bool.false_or]

/-- On a list of strings nothing raises. -/
theorem setsOverlapRaw_map_some (paths globs : List String) :
    setsOverlapRaw paths (globs.map some) = .ok (setsOverlap paths globs) := by
  induction paths with
  | nil => rfl
  | cons a paths ih =>
      rw [setsOverlapRaw, globOverlapsAny_map_some, setsOverlap, List.any_cons]
      cases h : globs.any (globsOverlap a) with
      | true => simp [bind, Except.bind]
      | false => simpa [bind, Except.bind, setsOverlap] using ih

/-- A pathspec the index reads is a list of strings. -/
theorem RawRow.elements_of_indexed {row : RawRow} {paths : List String}
    (h : row.indexed.pathspec = some paths) :
    row.pathspec.elements = .ok (paths.map some) := by
  rw [RawRow.indexed] at h
  dsimp only at h
  split at h
  · cases hel : row.pathspec.elements with
    | error e =>
        rw [hel] at h
        cases h
    | ok elements =>
        rw [hel] at h
        have read : elements.mapM id = some paths := h
        clear h hel
        congr 1
        induction elements generalizing paths with
        | nil =>
            cases read
            rfl
        | cons e elements ih =>
            rw [List.mapM_cons] at read
            cases e with
            | none => cases read
            | some g =>
                cases hrest : elements.mapM id with
                | none =>
                    rw [hrest] at read
                    cases read
                | some rest =>
                    rw [hrest] at read
                    cases read
                    rw [List.map_cons, ih hrest]
  · cases h

/-- A snapshot that is indexed has modes that can be read. -/
theorem CandidateIndex.addRows_modes {state : OrbitState} {n : ℕ} {rows : List Row}
    {index index' : CandidateIndex} (h : addRows state n rows index = .ok index') :
    ∀ row ∈ rows, row.mode.isSome = true := by
  induction rows generalizing n index with
  | nil => simp
  | cons r rows ih =>
      rw [addRows] at h
      split at h
      · cases h
      rename_i index₁ h₁
      intro row hrow
      rcases List.mem_cons.mp hrow with rfl | hrow
      · rw [add] at h₁
        split at h₁
        · cases h₁
        · rename_i m hm
          rw [hm]
          rfl
      · exact ih h row hrow

theorem CandidateIndex.build_modes {held pending : List Row} {index : CandidateIndex}
    (h : build held pending = .ok index) : ∀ row ∈ held ++ pending, row.mode.isSome = true := by
  rw [build] at h
  split at h
  · cases h
  rename_i index₁ h₁
  intro row hrow
  rcases List.mem_append.mp hrow with hrow | hrow
  · exact addRows_modes h₁ row hrow
  · exact addRows_modes h row hrow

/-- Reading a row that is left out raises nothing and finds no conflict. -/
theorem exactConflictRaw_of_left_out {index : CandidateIndex} {key : IndexKey} {row : RawRow}
    {paths : List String} {prefixes : List (Option (List Segment))} {mode : Mode}
    (known : index.Knows key row.indexed) (readable : row.indexed.mode.isSome = true)
    (hpaths : literalPrefixes (some paths) = .ok prefixes) (hn : none ∉ prefixes)
    (out : key ∉ index.selected prefixes.reduceOption) :
    exactConflictRaw paths mode row = .ok false := by
  obtain ⟨m, hm⟩ : ∃ m, row.mode = .ok m := by
    cases hmode : row.mode with
    | error e => simp [RawRow.indexed, hmode, Except.toOption] at readable
    | ok m => exact ⟨m, rfl⟩
  obtain ⟨rowPaths, hrow⟩ : ∃ rowPaths, row.indexed.pathspec = some rowPaths := by
    obtain ⟨_, hp, -⟩ := known
    cases hspec : row.indexed.pathspec with
    | none =>
        rw [hspec] at hp
        cases hp
    | some rowPaths => exact ⟨rowPaths, rfl⟩
  have apart : setsOverlap paths rowPaths = false := by
    rw [← Bool.not_eq_true]
    exact fun overlap =>
      out (CandidateIndex.mem_selected_of_overlap known hpaths hn hrow overlap)
  rw [exactConflictRaw, hm, RawRow.elements_of_indexed hrow]
  simp only [bind, Except.bind]
  split
  · rfl
  · rw [setsOverlapRaw_map_some, apart]

/-- Leaving out rows whose test says no changes nothing. -/
theorem idsWhereRaw_selectRows {keys : List IndexKey} {state : OrbitState}
    {p : RawRow → Except Fault Bool} {n : ℕ} {rows : List RawRow}
    (h : ∀ i row, rows[i]? = some row → (state, n + i) ∉ keys → p row = .ok false) :
    idsWhereRaw p (selectRows keys state n rows) = idsWhereRaw p rows := by
  induction rows generalizing n with
  | nil => rfl
  | cons r rows ih =>
      have rest : idsWhereRaw p (selectRows keys state (n + 1) rows) = idsWhereRaw p rows := by
        refine ih fun i row hi out => h (i + 1) row (by simpa using hi) ?_
        rwa [show n + (i + 1) = n + 1 + i by omega]
      rw [selectRows]
      split
      · rw [idsWhereRaw, idsWhereRaw, rest]
      · rename_i out
        rw [idsWhereRaw, h 0 r rfl out, rest]
        simp only [bind, Except.bind]
        cases idsWhereRaw p rows <;> rfl

/-- A row whose key is among the selected is selected. -/
theorem mem_selectRows {α : Type} {keys : List IndexKey} {state : OrbitState} {n i : ℕ}
    {rows : List α} {row : α} (h : rows[i]? = some row) (mem : (state, n + i) ∈ keys) :
    row ∈ selectRows keys state n rows := by
  induction rows generalizing n i with
  | nil => simp at h
  | cons r rows ih =>
      rw [selectRows]
      cases i with
      | zero =>
          rw [List.getElem?_cons_zero, Option.some.injEq] at h
          rw [Nat.add_zero] at mem
          rw [if_pos mem, h]
          exact List.mem_cons_self
      | succ i =>
          have later : row ∈ selectRows keys state (n + 1) rows := by
            refine ih (by simpa using h) ?_
            rwa [show n + 1 + i = n + (i + 1) by omega]
          split
          · exact List.mem_cons_of_mem _ later
          · exact later

/-- The selection with the index: the whole snapshot, or rows selected by keys that leave out only
rows which raise nothing and do not conflict. -/
theorem selectRawCandidates_spec (paths : List String) (held pending : List RawRow)
    (mode : Mode) : selectRawCandidates paths held pending true = (held, pending) ∨
      ∃ keys, selectRawCandidates paths held pending true =
          (selectRows keys .HELD 0 held, selectRows keys .PENDING 0 pending) ∧
        (∀ i row, held[i]? = some row → (OrbitState.HELD, i) ∉ keys →
          exactConflictRaw paths mode row = .ok false) ∧
        ∀ i row, pending[i]? = some row → (OrbitState.PENDING, i) ∉ keys →
          exactConflictRaw paths mode row = .ok false := by
  rw [selectRawCandidates, if_pos rfl]
  split
  · rename_i index prefixes hbuild hpaths
    split
    · exact Or.inl rfl
    rename_i hn
    refine Or.inr ⟨_, rfl, ?_, ?_⟩
    · intro i row hi out
      have hi' : (held.map RawRow.indexed)[i]? = some row.indexed := by
        rw [List.getElem?_map, hi]
        rfl
      have readable := CandidateIndex.build_modes hbuild row.indexed
        (List.mem_append_left _ (List.mem_of_getElem? hi'))
      exact exactConflictRaw_of_left_out ((CandidateIndex.build_spec hbuild).1 i _ hi') readable
        hpaths hn out
    · intro i row hi out
      have hi' : (pending.map RawRow.indexed)[i]? = some row.indexed := by
        rw [List.getElem?_map, hi]
        rfl
      have readable := CandidateIndex.build_modes hbuild row.indexed
        (List.mem_append_right _ (List.mem_of_getElem? hi'))
      exact exactConflictRaw_of_left_out ((CandidateIndex.build_spec hbuild).2 i _ hi') readable
        hpaths hn out
  · exact Or.inl rfl

theorem decideAdmissionRaw_enabled (policy : QueuePolicy) (request : AdmissionRequest)
    (held pending : List RawRow) (observedAt : ℚ) :
    decideAdmissionRaw policy request held pending observedAt true =
      decideAdmissionRaw policy request held pending observedAt false := by
  rw [decideAdmissionRaw, decideAdmissionRaw]
  rcases selectRawCandidates_spec request.pathspec held pending request.mode with
    whole | ⟨keys, picked, heldOut, pendingOut⟩
  · rw [whole]
    rfl
  rw [picked, selectRawCandidates, if_neg Bool.false_ne_true]
  dsimp only
  rw [idsWhereRaw_selectRows]
  · congr 1
    funext heldIds
    split
    · rfl
    rw [idsWhereRaw_selectRows]
    intro i row hi out
    rw [Nat.zero_add] at out
    rw [pendingOut i row hi out]
    exact ite_self _
  · intro i row hi out
    rw [Nat.zero_add] at out
    rw [heldOut i row hi out]
    exact ite_self _

/-- A row that conflicts is selected. -/
theorem selectRawCandidates_complete {paths : List String} {mode : Mode} {row : RawRow}
    (held pending : List RawRow) (conflict : exactConflictRaw paths mode row = .ok true) :
    (row ∈ held → row ∈ (selectRawCandidates paths held pending true).1) ∧
      (row ∈ pending → row ∈ (selectRawCandidates paths held pending true).2) := by
  rcases selectRawCandidates_spec paths held pending mode with
    whole | ⟨keys, picked, heldOut, pendingOut⟩
  · rw [whole]
    exact ⟨id, id⟩
  rw [picked]
  constructor
  · intro mem
    obtain ⟨i, hi⟩ := List.mem_iff_getElem?.mp mem
    by_cases key : (OrbitState.HELD, i) ∈ keys
    · exact mem_selectRows hi (by rwa [Nat.zero_add])
    · cases (heldOut i row hi key).symm.trans conflict
  · intro mem
    obtain ⟨i, hi⟩ := List.mem_iff_getElem?.mp mem
    by_cases key : (OrbitState.PENDING, i) ∈ keys
    · exact mem_selectRows hi (by rwa [Nat.zero_add])
    · cases (pendingOut i row hi key).symm.trans conflict

/-- The index changes neither a decision nor a failure, and leaves out no row that
conflicts. -/
theorem candidateIndex_invisible (policy : QueuePolicy) (request : AdmissionRequest)
    (held pending : List RawRow) (observedAt : ℚ) :
    decideAdmissionRaw policy request held pending observedAt true =
        decideAdmissionRaw policy request held pending observedAt false ∧
      ∀ row mode, exactConflictRaw request.pathspec mode row = .ok true →
        (row ∈ held → row ∈ (selectRawCandidates request.pathspec held pending true).1) ∧
          (row ∈ pending → row ∈ (selectRawCandidates request.pathspec held pending true).2) :=
  ⟨decideAdmissionRaw_enabled policy request held pending observedAt,
    fun _ _ => selectRawCandidates_complete held pending⟩

/-! ## Rows that can be read -/

@[simp] theorem Row.indexed_raw (row : Row) : row.raw.indexed = row := by
  have spec : row.raw.indexed.pathspec = row.pathspec := by
    rw [RawRow.indexed, Row.raw]
    dsimp only
    rw [if_pos rfl]
    cases row.pathspec with
    | none => rfl
    | some paths =>
        change (paths.map some).mapM id = some paths
        induction paths with
        | nil => rfl
        | cons g paths ih => simp [ih]
  have mode : row.raw.indexed.mode = row.mode := by
    rw [RawRow.indexed, Row.raw]
    cases row.mode <;> rfl
  have seq : row.raw.indexed.queueSeq = row.queueSeq := by
    rw [RawRow.indexed, Row.raw]
    cases row.queueSeq <;> rfl
  cases row
  simp_all [RawRow.indexed, Row.raw, Except.toOption]

theorem Row.map_indexed_raw (rows : List Row) : (rows.map Row.raw).map RawRow.indexed = rows := by
  rw [List.map_map]
  exact (List.map_congr_left fun row _ => row.indexed_raw).trans (List.map_id rows)

theorem selectRows_map_raw (keys : List IndexKey) (state : OrbitState) (n : ℕ) (rows : List Row) :
    selectRows keys state n (rows.map Row.raw) = (selectRows keys state n rows).map Row.raw := by
  induction rows generalizing n with
  | nil => rfl
  | cons r rows ih =>
      rw [List.map_cons, selectRows, selectRows, ih]
      split <;> rfl

theorem selectRawCandidates_raw (paths : List String) (held pending : List Row)
    (enabled : Bool) :
    selectRawCandidates paths (held.map Row.raw) (pending.map Row.raw) enabled =
      ((selectConflictCandidates paths held pending enabled).1.map Row.raw,
        (selectConflictCandidates paths held pending enabled).2.map Row.raw) := by
  rw [selectRawCandidates, selectConflictCandidates, Row.map_indexed_raw, Row.map_indexed_raw]
  cases enabled with
  | false => rfl
  | true =>
      simp only [if_true]
      cases CandidateIndex.build held pending with
      | error e => rfl
      | ok index =>
          dsimp only
          rw [CandidateIndex.select]
          cases literalPrefixes (some paths) with
          | error e => rfl
          | ok prefixes =>
              dsimp only
              split
              · rfl
              · rw [selectRows_map_raw, selectRows_map_raw]

theorem exactConflictRaw_raw (paths : List String) (mode : Mode) (row : Row) :
    exactConflictRaw paths mode row.raw = exactConflict paths mode row := by
  rw [exactConflictRaw, exactConflict, Row.raw]
  cases row.mode with
  | none => rfl
  | some m =>
      simp only [orRaise, bind, Except.bind]
      split
      · rfl
      cases row.pathspec with
      | none => rfl
      | some globs => exact setsOverlapRaw_map_some paths globs

theorem pendingOutranksRaw_raw (policy : QueuePolicy) (rank : Rank) (observedAt : ℚ)
    (row : Row) : pendingOutranksRaw policy rank observedAt row.raw =
      .ok (pendingOutranks policy rank observedAt row) := by
  rw [pendingOutranksRaw, pendingOutranks, Row.raw]
  cases row.queueSeq with
  | none => rfl
  | some seq =>
      cases row.policyVersion with
      | none => rfl
      | some version =>
          simp only [Option.map_some, bind, Except.bind]
          split <;> simp_all

theorem idsWhereRaw_map_raw {p : RawRow → Except Fault Bool} {q : Row → Except Fault Bool}
    (h : ∀ row : Row, p row.raw = q row) (rows : List Row) :
    idsWhereRaw p (rows.map Row.raw) = idsWhere q rows := by
  induction rows with
  | nil => rfl
  | cons r rows ih =>
      rw [List.map_cons, idsWhereRaw, idsWhere, h, ih]
      rfl

/-- The kernel is the one over raw rows. -/
theorem decideAdmission_raw (policy : QueuePolicy) (request : AdmissionRequest)
    (held pending : List Row) (observedAt : ℚ) (enabled : Bool) :
    decideAdmissionRaw policy request (held.map Row.raw) (pending.map Row.raw) observedAt enabled =
      decideAdmission policy request held pending observedAt enabled := by
  rw [decideAdmissionRaw, decideAdmission, selectRawCandidates_raw]
  dsimp only
  rw [idsWhereRaw_map_raw (q := fun row =>
    if some row.orbitId ≠ request.orbitId then exactConflict request.pathspec request.mode row
    else .ok false)]
  · congr 1
    funext heldIds
    cases request.rank policy observedAt with
    | none => rfl
    | some rank =>
    dsimp only
    rw [idsWhereRaw_map_raw (q := fun row =>
      if some row.orbitId ≠ request.orbitId then do
        let conflict ← exactConflict request.pathspec request.mode row
        .ok (conflict && pendingOutranks policy rank observedAt row)
      else .ok false)]
    intro row
    rw [← exactConflictRaw_raw]
    have id : row.raw.orbitId = row.orbitId := rfl
    rw [id]
    split
    · cases hc : exactConflictRaw request.pathspec request.mode row.raw with
      | error e => rfl
      | ok conflict =>
          cases conflict with
          | false => rfl
          | true => exact pendingOutranksRaw_raw policy rank observedAt row
    · rfl
  · intro row
    rw [← exactConflictRaw_raw]
    rfl

/-- The index is invisible to the kernel. -/
theorem decideAdmission_enabled (policy : QueuePolicy) (request : AdmissionRequest)
    (held pending : List Row) (observedAt : ℚ) :
    decideAdmission policy request held pending observedAt true =
      decideAdmission policy request held pending observedAt false := by
  rw [← decideAdmission_raw, ← decideAdmission_raw]
  exact decideAdmissionRaw_enabled policy request _ _ observedAt

end Omd
