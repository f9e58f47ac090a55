import Omd.Fsm
import Omd.Disjoint
import Omd.Lib.Trie
import Omd.Lib.Outcome
import Mathlib.Data.Rat.Defs
import Mathlib.Data.List.ReduceOption
import Mathlib.Data.List.TakeWhile

/-!
# The conflict candidate index

Admission asks, for one request, which held and pending rows overlap it.  The index
narrows the rows to look at: a trie over literal glob prefixes, built from the whole
snapshot, returns the rows whose prefix is comparable to the request's.  A row or a
request whose first segment is a wildcard can overlap anything and is always returned,
and a snapshot that cannot be indexed is returned whole.

`select_filter` is what the index owes to admission: on the rows that do overlap it
loses nothing, so whatever is filtered out of a selection for overlapping the request
is what would be filtered out of the snapshot.
-/

namespace Omd

open Lib

/-- The identity of a stored row.  The source draws random identifiers; here they are
the values of a counter. -/
abbrev OrbitId := ℕ

/-- A queue policy, named by its content.  The source names it by a digest of the
envelope. -/
inductive PolicyVersion
  /-- `STATIC_ADMISSION_POLICY_VERSION`. -/
  | static
  /-- `LEGACY_ADMISSION_POLICY_VERSION`. -/
  | legacy
  /-- The version of an aging envelope. -/
  | aging (quantum : ℚ) (maxAgeBoost : ℤ)
  /-- Any other text. -/
  | other (text : String)
  deriving DecidableEq, Repr

/-- A row as admission reads it.  A mode outside the three, and a pathspec that is not a
list of strings, read as `none`. -/
structure Row where
  orbitId : OrbitId
  mode : Option Mode
  pathspec : Option (List String)
  priority : ℤ
  queueSeq : Option ℤ
  policyVersion : Option PolicyVersion
  enqueuedAt : Option ℚ
  deriving DecidableEq, Repr

/-- A segment that holds a wildcard. -/
def isWild (s : Segment) : Bool := s.any fun c => c == '*' || c == '?' || c == '['

/-- `literal_glob_prefix`: the maximal literal segment prefix, `none` for a global
pattern. -/
def literalGlobPrefix (glob : String) : Except Fault (Option (List Segment)) :=
  let segments := globSegments glob
  if segments.any List.isEmpty then
    .error (.candidateIndexInput "glob contains an empty segment")
  else
    match segments.takeWhile fun s => !isWild s with
    | [] => .ok none
    | p => .ok (some p)

/-- `_pathspec`, followed by the literal prefix of each path. -/
def literalPrefixes (pathspec : Option (List String)) :
    Except Fault (List (Option (List Segment))) :=
  match pathspec with
  | none => .error (.candidateIndexInput "pathspec must be a sequence of strings")
  | some [] =>
      .error (.candidateIndexInput "pathspec must contain at least one non-empty string")
  | some paths => paths.mapM literalGlobPrefix

/-- The place of a row in the snapshot. -/
abbrev IndexKey := OrbitState × ℕ

instance : LawfulBEq IndexKey := inferInstance

instance : LawfulBEq (Option (List Segment)) := inferInstance

/-- `ConflictCandidateIndex`: the trie, and the rows that are returned always. -/
structure CandidateIndex where
  root : Trie Segment IndexKey := .empty
  globals : List IndexKey := []

namespace CandidateIndex

/-- Store one row. -/
def add (index : CandidateIndex) (key : IndexKey) (row : Row) :
    Except Fault CandidateIndex :=
  match row.mode with
  | none => .error (.candidateIndexInput "active row has an unindexable pathspec")
  | some _ =>
      match literalPrefixes row.pathspec with
      | .error _ => .error (.candidateIndexInput "active row has an unindexable pathspec")
      | .ok prefixes =>
          if none ∈ prefixes then .ok { index with globals := key :: index.globals }
          else .ok { index with
            root := prefixes.reduceOption.foldl (fun t p => t.insert p key) index.root }

/-- Store the rows of one state, numbered from `n`. -/
def addRows (state : OrbitState) : ℕ → List Row → CandidateIndex →
    Except Fault CandidateIndex
  | _, [], index => .ok index
  | n, row :: rows, index =>
      match index.add (state, n) row with
      | .error e => .error e
      | .ok index => addRows state (n + 1) rows index

/-- `ConflictCandidateIndex.__init__`. -/
def build (held pending : List Row) : Except Fault CandidateIndex :=
  match addRows .HELD 0 held {} with
  | .error e => .error e
  | .ok index => addRows .PENDING 0 pending index

/-- The keys a request with these literal prefixes has to look at. -/
def selected (index : CandidateIndex) (prefixes : List (List Segment)) : List IndexKey :=
  index.globals ++ prefixes.flatMap fun p => index.root.comparable p

end CandidateIndex

/-- The rows of one state whose key is among the selected, numbered from `n`. -/
def selectRows {α : Type} (selected : List IndexKey) (state : OrbitState) :
    ℕ → List α → List α
  | _, [] => []
  | n, row :: rows =>
      if (state, n) ∈ selected then row :: selectRows selected state (n + 1) rows
      else selectRows selected state (n + 1) rows

/-- `ConflictCandidateIndex.select`. -/
def CandidateIndex.select (index : CandidateIndex) (paths : List String)
    (held pending : List Row) : Except Fault (List Row × List Row) :=
  match literalPrefixes (some paths) with
  | .error e => .error e
  | .ok prefixes =>
      if none ∈ prefixes then .ok (held, pending)
      else
        let keys := index.selected prefixes.reduceOption
        .ok (selectRows keys .HELD 0 held, selectRows keys .PENDING 0 pending)

/-- `select_conflict_candidates`: any uncertainty falls back to the whole snapshot. -/
def selectConflictCandidates (paths : List String) (held pending : List Row)
    (enabled : Bool := true) : List Row × List Row :=
  if enabled then
    match CandidateIndex.build held pending with
    | .error _ => (held, pending)
    | .ok index =>
        match index.select paths held pending with
        | .error _ => (held, pending)
        | .ok selection => selection
  else (held, pending)

/-! ## Overlapping globs have comparable literal prefixes -/

theorem isGlobstar_of_not_isWild {s : Segment} (h : isWild s = false) :
    isGlobstar s = false := by
  rw [isGlobstar, beq_eq_false_iff_ne]
  rintro rfl
  exact absurd h (by decide)

/-- Two literal segments that intersect are equal. -/
theorem eq_of_segIntersect {a b : Segment} (ha : isWild a = false) (hb : isWild b = false)
    (h : segIntersect a b = true) : a = b := by
  have bracket : ∀ s : Segment, isWild s = false → '[' ∉ s := by
    intro s hs hmem
    have := List.any_eq_false.mp hs '[' hmem
    exact this (by decide)
  have plain : ∀ s : Segment, isWild s = false →
      ∀ c ∈ s, isStar c = false ∧ (c == '?') = false := by
    intro s hs c hc
    have := List.any_eq_false.mp hs c hc
    simp only [Bool.or_eq_true, not_or, Bool.not_eq_true] at this
    exact ⟨this.1.1, this.1.2⟩
  rw [segIntersect, if_neg (by simp [bracket a ha, bracket b hb])] at h
  clear bracket
  have pa := plain a ha
  have pb := plain b hb
  clear plain ha hb
  induction a generalizing b with
  | nil =>
      cases b with
      | nil => rfl
      | cons d b =>
          have hd := (pb d (List.mem_cons_self ..)).1
          rw [Wildcard.starMeet_nil, List.all_cons, hd] at h
          cases h
  | cons c a ih =>
      have hc := pa c (List.mem_cons_self ..)
      cases b with
      | nil =>
          rw [Wildcard.starMeet_token_nil hc.1] at h
          cases h
      | cons d b =>
          have hd := pb d (List.mem_cons_self ..)
          rw [Wildcard.starMeet_token_token hc.1 hd.1, Bool.and_eq_true] at h
          have hcd : c = d := by simpa [charMeet, hc.2, hd.2] using h.1
          rw [hcd, ih h.2 (fun x hx => pa x (List.mem_cons_of_mem _ hx))
            (fun x hx => pb x (List.mem_cons_of_mem _ hx))]

/-- The literal prefixes of two overlapping globs are comparable. -/
theorem literalGlobPrefix_comparable {g₁ g₂ : String} {p₁ p₂ : List Segment}
    (h₁ : literalGlobPrefix g₁ = .ok (some p₁)) (h₂ : literalGlobPrefix g₂ = .ok (some p₂))
    (h : globsOverlap g₁ g₂ = true) : p₁ <+: p₂ ∨ p₂ <+: p₁ := by
  have key : ∀ {g p}, literalGlobPrefix g = .ok (some p) →
      p = (globSegments g).takeWhile (fun s => !isWild s) := by
    intro g p hp
    simp only [literalGlobPrefix] at hp
    split at hp
    · cases hp
    · split at hp
      · cases hp
      · simpa using hp.symm
  rw [globsOverlap] at h
  split at h
  · rename_i heq
    subst heq
    rw [h₁] at h₂
    simp only [Except.ok.injEq, Option.some.injEq] at h₂
    exact Or.inl (h₂ ▸ List.prefix_rfl)
  · have lit : ∀ {g p}, literalGlobPrefix g = .ok (some p) → ∀ s ∈ p, isWild s = false := by
      intro g p hp s hs
      rw [key hp] at hs
      simpa using List.mem_takeWhile_imp hs
    have split : ∀ {g p}, literalGlobPrefix g = .ok (some p) →
        globSegments g = p ++ (globSegments g).dropWhile (fun s => !isWild s) := by
      intro g p hp
      rw [key hp, List.takeWhile_append_dropWhile]
    rw [pathIntersect, split h₁, split h₂] at h
    refine Wildcard.starMeet_literal (L := fun s => isWild s = false)
      (fun s => isGlobstar_of_not_isWild) ?_ (lit h₁) (lit h₂) h
    intro a b ha hb hab
    exact eq_of_segIntersect ha hb hab

/-! ## The index misses no overlapping row -/

namespace CandidateIndex

/-- A stored row is found again, and no row is lost: `index` knows at least what `old`
knows. -/
def Extends (old index : CandidateIndex) : Prop :=
  (∀ k ∈ old.globals, k ∈ index.globals) ∧
    ∀ p k, k ∈ old.root.rowsAt p → k ∈ index.root.rowsAt p

theorem Extends.refl (index : CandidateIndex) : Extends index index :=
  ⟨fun _ h => h, fun _ _ h => h⟩

theorem Extends.trans {a b c : CandidateIndex} (h₁ : Extends a b) (h₂ : Extends b c) :
    Extends a c :=
  ⟨fun k h => h₂.1 k (h₁.1 k h), fun p k h => h₂.2 p k (h₁.2 p k h)⟩

/-- The key of the row is returned always, or lies under each of its literal
prefixes. -/
def Knows (index : CandidateIndex) (key : IndexKey) (row : Row) : Prop :=
  ∃ prefixes, literalPrefixes row.pathspec = .ok prefixes ∧
    (key ∈ index.globals ∨
      (none ∉ prefixes ∧ ∀ p, some p ∈ prefixes → key ∈ index.root.rowsAt p))

theorem Knows.mono {a b : CandidateIndex} {key : IndexKey} {row : Row} (h : Extends a b) :
    Knows a key row → Knows b key row := by
  rintro ⟨prefixes, hp, hk | ⟨hn, hk⟩⟩
  · exact ⟨prefixes, hp, Or.inl (h.1 _ hk)⟩
  · exact ⟨prefixes, hp, Or.inr ⟨hn, fun p hp => h.2 _ _ (hk p hp)⟩⟩

theorem mem_rowsAt_foldl_insert {key k : IndexKey} {q : List Segment}
    {ps : List (List Segment)} {t : Trie Segment IndexKey} :
    k ∈ (ps.foldl (fun t p => t.insert p key) t).rowsAt q ↔
      (q ∈ ps ∧ k = key) ∨ k ∈ t.rowsAt q := by
  induction ps generalizing t with
  | nil => simp
  | cons p ps ih =>
      rw [List.foldl_cons, ih, Trie.mem_rowsAt_insert, List.mem_cons]
      constructor
      · rintro (⟨h, hk⟩ | ⟨h, hk⟩ | h)
        · exact Or.inl ⟨Or.inr h, hk⟩
        · exact Or.inl ⟨Or.inl h.symm, hk⟩
        · exact Or.inr h
      · rintro (⟨h | h, hk⟩ | h)
        · exact Or.inr (Or.inl ⟨h.symm, hk⟩)
        · exact Or.inl ⟨h, hk⟩
        · exact Or.inr (Or.inr h)

theorem add_spec {index index' : CandidateIndex} {key : IndexKey} {row : Row}
    (h : index.add key row = .ok index') : Extends index index' ∧ Knows index' key row := by
  simp only [add] at h
  split at h
  · cases h
  · split at h
    · cases h
    · rename_i prefixes hp
      split at h
      · cases h
        refine ⟨⟨fun k hk => List.mem_cons_of_mem _ hk, fun _ _ hk => hk⟩, prefixes, hp, ?_⟩
        exact Or.inl (List.mem_cons_self ..)
      · rename_i hn
        cases h
        refine ⟨⟨fun _ hk => hk, fun p k hk => ?_⟩, prefixes, hp, Or.inr ⟨hn, fun p hp => ?_⟩⟩
        · exact mem_rowsAt_foldl_insert.mpr (Or.inr hk)
        · exact mem_rowsAt_foldl_insert.mpr (Or.inl ⟨List.reduceOption_mem_iff.mpr hp, rfl⟩)

theorem addRows_spec {state : OrbitState} {n : ℕ} {rows : List Row}
    {index index' : CandidateIndex} (h : addRows state n rows index = .ok index') :
    Extends index index' ∧
      ∀ i row, rows[i]? = some row → Knows index' (state, n + i) row := by
  induction rows generalizing n index with
  | nil =>
      cases h
      exact ⟨Extends.refl _, fun i row hi => by simp at hi⟩
  | cons r rows ih =>
      rw [addRows] at h
      split at h
      · cases h
      · rename_i index₁ h₁
        obtain ⟨hext₁, hknows₁⟩ := add_spec h₁
        obtain ⟨hext, hknows⟩ := ih h
        refine ⟨hext₁.trans hext, fun i row hi => ?_⟩
        cases i with
        | zero =>
            simp only [List.getElem?_cons_zero, Option.some.injEq] at hi
            subst hi
            exact hknows₁.mono hext
        | succ i =>
            have := hknows i row (by simpa using hi)
            rwa [show n + (i + 1) = n + 1 + i by omega]

theorem build_spec {held pending : List Row} {index : CandidateIndex}
    (h : build held pending = .ok index) :
    (∀ i row, held[i]? = some row → Knows index (.HELD, i) row) ∧
      ∀ i row, pending[i]? = some row → Knows index (.PENDING, i) row := by
  rw [build] at h
  split at h
  · cases h
  · rename_i index₁ h₁
    obtain ⟨-, hk₁⟩ := addRows_spec h₁
    obtain ⟨hext, hk⟩ := addRows_spec h
    constructor
    · intro i row hi
      have := (hk₁ i row hi).mono hext
      rwa [Nat.zero_add] at this
    · intro i row hi
      have := hk i row hi
      rwa [Nat.zero_add] at this

/-- The key of an overlapping row is selected. -/
theorem mem_selected_of_overlap {index : CandidateIndex} {key : IndexKey} {row : Row}
    {paths rowPaths : List String} {prefixes : List (Option (List Segment))}
    (hk : Knows index key row) (hpaths : literalPrefixes (some paths) = .ok prefixes)
    (hn : none ∉ prefixes) (hrow : row.pathspec = some rowPaths)
    (h : setsOverlap paths rowPaths = true) :
    key ∈ index.selected prefixes.reduceOption := by
  have ofPath : ∀ {ps : List String} {qs}, literalPrefixes (some ps) = .ok qs → none ∉ qs →
      ∀ g ∈ ps, ∃ p, some p ∈ qs ∧ literalGlobPrefix g = .ok (some p) := by
    intro ps qs hps hq g hg
    cases ps with
    | nil => cases hg
    | cons a ps =>
        rw [literalPrefixes] at hps
        · obtain ⟨q, hqs, hlit⟩ := Outcome.exists_of_mapM_ok hps g hg
          cases q with
          | none => exact absurd hqs hq
          | some p => exact ⟨p, hqs, hlit⟩
        · simp
  obtain ⟨rowPrefixes, hrp, hglob | ⟨hrn, hin⟩⟩ := hk
  · exact List.mem_append_left _ hglob
  · rw [hrow] at hrp
    simp only [setsOverlap, List.any_eq_true] at h
    obtain ⟨a, ha, b, hb, hab⟩ := h
    obtain ⟨p, hp, hpl⟩ := ofPath hpaths hn a ha
    obtain ⟨q, hq, hql⟩ := ofPath hrp hrn b hb
    refine List.mem_append_right _ (List.mem_flatMap.mpr ⟨p, ?_, ?_⟩)
    · exact List.reduceOption_mem_iff.mpr hp
    · rcases literalGlobPrefix_comparable hpl hql hab with hpq | hqp
      · exact Trie.mem_comparable_of_extension hpq (hin q hq)
      · exact Trie.mem_comparable_of_prefix hqp (hin q hq)

end CandidateIndex

/-- Filtering a selection for a property that only selected rows have is filtering the
snapshot. -/
theorem selectRows_filter {α : Type} {keys : List IndexKey} {state : OrbitState} {p : α → Bool}
    {n : ℕ} {rows : List α}
    (h : ∀ i row, rows[i]? = some row → p row = true → (state, n + i) ∈ keys) :
    (selectRows keys state n rows).filter p = rows.filter p := by
  induction rows generalizing n with
  | nil => rfl
  | cons r rows ih =>
      have ih' : (selectRows keys state (n + 1) rows).filter p = rows.filter p := by
        refine ih fun i row hi hp => ?_
        rw [show n + 1 + i = n + (i + 1) by omega]
        exact h (i + 1) row (by simpa using hi) hp
      rw [selectRows]
      split
      · rw [List.filter_cons, List.filter_cons, ih']
      · rename_i hkey
        have hp : p r = false := by
          rw [← Bool.not_eq_true]
          exact fun hp => hkey (h 0 r rfl hp)
        rw [List.filter_cons_of_neg (by simp [hp]), ih']

theorem selectRows_subset {α : Type} {keys : List IndexKey} {state : OrbitState} {n : ℕ}
    {rows : List α} : ∀ r ∈ selectRows keys state n rows, r ∈ rows := by
  induction rows generalizing n with
  | nil => intro r hr; cases hr
  | cons a rows ih =>
      intro r hr
      rw [selectRows] at hr
      split at hr
      · rcases List.mem_cons.mp hr with rfl | hr
        · exact List.mem_cons_self ..
        · exact List.mem_cons_of_mem _ (ih r hr)
      · exact List.mem_cons_of_mem _ (ih r hr)

/-- A selection holds rows of the snapshot only. -/
theorem selectConflictCandidates_subset (paths : List String) (held pending : List Row)
    (enabled : Bool) :
    (∀ r ∈ (selectConflictCandidates paths held pending enabled).1, r ∈ held) ∧
      ∀ r ∈ (selectConflictCandidates paths held pending enabled).2, r ∈ pending := by
  rw [selectConflictCandidates]
  split
  · split
    · exact ⟨fun _ h => h, fun _ h => h⟩
    · split
      · exact ⟨fun _ h => h, fun _ h => h⟩
      · rename_i selection hsel
        rw [CandidateIndex.select] at hsel
        split at hsel
        · cases hsel
        · split at hsel
          · cases hsel
            exact ⟨fun _ h => h, fun _ h => h⟩
          · cases hsel
            exact ⟨selectRows_subset, selectRows_subset⟩
  · exact ⟨fun _ h => h, fun _ h => h⟩

/-- A property of rows that only overlapping rows have is filtered alike out of the
selection and out of the snapshot. -/
theorem select_filter {paths : List String} {held pending : List Row} {enabled : Bool}
    {p : Row → Bool}
    (hp : ∀ row, p row = true → ∃ ps, row.pathspec = some ps ∧ setsOverlap paths ps = true) :
    (selectConflictCandidates paths held pending enabled).1.filter p = held.filter p ∧
      (selectConflictCandidates paths held pending enabled).2.filter p = pending.filter p := by
  rw [selectConflictCandidates]
  split
  · split
    · exact ⟨rfl, rfl⟩
    · rename_i index hbuild
      obtain ⟨hheld, hpend⟩ := CandidateIndex.build_spec hbuild
      split
      · exact ⟨rfl, rfl⟩
      · rename_i selection hsel
        rw [CandidateIndex.select] at hsel
        split at hsel
        · cases hsel
        · rename_i prefixes hpre
          split at hsel
          · cases hsel
            exact ⟨rfl, rfl⟩
          · rename_i hn
            cases hsel
            constructor
            · refine selectRows_filter fun i row hi hrow => ?_
              obtain ⟨ps, hps, hov⟩ := hp row hrow
              rw [Nat.zero_add]
              exact CandidateIndex.mem_selected_of_overlap (hheld i row hi) hpre hn hps hov
            · refine selectRows_filter fun i row hi hrow => ?_
              obtain ⟨ps, hps, hov⟩ := hp row hrow
              rw [Nat.zero_add]
              exact CandidateIndex.mem_selected_of_overlap (hpend i row hi) hpre hn hps hov
  · exact ⟨rfl, rfl⟩

end Omd
