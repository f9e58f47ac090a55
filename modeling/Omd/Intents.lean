import Omd.Steps

/-!
# The intents of the rows

A path orbit carries its intent, which is what its columns say, and its paths are normalised; no
other row has one.  A claim finds the row of its intent that lives and inserts none then, so that
one row of an intent lives at a time.  The tickets that were drawn are below the next one.
-/

namespace Omd

open Lib

variable {cfg : Cfg} {c : Scope} {E : TaskId → Prop} {s s' : Store} {o o' : Orbit}

/-- What the path orbits are known by. -/
structure Store.Intents (s : Store) : Prop where
  intent : ∀ o ∈ s.orbits, o.kind = .orbit → o.intentKey = some o.intent
  paths : ∀ o ∈ s.orbits, o.kind = .orbit → normalizePathspec o.pathspec = .ok o.pathspec
  other : ∀ o ∈ s.orbits, o.kind ≠ .orbit → o.intentKey = none
  single : ∀ o ∈ s.orbits, ∀ p ∈ s.orbits, o.kind = .orbit → p.kind = .orbit → o.live = true →
    p.live = true → o.intent = p.intent → o = p
  ticket : ∀ o ∈ s.orbits, o.kind = .orbit → ∀ t, o.queueSeq = some t → t ≤ s.seq

theorem Orbit.SameRow.intent (h : o.SameRow o') : o'.intent = o.intent := by
  rw [Orbit.SameRow] at h
  rw [h]
  rfl

theorem Orbit.SameRow.intentKey (h : o.SameRow o') : o'.intentKey = o.intentKey := by
  rw [Orbit.SameRow] at h
  rw [h]

/-- The row that an intent finds. -/
theorem orbitByIntent_spec {key : IntentKey} (h : s.orbitByIntent key = some o) :
    o ∈ s.orbits ∧ o.intentKey = some key ∧ o.live = true := by
  have found := List.find?_some h
  simp only [Bool.and_eq_true, decide_eq_true_eq] at found
  exact ⟨List.mem_of_find?_eq_some h, found.1, found.2⟩

theorem Store.Intents.of_key (h : s.Intents) {key : IntentKey} (ho : o ∈ s.orbits)
    (found : o.intentKey = some key) : o.kind = .orbit ∧ o.intent = key := by
  by_cases kind : o.kind = .orbit
  · exact ⟨kind, Option.some.inj ((h.intent o ho kind).symm.trans found)⟩
  · rw [h.other o ho kind] at found
    cases found

/-- No row of an intent lives where none is found. -/
theorem Store.Intents.none_live (h : s.Intents) {key : IntentKey}
    (free : ∀ r, s.orbitByIntent key = some r → r.agentId ≠ key.agent) (ho : o ∈ s.orbits)
    (kind : o.kind = .orbit) (same : o.intent = key) : o.live = false := by
  by_contra lives
  rw [Bool.not_eq_false] at lives
  cases found : s.orbitByIntent key with
  | none =>
      have none := List.find?_eq_none.mp found o ho
      refine none ?_
      simp only [Bool.and_eq_true, decide_eq_true_eq]
      exact ⟨same ▸ h.intent o ho kind, lives⟩
  | some r =>
      obtain ⟨hr, key', -⟩ := orbitByIntent_spec found
      refine free r found ?_
      rw [← (h.of_key hr key').2]
      rfl

/-! ## One change -/

theorem Micro.seq (h : Micro c E s s') : s.seq ≤ s'.seq := by
  cases h with
  | frame frame | enroll _ _ _ _ frame | agent _ _ _ _ frame | orbit _ _ _ _ _ _ frame
  | insert _ _ _ _ _ _ _ _ frame | reject _ _ _ _ frame | summary _ _ _ frame | task _ _ _ frame
  | declare _ _ frame | publish _ _ _ frame | request _ frame | waiters _ frame
  | slots _ _ _ _ frame | flags _ frame | arm _ _ _ _ _ _ _ _ frame | trip _ _ _ frame
  | stamp _ frame | archiveTasks _ _ _ _ frame | archiveOrbits _ _ _ frame => exact frame.seq

/-- A row was one before, and a live one was live, or it is new and has the next ticket. -/
theorem Micro.row_back (h : Micro c E s s') (ok : s.Ok) (ho' : o' ∈ s'.orbits) :
    (∃ o ∈ s.orbits, o.SameRow o' ∧ (o'.live = true → o.live = true)) ∨
      NewRow c s o' ∧ o'.orbitId = s.uuid ∧ (o'.kind = .orbit → s'.seq = s.seq + 1) := by
  rcases (h.orbits ok).back ho' with ⟨o, ho, step⟩ | ⟨row, new⟩
  · exact Or.inl ⟨o, ho, step.row, step.change.live⟩
  · refine Or.inr ⟨row, new, fun kind => ?_⟩
    have absent : ∀ o ∈ s.orbits, o.orbitId ≠ s.uuid := fun o ho => (ok.fresh o ho).ne
    cases h.orbits ok with
    | kept back =>
        obtain ⟨o, ho, same⟩ := back o' ho'
        exact absurd (same.sameRow.orbitId.symm.trans new) (absent o ho)
    | changed o o₁ mem step rows =>
        rcases (rows o').mp ho' with ⟨ho, -⟩ | rfl
        · exact absurd new (absent o' ho)
        · exact absurd (step.row.orbitId.symm.trans new) (absent o mem)
    | added o _ id _ rows ticket =>
        rcases (rows o').mp ho' with ho | rfl
        · exact absurd new (absent o' ho)
        · exact ticket kind

theorem NewRow.claimed (h : NewRow c s o) (kind : o.kind = .orbit) : Claimed c s o := by
  cases h with
  | held claimed | queued claimed => exact claimed
  | permit other | lease other | token other =>
      rw [other] at kind
      cases kind

theorem NewRow.intent_none (h : NewRow c s o) (kind : o.kind ≠ .orbit) : o.intentKey = none := by
  cases h with
  | held claimed | queued claimed => exact absurd claimed.kind kind
  | permit _ _ _ _ _ none => exact none
  | lease _ _ _ _ none => exact none
  | token _ _ _ _ _ _ none => exact none

theorem Store.Intents.micro (h : s.Intents) (ok : s.Ok) (step : Micro c E s s') :
    s'.Intents where
  intent := by
    intro o' ho' kind
    rcases step.row_back ok ho' with ⟨o, ho, same, -⟩ | ⟨row, -⟩
    · rw [same.intentKey, same.intent]
      exact h.intent o ho (same.kind ▸ kind)
    · exact (row.claimed kind).intent
  paths := by
    intro o' ho' kind
    rcases step.row_back ok ho' with ⟨o, ho, same, -⟩ | ⟨row, -⟩
    · rw [same.pathspec]
      exact h.paths o ho (same.kind ▸ kind)
    · exact (row.claimed kind).paths
  other := by
    intro o' ho' kind
    rcases step.row_back ok ho' with ⟨o, ho, same, -⟩ | ⟨row, -⟩
    · rw [same.intentKey]
      exact h.other o ho (same.kind ▸ kind)
    · exact row.intent_none kind
  single := by
    -- a new row has an intent of which no row lives
    have fresh : ∀ {o' p : Orbit}, NewRow c s o' → o'.kind = .orbit → p ∈ s.orbits →
        p.kind = .orbit → p.live = true → p.intent ≠ o'.intent := by
      intro o' p row kind hp kind' live same
      rw [h.none_live (row.claimed kind).alone hp kind' same] at live
      cases live
    intro o' ho' p' hp' kind kind' live live' same
    rcases step.row_back ok ho' with ⟨o, ho, row, lived⟩ | ⟨row, new, -⟩
    · rcases step.row_back ok hp' with ⟨p, hp, row', lived'⟩ | ⟨row', -⟩
      · rw [row.intent, row'.intent] at same
        have eq := h.single o ho p hp (row.kind ▸ kind) (row'.kind ▸ kind') (lived live)
          (lived' live') same
        refine (ok.micro step).orbit_eq ho' hp' ?_
        rw [row.orbitId, row'.orbitId, eq]
      · rw [row.intent] at same
        exact absurd same (fresh row' kind' ho (row.kind ▸ kind) (lived live))
    · rcases step.row_back ok hp' with ⟨p, hp, row', lived'⟩ | ⟨-, new', -⟩
      · rw [row'.intent] at same
        exact absurd same.symm (fresh row kind hp (row'.kind ▸ kind') (lived' live'))
      · exact (ok.micro step).orbit_eq ho' hp' (new.trans new'.symm)
  ticket := by
    intro o' ho' kind t ticket
    rcases step.row_back ok ho' with ⟨o, ho, same, -⟩ | ⟨row, -, next⟩
    · rw [same.queueSeq] at ticket
      exact (h.ticket o ho (same.kind ▸ kind) t ticket).trans step.seq
    · rw [(row.claimed kind).ticket] at ticket
      cases ticket
      rw [next kind]

theorem Store.Intents.empty : ({} : Store).Intents := by
  constructor <;> intro o ho <;> cases ho

/-- A sweep keeps the intents. -/
theorem Store.Intents.moves (h : s.Intents) (ok : s.Ok) (run : Moves c s s') : s'.Intents := by
  refine (Moves.invariant (I := Store.Intents) (fun s₁ s₂ ok₁ ih move => ?_) run ok h).2
  exact move.invariant (fun _ _ _ _ _ ok₂ ih step => ih.micro ok₂ step) ok₁ ih

/-- The path orbits are known by their intents in every reachable state. -/
theorem ReachableBy.intents {σ : Sys} {P : Sys → Env × Action → Prop}
    (h : ReachableBy cfg P σ) : σ.store.Intents :=
  Sys.Ok.empty.run_invariant (I := Store.Intents) (fun _ _ _ _ ok ih step => ih.micro ok step) h
    .empty

end Omd
