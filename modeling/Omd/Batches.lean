import Omd.Gates

/-!
# The batch of a begin

A request that was answered is answered again, whatever became of its row: a begin that is
repeated goes on with a member that is no longer held.  And the preflight looks for the intent
before the paths are normalised, so that it misses a row that waits.
-/

namespace Omd

open Lib

variable {cfg : Cfg} {now : Time} {s s' : Store} {b : BeginArgs} {spec : Spec}

/-- The members of a batch that were claimed. -/
structure AcquiresAll (cfg : Cfg) (b : BeginArgs) (specs : List Spec) (claims : List Acquired)
    (s s' : Store) : Prop where
  rows : ∀ o ∈ s.orbits, ∃ o' ∈ s'.orbits, o.AtMostDenied o'
  forth : ∀ o ∈ s.orbits, o.state = .HELD → o ∈ s'.orbits
  back : ∀ o ∈ s'.orbits, o.state = .HELD → o ∈ s.orbits ∨
    ∃ spec ∈ specs, b.Member spec o ∧ ¬ b.AnsweredHeld cfg s spec
  held : ∀ spec ∈ specs, (claims.any fun c => c.mode = spec.mode) = false →
    b.AnsweredHeld cfg s spec ∨ b.Holds s' spec

theorem rid_ne {x y : String} (ne : x ≠ y) {id : RequestId} (h : b.rid x = some id) :
    b.rid y ≠ some id := by
  intro h'
  rw [BeginArgs.rid] at h h'
  split at h
  · cases h
  · rename_i request
    rw [request] at h'
    split at h
    · cases h
    · dsimp only at h'
      rename_i nonempty
      rw [if_neg nonempty] at h'
      have same := Option.some.inj (h.trans h'.symm)
      exact ne ((String.append_right_inj _).mp same)

theorem beginAcquire_spec {specs : List Spec} {claims held : List Acquired} (ok : s.Ok)
    (intents : s.Intents)
    (apart : specs.Pairwise fun x y => x.mode ≠ y.mode ∧ x.suffix ≠ y.suffix)
    (h : beginAcquire cfg now b specs s claims = .ok (.inr (s', held))) :
    AcquiresAll cfg b specs claims s s' := by
  induction specs generalizing s claims with
  | nil =>
      cases h
      exact ⟨fun o ho => ⟨o, ho, .refl o⟩, fun _ ho _ => ho, fun _ ho _ => Or.inl ho, by simp⟩
  | cons spec specs ih =>
      rw [List.pairwise_cons] at apart
      rw [beginAcquire] at h
      split at h
      · rename_i own
        have rest := ih ok intents apart.2 h
        refine ⟨rest.rows, rest.forth, fun o ho state => ?_, fun spec' hspec' absent => ?_⟩
        · rcases rest.back o ho state with ho | ⟨spec', hspec', new⟩
          · exact Or.inl ho
          · exact Or.inr ⟨spec', List.mem_cons_of_mem _ hspec', new⟩
        · rcases List.mem_cons.mp hspec' with rfl | hspec'
          · rw [own] at absent
            cases absent
          · exact rest.held spec' hspec' absent
      · rw [Outcome.bind_eq_ok] at h
        obtain ⟨⟨s₁, r₁⟩, h₁, h⟩ := h
        dsimp only at h
        split at h
        · rename_i id positive _
          have takes : Takes ⟨cfg, now, fun _ => True⟩ s s₁ :=
            batchClaim_takes trivial trivial (fun _ _ _ => trivial)
              (fun _ _ _ _ _ _ _ => trivial) h₁
          have ok₁ := ok.moves (takes ok)
          have first := claim_held ok intents h₁ positive
          have rest := ih ok₁ (intents.moves ok (takes ok)) apart.2 h
          have answered : ∀ spec' ∈ specs,
              (b.AnsweredHeld cfg s₁ spec' ↔ b.AnsweredHeld cfg s spec') := by
            intro spec' hspec'
            refine AnsweredHeld_congr ok ok₁ fun row asked => first.spares.requests row ?_
            exact rid_ne (apart.1 spec' hspec').2.symm asked
          refine ⟨fun o ho => ?_, fun o ho state => rest.forth o (first.forth o ho state) state,
            fun o ho state => ?_, fun spec' hspec' absent => ?_⟩
          · obtain ⟨o₁, ho₁, step⟩ := first.spares.rows o ho
            obtain ⟨o', ho', step'⟩ := rest.rows o₁ ho₁
            exact ⟨o', ho', step.trans step'⟩
          · rcases rest.back o ho state with ho | ⟨spec', hspec', member, new⟩
            · rcases first.back o ho state with ho | new
              · exact Or.inl ho
              · exact Or.inr ⟨spec, List.mem_cons_self, new⟩
            · exact Or.inr ⟨spec', List.mem_cons_of_mem _ hspec', member,
                fun old => new ((answered spec' hspec').mpr old)⟩
          · rcases List.mem_cons.mp hspec' with rfl | hspec'
            · refine first.held.imp_right ?_
              rintro ⟨o, ho, member, state⟩
              exact ⟨o, rest.forth o ho state, member, state⟩
            · rw [← answered spec' hspec']
              refine rest.held spec' hspec' ?_
              rw [List.any_append, absent]
              simpa using (apart.1 spec' hspec').1
        · cases h

theorem specs_apart (b : BeginArgs) :
    b.specs.Pairwise fun x y => x.mode ≠ y.mode ∧ x.suffix ≠ y.suffix := by
  rw [BeginArgs.specs, List.pairwise_append]
  refine ⟨?_, ?_, ?_⟩
  · split <;> simp
  · split <;> simp
  · intro x hx y hy
    split at hx
    · cases hx
    split at hy
    · cases hy
    rw [List.mem_singleton] at hx hy
    subst hx
    subst hy
    simp

theorem specs_eq (b : BeginArgs) {x y : Spec} (hx : x ∈ b.specs) (hy : y ∈ b.specs)
    (mode : x.mode = y.mode) : x = y := by
  by_contra ne
  have apart : Std.Symm fun x y : Spec => x.mode ≠ y.mode ∧ x.suffix ≠ y.suffix :=
    ⟨fun _ _ h => ⟨h.1.symm, h.2.symm⟩⟩
  exact ((specs_apart b).forall hx hy ne).1 mode

/-- The preflight of the batch found each member held, or free to be granted. -/
def BeginArgs.Preflighted (b : BeginArgs) (cfg : Cfg) (now : Time) (s : Store) (legacy : Bool)
    (held : List Acquired) : Prop :=
  (legacy = true → b.legacyResumeLive cfg s = true) ∧
    beginPreflight cfg now s b b.specs 1 [] = .ok (.inr held)

/-- The batch of a begin that swept into `s` and ended in `s'`. -/
structure AllOrNone (cfg : Cfg) (now : Time) (b : BeginArgs) (legacy : Bool) (s s' : Store)
    (r : Reply ⊕ List Acquired) : Prop where
  all : ∀ claims, r = .inr claims → ∀ spec ∈ b.specs, b.Holds s' spec
  none : ∀ reply, r = .inl reply → reply.ok = some false ∧ s.SameHeld s' ∧
    s'.fence = s.fence ∧ (s'.orbits = s.orbits ∨
      ∃ o, (o.state = .PENDING ∨ o.state = .DENIED) ∧ s'.orbits = s.orbits ++ [o])
  settled : ∀ held, b.Preflighted cfg now s legacy held → ∀ spec ∈ b.specs, ¬ b.Waits s' spec

/-- A row of a member that waited is denied. -/
def BeginArgs.Displaced (b : BeginArgs) (s s' : Store) : Prop :=
  ∃ spec ∈ b.specs, ∃ o ∈ s.orbits, b.Member spec o ∧ o.state = .PENDING ∧
    ∃ o' ∈ s'.orbits, o.SameRow o' ∧ o'.state = .DENIED

/-- What a batch asks of the store it swept: no member waits already, under whatever spelling of its
paths, and no member is answered as held by its receipt alone, unless a member is refused. -/
structure BatchSound (cfg : Cfg) (b : BeginArgs) (s : Store) : Prop where
  waits : ∀ spec ∈ b.specs, ¬ b.Waits s spec
  answers : (∀ spec ∈ b.specs, b.ownIntent s spec = none → b.Granted cfg s spec) →
    ∀ spec ∈ b.specs, b.ownIntent s spec = none → b.AnsweredHeld cfg s spec → b.Holds s spec

/-! ## The acquisition -/

/-- The first member is passed by, or it is claimed. -/
theorem beginAcquire_cons {specs : List Spec} {claims : List Acquired}
    {out : Reply ⊕ (Store × List Acquired)}
    (h : beginAcquire cfg now b (spec :: specs) s claims = .ok out) :
    (claims.any fun c => c.mode = spec.mode) = true ∧
        beginAcquire cfg now b specs s claims = .ok out ∨
      (claims.any fun c => c.mode = spec.mode) = false ∧ ∃ s₁ r,
        claim cfg now s (b.claimArgs spec) (some now) = .ok (s₁, r) ∧
          (¬ r.Positive ∧ out.isRight = false ∨ r.Positive ∧ ∃ c, c.mode = spec.mode ∧
            beginAcquire cfg now b specs s₁ (claims ++ [c]) = .ok out) := by
  rw [beginAcquire] at h
  split at h
  · rename_i known
    exact Or.inl ⟨known, h⟩
  rename_i absent
  rw [Bool.not_eq_true] at absent
  rw [Outcome.bind_eq_ok] at h
  obtain ⟨⟨s₁, r⟩, h₁, h⟩ := h
  refine Or.inr ⟨absent, s₁, r, h₁, ?_⟩
  dsimp only at h
  split at h
  · rename_i id state named
    exact Or.inr ⟨⟨state, by simp [named]⟩, _, rfl, h⟩
  · rename_i other
    cases h
    refine Or.inl ⟨fun positive => ?_, rfl⟩
    obtain ⟨id, named⟩ := Option.ne_none_iff_exists'.mp positive.orbitId
    exact other id positive.state named

theorem specs_write {x : Spec} (hx : x ∈ b.specs) : x.mode ≠ .read := by
  rw [BeginArgs.specs, List.mem_append] at hx
  rcases hx with hx | hx
  · split at hx
    · cases hx
    · rw [List.mem_singleton.mp hx]
      simp
  · split at hx
    · cases hx
    · rw [List.mem_singleton.mp hx]
      simp

/-- A batch has a member, two, or none. -/
theorem specs_cases (b : BeginArgs) :
    b.specs = [] ∨ (∃ x, b.specs = [x]) ∨ ∃ x y, b.specs = [x, y] := by
  rw [BeginArgs.specs]
  by_cases writes : b.writes = [] <;> by_cases shared : b.shared = [] <;> simp [writes, shared]

/-- The last member is passed by, or its claim decides. -/
theorem beginAcquire_last {claims : List Acquired} {out : Reply ⊕ (Store × List Acquired)}
    {G : Prop}
    (h : beginAcquire cfg now b [spec] s claims = .ok out)
    (answer : (claims.any fun c => c.mode = spec.mode) = false → ∀ s₁ r,
      claim cfg now s (b.claimArgs spec) (some now) = .ok (s₁, r) → (r.Positive ↔ G)) :
    out.isRight = true ↔ ((claims.any fun c => c.mode = spec.mode) = false → G) := by
  rcases beginAcquire_cons h with ⟨known, h⟩ | ⟨absent, s₁, r, claimed, ⟨no, left⟩ | ⟨yes, c, -, h⟩⟩
  · cases h
    exact iff_of_true rfl fun absent => by simp [known] at absent
  · rw [left]
    refine iff_of_false (by simp) fun granted => no ?_
    exact (answer absent s₁ r claimed).mpr (granted absent)
  · cases h
    exact iff_of_true rfl fun _ => (answer absent s₁ r claimed).mp yes

theorem claim_answered {r : Reply} (answered : b.AnsweredHeld cfg s spec)
    (h : claim cfg now s (b.claimArgs spec) (some now) = .ok (s', r)) : s' = s := by
  obtain ⟨c, id, reply, valid, answer, -⟩ := answered
  rw [claim] at h
  split at h
  · cases h
  rw [valid] at h
  exact claimSection_answered answer h

/-- The claim of another member that is held leaves the answer of a member as it is. -/
theorem positive_congr {x : Spec} {s₁ s₂ : Store} {r r₁ : Reply} (ok : s.Ok) (intents : s.Intents)
    (writes : spec.mode ≠ .read) (apart : spec.suffix ≠ x.suffix)
    (answered : b.AnsweredHeld cfg s x)
    (h : claim cfg now s (b.claimArgs spec) (some now) = .ok (s₁, r₁)) (held : r₁.Positive)
    (h₁ : claim cfg now s₁ (b.claimArgs x) (some now) = .ok (s₂, r)) :
    r.Positive ↔ b.Granted cfg s x := by
  have takes : Moves ⟨cfg, now, fun _ => True⟩ s s₁ :=
    batchClaim_takes trivial trivial (fun _ _ _ => trivial) (fun _ _ _ _ _ _ _ => trivial) h ok
  have ok₁ := ok.moves takes
  have first := claim_held ok intents h held.state
  have other (id : RequestId) (asked : b.rid x.suffix = some id) :
      b.rid spec.suffix ≠ none ∧ b.rid spec.suffix ≠ some id := by
    refine ⟨fun none => ?_, rid_ne apart.symm asked⟩
    rw [BeginArgs.rid] at none asked
    cases request : b.requestId with
    | none => simp [request] at asked
    | some own =>
        rw [request] at none asked
        by_cases empty : own = "" <;> simp [empty] at none asked
  have again : b.AnsweredHeld cfg s₁ x :=
    (AnsweredHeld_congr ok ok₁ fun row asked => first.spares.requests row (other _ asked).2).mpr
      answered
  rw [claim_positive ok₁.drawn (intents.moves ok takes) (fun c valid unanswered => ?_) h₁]
  · exact granted_congr ok ok₁ first.spares writes other answered
  · obtain ⟨c', id, reply, valid', answer, -⟩ := again
    cases valid.symm.trans valid'
    obtain ⟨prior, found, done, -⟩ := answer.row
    refine absurd done (unanswered prior ?_)
    rw [ClaimArgs.receipt, answer.request, Option.bind_some, found]

/-- With a member that was answered, a batch is acquired exactly if no claim is refused. -/
theorem beginAcquire_iff {held : List Acquired} {out : Reply ⊕ (Store × List Acquired)}
    {legacy : Bool} (ok : s.Ok) (intents : s.Intents) (clear : b.Clear cfg now s legacy)
    (known : ∀ spec ∈ b.specs, (held.any fun c => c.mode = spec.mode) = false ↔
      b.ownIntent s spec = none)
    {x : Spec} (hx : x ∈ b.specs) (answered : b.AnsweredHeld cfg s x)
    (h : beginAcquire cfg now b b.specs s held = .ok out) :
    out.isRight = true ↔ ∀ spec ∈ b.specs, b.ownIntent s spec = none → b.Granted cfg s spec := by
  have positive {spec : Spec} (hspec : spec ∈ b.specs)
      (absent : (held.any fun c => c.mode = spec.mode) = false) (s₁ : Store) (r : Reply)
      (claimed : claim cfg now s (b.claimArgs spec) (some now) = .ok (s₁, r)) :
      r.Positive ↔ b.Granted cfg s spec :=
    claim_positive ok.drawn intents
      (fun c valid _ => clear.decided hspec ((known spec hspec).mp absent) valid) claimed
  have apart := specs_apart b
  have writes : ∀ spec ∈ b.specs, spec.mode ≠ .read := fun spec hspec => specs_write hspec
  rcases specs_cases b with none | ⟨y, one⟩ | ⟨y, z, two⟩
  · rw [none] at hx
    cases hx
  · rw [one] at h positive known ⊢
    have hy : y ∈ [y] := List.mem_singleton_self y
    rw [beginAcquire_last h (positive hy), known y hy]
    simp
  · rw [two] at h hx positive known apart writes ⊢
    have hy : y ∈ [y, z] := List.mem_cons_self
    have hz : z ∈ [y, z] := by simp
    have ne : y.mode ≠ z.mode ∧ y.suffix ≠ z.suffix := by simpa using apart
    have all (G : Spec → Prop) : (∀ spec ∈ [y, z], b.ownIntent s spec = none → G spec) ↔
        ((held.any fun c => c.mode = y.mode) = false → G y) ∧
          ((held.any fun c => c.mode = z.mode) = false → G z) := by
      rw [known y hy, known z hz]
      simp
    rw [all]
    rcases beginAcquire_cons h with ⟨present, h⟩ | ⟨absent, s₁, r, claimed, answer⟩
    · rw [beginAcquire_last h (positive hz)]
      simp [present]
    rcases answer with ⟨no, left⟩ | ⟨yes, c, mode, h⟩
    · rw [left]
      refine iff_of_false (by simp) fun granted => no ?_
      exact (positive hy absent s₁ r claimed).mpr (granted.1 absent)
    · have skips : ((held ++ [c]).any fun c => c.mode = z.mode) =
          held.any fun c => c.mode = z.mode := by
        simp [mode, ne.1]
      have last : ((held ++ [c]).any fun c => c.mode = z.mode) = false → ∀ s₂ r₂,
          claim cfg now s₁ (b.claimArgs z) (some now) = .ok (s₂, r₂) →
            (r₂.Positive ↔ b.Granted cfg s z) := by
        intro absent' s₂ r₂ claimed'
        rw [skips] at absent'
        rcases List.mem_cons.mp hx with rfl | hx
        · -- the first member is answered, and changes nothing
          have same := claim_answered answered claimed
          subst same
          exact positive hz absent' s₂ r₂ claimed'
        · cases List.mem_singleton.mp hx
          exact positive_congr ok intents (writes y hy) ne.2 answered claimed yes claimed'
      rw [beginAcquire_last h last, skips]
      have granted := (positive hy absent s₁ r claimed).mp yes
      simp [granted]

/-- A batch whose preflight stops is none at all. -/
theorem allOrNone_of_stops {legacy : Bool} {reply : Reply} (ok : s.Ok) (intents : s.Intents)
    (h : beginPreflight cfg now s b b.specs 1 [] = .ok (.inl (s', reply))) :
    AllOrNone cfg now b legacy s s' (.inl reply) := by
  refine ⟨nofun, fun r hr => ?_, fun held passed => ?_⟩
  · cases hr
    exact beginPreflight_stops ok intents (by omega) h
  · cases h.symm.trans passed.2

/-- The members that a batch acquired are held exactly if those that were answered are. -/
theorem holds_iff_of_acquires {held : List Acquired}
    (passed : beginPreflight cfg now s b b.specs 1 [] = .ok (.inr held)) (intents : s.Intents)
    (acquires : AcquiresAll cfg b b.specs held s s') :
    (∀ spec ∈ b.specs, b.Holds s' spec) ↔ ∀ spec ∈ b.specs, b.ownIntent s spec = none →
      b.AnsweredHeld cfg s spec → b.Holds s spec := by
  obtain ⟨found, modes⟩ := beginPreflight_passes passed
  have keeps (spec : Spec) (holds : b.Holds s spec) : b.Holds s' spec := by
    obtain ⟨o, ho, member, state⟩ := holds
    exact ⟨o, acquires.forth o ho state, member, state⟩
  constructor
  · intro all spec hspec _ answered
    obtain ⟨o, ho, member, state⟩ := all spec hspec
    rcases acquires.back o ho state with ho | ⟨spec', hspec', member', new⟩
    · exact ⟨o, ho, member, state⟩
    · cases specs_eq b hspec hspec' (member.mode.symm.trans member'.mode)
      exact absurd answered new
  · intro sound spec hspec
    cases own : b.ownIntent s spec with
    | some dup =>
        obtain ⟨mem, member⟩ := member_of_ownIntent intents own
        exact keeps spec ⟨dup, mem, member, found spec hspec dup own⟩
    | none =>
        have absent : (held.any fun c => c.mode = spec.mode) = false := by
          by_contra present
          rw [Bool.not_eq_false, modes spec.mode] at present
          rcases present with present | ⟨spec', hspec', mode, known⟩
          · cases present
          · cases specs_eq b hspec' hspec mode
            exact known own
        rcases acquires.held spec hspec absent with answered | holds
        · exact keeps spec (sound spec hspec own answered)
        · exact holds

theorem clear_iff {legacy : Bool} :
    (∃ held, b.Preflighted cfg now s legacy held) ↔ b.Clear cfg now s legacy := by
  have pass : (∃ held, beginPreflight cfg now s b b.specs ((1 : ℕ) : ℤ) [] = .ok (.inr held)) ↔
      ∀ m ∈ b.specs.zipIdx 1, b.ClearAt cfg now s m.1 m.2 := beginPreflight_iff
  rw [Nat.cast_one] at pass
  constructor
  · rintro ⟨held, resumes, h⟩
    exact ⟨resumes, pass.mp ⟨held, h⟩⟩
  · intro clear
    obtain ⟨held, h⟩ := pass.mpr clear.members
    exact ⟨held, clear.resumes, h⟩

/-- Where the rows stay none is denied. -/
theorem not_displaced_of_kept (ok : s'.Ok) (kept : ∀ o ∈ s.orbits, o ∈ s'.orbits) :
    ¬ b.Displaced s s' := by
  rintro ⟨spec, -, o, ho, -, waits, o', ho', row, denied⟩
  rw [ok.orbit_eq ho' (kept o ho) row.orbitId, waits] at denied
  cases denied

/-- A member that waits and is held in the end has lost the row that waited. -/
theorem AcquiresAll.waits {claims : List Acquired} (h : AcquiresAll cfg b b.specs claims s s')
    (intents : s'.Intents) (all : ∀ spec ∈ b.specs, b.Holds s' spec) (kept : ¬ b.Displaced s s') :
    ∀ spec ∈ b.specs, ¬ b.Waits s spec := by
  rintro spec hspec ⟨o, ho, member, waits⟩
  obtain ⟨o', ho', step⟩ := h.rows o ho
  rcases step.state with rfl | ⟨-, denied⟩
  · exact not_waits_of_holds intents (all spec hspec) ⟨o', ho', member, waits⟩
  · exact kept ⟨spec, hspec, o, ho, member, waits, o', ho', step.row, denied⟩

/-- A batch that commits is all or none, and denies no row that waits, exactly if its preflight
stops or it is sound. -/
theorem allOrNone_iff {legacy : Bool} {r : Reply ⊕ List Acquired} {s₀ : Store} (ok : s₀.Ok)
    (intents : s₀.Intents) (ok' : s'.Ok) (intents' : s'.Intents)
    (swept : sweepInline cfg now s = .ok s₀) (h : beginBatch cfg now s b legacy = .ok (s', r)) :
    AllOrNone cfg now b legacy s₀ s' r ∧ ¬ b.Displaced s₀ s' ↔
      (b.Clear cfg now s₀ legacy → BatchSound cfg b s₀) := by
  rw [beginBatch, Outcome.bind_eq_ok] at h
  obtain ⟨s₁, h₁, h⟩ := h
  have same : s₁ = s₀ := Except.ok.inj (h₁.symm.trans swept)
  subst same
  split at h
  · rename_i resumes
    have stops : ¬ b.Clear cfg now s₁ legacy := by
      intro clear
      rw [clear.resumes resumes.1] at resumes
      cases resumes.2
    cases h
    refine iff_of_true ⟨⟨fun _ h => ?_, fun reply h => ?_, fun held passed => ?_⟩, ?_⟩
      fun clear => absurd clear stops
    · cases h
    · cases h
      exact ⟨rfl, .of_orbits rfl, rfl, Or.inl rfl⟩
    · exact absurd (clear_iff.mp ⟨held, passed⟩) stops
    · exact not_displaced_of_kept ok' fun o ho => ho
  rename_i lives
  have live : legacy = true → b.legacyResumeLive cfg s₁ = true := by
    intro legacy
    by_contra dead
    exact lives ⟨legacy, by simpa using dead⟩
  rw [Outcome.bind_eq_ok] at h
  obtain ⟨pre, hpre, h⟩ := h
  cases pre with
  | inl stopped =>
      cases h
      have stops : ¬ b.Clear cfg now s₁ legacy := by
        intro clear
        obtain ⟨held, passed⟩ := clear_iff.mpr clear
        cases hpre.symm.trans passed.2
      refine iff_of_true ⟨allOrNone_of_stops ok intents hpre, ?_⟩ fun clear => absurd clear stops
      refine not_displaced_of_kept ok' fun o ho => ?_
      rcases (beginPreflight_stops ok intents (by omega) hpre).2.2.2 with rows | ⟨new, -, rows⟩
      · exact rows ▸ ho
      · rw [rows]
        exact List.mem_append_left _ ho
  | inr held =>
      dsimp only at h
      rw [Outcome.bind_eq_ok] at h
      obtain ⟨acquired, hacquire, h⟩ := h
      have passed : b.Preflighted cfg now s₁ legacy held := ⟨live, hpre⟩
      have clear : b.Clear cfg now s₁ legacy := clear_iff.mp ⟨held, passed⟩
      have known (spec : Spec) (hspec : spec ∈ b.specs) :
          (held.any fun c => c.mode = spec.mode) = false ↔ b.ownIntent s₁ spec = none := by
        rw [← Bool.not_eq_true, (beginPreflight_passes hpre).2 spec.mode]
        simp only [List.any_nil, Bool.false_eq_true, false_or, not_exists, not_and, not_not]
        constructor
        · intro none
          exact none spec hspec rfl
        · intro own spec' hspec' mode
          exact specs_eq b hspec' hspec mode ▸ own
      rw [imp_iff_right clear]
      cases acquired with
      | inl reply =>
          cases h
          constructor
          · rintro ⟨sound, -⟩
            refine ⟨sound.settled held passed, fun granted spec hspec own answered => ?_⟩
            have acquires := (beginAcquire_iff ok intents clear known hspec answered hacquire).mpr
              granted
            cases acquires
          · intro sound
            refine ⟨⟨fun _ h => ?_, fun _ h => ?_, fun _ _ => sound.waits⟩, ?_⟩
            · cases h
            · cases h
              exact ⟨beginAcquire_refuses hacquire, .of_orbits rfl, rfl, Or.inl rfl⟩
            · exact not_displaced_of_kept ok' fun o ho => ho
      | inr left =>
          cases h
          have acquires := beginAcquire_spec ok intents (specs_apart b) hacquire
          have holds := holds_iff_of_acquires hpre intents acquires
          constructor
          · rintro ⟨sound, kept⟩
            have all := sound.all _ rfl
            exact ⟨acquires.waits intents' all kept, fun _ => holds.mp all⟩
          · intro sound
            have all := holds.mpr fun spec hspec own answered =>
              sound.answers
                ((beginAcquire_iff ok intents clear known hspec answered hacquire).mp rfl)
                spec hspec own answered
            refine ⟨⟨fun _ _ => all, fun _ h => ?_, fun _ _ spec hspec => ?_⟩, ?_⟩
            · cases h
            · exact not_waits_of_holds intents' (all spec hspec)
            · rintro ⟨spec, hspec, o, ho, member, waits, -⟩
              exact sound.waits spec hspec ⟨o, ho, member, waits⟩

/-! ## The runs -/

/-- In any run, a batch of `begin` that commits is all or none, and denies no row that waited for
one of its members, exactly if the store that it swept stops its preflight or is sound. -/
theorem beginBatch_allOrNone_iff {σ : Sys} (reach : Reachable cfg σ) {legacy : Bool}
    {r : Reply ⊕ List Acquired} (h : beginBatch cfg now σ.store b legacy = .ok (s', r)) :
    ∃ s₀, sweepInline cfg now σ.store = .ok s₀ ∧
      (AllOrNone cfg now b legacy s₀ s' r ∧ ¬ b.Displaced s₀ s' ↔
        (b.Clear cfg now s₀ legacy → BatchSound cfg b s₀)) := by
  have ok := reach.ok.store
  have intents := ReachableBy.intents reach
  have free : Collecting fun _ => True := ⟨trivial, fun _ => trivial⟩
  have batch : Phases cfg now (fun _ => True) (fun _ => True) σ.store s' :=
    beginBatch_phases trivial trivial trivial free (fun _ _ => trivial) (fun _ _ _ => trivial)
      (fun _ _ _ _ _ _ _ => trivial) h ok
  have opened := h
  rw [beginBatch, Outcome.bind_eq_ok] at opened
  obtain ⟨s₀, swept, -⟩ := opened
  have sweep : Moves ⟨cfg, now, fun _ => True⟩ σ.store s₀ :=
    sweepInline_takes trivial free (fun _ _ => trivial) swept ok
  obtain ⟨s₁, first, second⟩ := batch
  have ok₁ := ok.moves first
  have intents' := (intents.moves ok first).moves ok₁ second
  exact ⟨s₀, swept, allOrNone_iff (ok.moves sweep) (intents.moves ok sweep) (ok₁.moves second)
    intents' swept h⟩

/-- A begin of one task over a path to write and one to share, with a request. -/
def pairBegin : BeginArgs :=
  { taskId := "T", agentId := "A", writes := ["a"], shared := ["b"], requestId := some "r" }

/-- Another agent shares a path of the batch, and has released a row over the other one. -/
def sharedBatch : List (Env × Action) :=
  [ (Action.call (.claim { agentId := "B", pathspec := ["b"], mode := .shared })).at 1,
    (Action.call (.claim { agentId := "B", pathspec := ["a"] })).at 1,
    (Action.call (.release 1 "B" (some 2) none none)).at 2,
    (Action.begin pairBegin).at 3, (Action.resume 0 {}).at 3, (Action.resume 0 {}).at 3 ]

/-- Both members of a batch are acquired. -/
theorem beginBatch_allOrNone_iff_pair :
    ∃ σ, Reachable {} σ ∧ ∃ s' r, beginBatch {} 3 σ.store pairBegin false = .ok (s', r) ∧
      r.isRight = true ∧ (s'.orbits.filter fun o => o.agentId = "A" ∧ o.state = .HELD).length = 2 ∧
        ∃ s₀, sweepInline {} 3 σ.store = .ok s₀ ∧
          (AllOrNone {} 3 pairBegin false s₀ s' r ∧ ¬ pairBegin.Displaced s₀ s' ↔
            (pairBegin.Clear {} 3 s₀ false → BatchSound {} pairBegin s₀)) := by
  obtain ⟨σ, reach, acquired⟩ : ∃ σ, Reachable {} σ ∧
      ((beginBatch {} 3 σ.store pairBegin false).toOption.any fun left => left.2.isRight = true ∧
        (left.1.orbits.filter fun o => o.agentId = "A" ∧ o.state = .HELD).length = 2) = true :=
    exists_reachable sharedBatch (by decide +kernel)
  refine ⟨σ, reach, ?_⟩
  cases h : beginBatch {} 3 σ.store pairBegin false with
  | error e =>
      rw [h] at acquired
      cases acquired
  | ok left =>
      rw [h] at acquired
      obtain ⟨right, both⟩ := of_decide_eq_true acquired
      exact ⟨left.1, left.2, rfl, right, both, beginBatch_allOrNone_iff reach h⟩

/-- A begin of one task over one path, with a request. -/
def loneBegin : BeginArgs :=
  { taskId := "T", agentId := "A", writes := ["a"], requestId := some "r" }

/-- A begin that acquires its batch, and whose orbit is released then. -/
def releasedBatch : List (Env × Action) :=
  [ (Action.begin loneBegin).at 1,
    (Action.resume 0 {}).at 1, (Action.resume 0 {}).at 1, (Action.resume 0 {}).at 1,
    (Action.call (.release 0 "A" (some 1) none none)).at 2 ]

/-- The begin that is repeated goes on, and holds nothing. -/
theorem beginBatch_repeats :
    ∃ σ, Reachable {} σ ∧ ∃ s' r, beginBatch {} 3 σ.store loneBegin false = .ok (s', r) ∧
      ∀ s₀, sweepInline {} 3 σ.store = .ok s₀ → ¬ AllOrNone {} 3 loneBegin false s₀ s' r := by
  obtain ⟨σ, reach, repeats⟩ : ∃ σ, Reachable {} σ ∧
      (beginBatch {} 3 σ.store loneBegin false).toOption.any (fun left =>
        left.2.isRight && left.1.orbits.all fun o => o.state ≠ .HELD) = true :=
    exists_reachable releasedBatch (by decide +kernel)
  refine ⟨σ, reach, ?_⟩
  cases h : beginBatch {} 3 σ.store loneBegin false with
  | error e =>
      rw [h] at repeats
      cases repeats
  | ok left =>
      refine ⟨left.1, left.2, rfl, fun s₀ _ allOrNone => ?_⟩
      rw [h] at repeats
      simp only [Except.toOption, Option.any_some, Bool.and_eq_true, List.all_eq_true,
        decide_eq_true_eq] at repeats
      obtain ⟨claims, right⟩ := Sum.isRight_iff.mp repeats.1
      have member : (⟨.write, ["a"], "claim"⟩ : Spec) ∈ loneBegin.specs := by decide
      obtain ⟨o, ho, -, held⟩ := allOrNone.all claims right _ member
      exact repeats.2 o ho held

end Omd
