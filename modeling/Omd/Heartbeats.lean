import Omd.Retirement

/-!
# Heartbeats and the length of a lease

A heartbeat renews the leases and permits of its agent, each for as long as its deadline lies
after its creation.  The creation does not move, so a renewal that comes later than the
creation makes the next one longer by as much: what was granted for ten seconds is renewed for
more at every heartbeat from the second on, and outlives a producer that dies.

The deadline after a list of heartbeats is a fold over their times.  It keeps to what was
granted exactly if nothing but the last heartbeat comes after the creation of the row.
-/

namespace Omd

open Lib

variable {cfg : Cfg} {now : Time} {s s' : Store} {o : Orbit} {agent : AgentId}

/-! ## One heartbeat -/

/-- The window a heartbeat gives when a deadline does not lie after the creation. -/
def Cfg.defaultWindow (cfg : Cfg) : ℚ := cfg.agentTtl.getD 90

/-- For how long a heartbeat renews a row with this deadline. -/
def leaseWindow (cfg : Cfg) (created deadline : ℚ) : ℚ :=
  if created ≠ 0 ∧ 0 < deadline - created then deadline - created else cfg.defaultWindow

/-- The row as the heartbeat that finds `o` leaves it. -/
def Orbit.beaten (cfg : Cfg) (now : Time) (o r : Orbit) : Orbit :=
  match o.expiresAt with
  | none => r
  | some e => { r with expiresAt := some (now + leaseWindow cfg o.createdAt e) }

theorem Orbit.beaten_orbitId (o r : Orbit) : (o.beaten cfg now r).orbitId = r.orbitId := by
  rw [beaten]
  split <;> rfl

theorem heartbeatLease_eq (cfg : Cfg) (now : Time) (s : Store) (o : Orbit) :
    heartbeatLease cfg now s o =
      { s with orbits := Table.modify Orbit.orbitId o.orbitId (o.beaten cfg now) s.orbits } := by
  unfold heartbeatLease Orbit.beaten
  cases o.expiresAt with
  | none => simp [Table.modify]
  | some e => rfl

theorem heartbeatLeases_eq (xs : List Orbit) (s : Store) :
    xs.foldl (heartbeatLease cfg now) s =
      { s with orbits := xs.foldl (fun rows o =>
          Table.modify Orbit.orbitId o.orbitId (o.beaten cfg now) rows) s.orbits } := by
  induction xs generalizing s with
  | nil => rfl
  | cons o xs ih =>
      rw [List.foldl_cons, List.foldl_cons, ih, heartbeatLease_eq]

/-- The rows of one kind that an agent holds are renewed, each by itself. -/
theorem heartbeatLeases_orbits (ids : Table.Distinct Orbit.orbitId s.orbits) (kind : OrbitKind) :
    ((s.heldOfKindBy kind agent).foldl (heartbeatLease cfg now) s).orbits = s.orbits.map fun r =>
      if (r.agentId = agent && (r.kind = kind && r.state = .HELD)) = true then
        r.beaten cfg now r else r := by
  rw [heartbeatLeases_eq, Store.heldOfKindBy, Store.heldOfKind, List.filter_filter]
  exact ids.foldl_modify_filter _ fun w r => Orbit.beaten_orbitId w r

/-- A lease or a permit that its agent renews by a heartbeat. -/
structure Orbit.Bound (o : Orbit) : Prop where
  held : o.state = .HELD
  kind : o.kind = .flag_ephemeral ∨ o.kind = .sem_permit

/-- What a heartbeat needs to renew the row. -/
structure Store.Beats (s : Store) (o : Orbit) : Prop where
  ids : Table.Distinct Orbit.orbitId s.orbits
  mem : o ∈ s.orbits
  bound : o.Bound
  alive : s.Alive o.agentId

/-- The row with another deadline. -/
def Orbit.until (o : Orbit) (e : Time) : Orbit := { o with expiresAt := some e }

/-- A heartbeat of the owner renews its row. -/
theorem Store.Beats.heartbeat (h : s.Beats o) {e : Time} (deadline : o.expiresAt = some e)
    {ttl : Option ℚ} (valid : ∀ w, ttl = some w → 0 < w) :
    (heartbeat cfg now s o.agentId ttl).1.Beats
      (o.until (now + leaseWindow cfg o.createdAt e)) := by
  have beaten : o.beaten cfg now o = o.until (now + leaseWindow cfg o.createdAt e) := by
    rw [Orbit.beaten, deadline]
    rfl
  have accepted : (ttl.any fun t => t ≤ 0) = false := by
    cases ttl with
    | none => rfl
    | some w => simpa using valid w rfl
  have working : ((s.getAgent o.agentId).any fun a => a.state = .RETIRED) = false := by
    cases row : s.getAgent o.agentId with
    | none => rfl
    | some a => simpa using h.alive a (Table.mem_of_get row) (Table.key_of_get row)
  let s₁ := s.upsertAgent o.agentId now
  let s₂ := ttl.elim s₁ fun _ => s₁.setAgent o.agentId fun a => { a with livenessTtl := ttl }
  let s₃ := (s₂.heldOfKindBy .flag_ephemeral o.agentId).foldl (heartbeatLease cfg now) s₂
  let s₄ := (s₃.heldOfKindBy .sem_permit o.agentId).foldl (heartbeatLease cfg now) s₃
  have result : (Omd.heartbeat cfg now s o.agentId ttl).1 = s₄ := by
    rw [Omd.heartbeat, accepted, working]
    cases ttl <;> rfl
  have orbits₂ : s₂.orbits = s.orbits := by
    have upserted : s₁.orbits = s.orbits := upsertAgent_orbits o.agentId now
    cases ttl <;> exact upserted
  have ids₂ : Table.Distinct Orbit.orbitId s₂.orbits := orbits₂ ▸ h.ids
  have keeps (kind : OrbitKind) (r : Orbit) : (if (r.agentId = o.agentId &&
      (r.kind = kind && r.state = .HELD)) = true then r.beaten cfg now r else r).orbitId =
        r.orbitId := by
    split
    · exact Orbit.beaten_orbitId r r
    · rfl
  have ids₃ : Table.Distinct Orbit.orbitId s₃.orbits := by
    rw [heartbeatLeases_orbits ids₂]
    exact ids₂.map (keeps _)
  have ids₄ : Table.Distinct Orbit.orbitId s₄.orbits := by
    rw [heartbeatLeases_orbits ids₃]
    exact ids₃.map (keeps _)
  have agents₄ : s₄.agents = s₂.agents := by
    simp only [s₄, s₃, heartbeatLeases_eq]
  have alive : s₄.Alive o.agentId := by
    have upserted : s₁.Alive o.agentId := h.alive.upsertAgent o.agentId now
    refine Store.Alive.of_agents (s := s₂) ?_ agents₄
    cases ttl with
    | none => exact upserted
    | some w =>
        intro a ha id
        rcases Table.mem_modify.mp ha with ⟨ha, -⟩ | ⟨r, hr, hid, rfl⟩
        · exact upserted a ha id
        · exact upserted r hr hid
  rw [result]
  refine ⟨ids₄, ?_, ⟨h.bound.held, h.bound.kind⟩, alive⟩
  rw [heartbeatLeases_orbits ids₃, heartbeatLeases_orbits ids₂, List.map_map, orbits₂, ← beaten]
  refine List.mem_map.mpr ⟨o, h.mem, ?_⟩
  have held := h.bound.held
  rcases h.bound.kind with kind | kind
  · simp [held, kind, Orbit.beaten, deadline]
  · simp [held, kind]

/-! ## A list of heartbeats -/

/-- A heartbeat of the agent: when it comes, and the window the agent declares with it. -/
def beat (agent : AgentId) (b : Time × Option ℚ) : Env × Action :=
  (Action.call (.heartbeat agent b.2)).at b.1

/-- The deadline after heartbeats at these times. -/
def deadlineAfter (cfg : Cfg) (created deadline : ℚ) (ts : List Time) : Time :=
  ts.foldl (fun e t => t + leaseWindow cfg created e) deadline

/-- After the heartbeats the row has the deadline that their times give it. -/
theorem Store.Beats.exec (cfg : Cfg) {σ : Sys} (h : σ.store.Beats o) {e : Time}
    (deadline : o.expiresAt = some e) (bs : List (Time × Option ℚ))
    (valid : ∀ b ∈ bs, ∀ w, b.2 = some w → 0 < w) :
    ∃ σ', exec cfg (bs.map (beat o.agentId)) σ = .ok σ' ∧
      σ'.store.Beats (o.until (deadlineAfter cfg o.createdAt e (bs.map Prod.fst))) := by
  induction bs generalizing σ o e with
  | nil =>
      refine ⟨σ, rfl, ?_⟩
      have same : o.until e = o := by rw [Orbit.until, ← deadline]
      simp only [List.map_nil, deadlineAfter, List.foldl_nil, same]
      exact h
  | cons b bs ih =>
      have next : (Omd.heartbeat cfg b.1 σ.store o.agentId b.2).1.Beats
          (o.until (b.1 + leaseWindow cfg o.createdAt e)) :=
        h.heartbeat deadline (valid b List.mem_cons_self)
      obtain ⟨σ', run, beats⟩ := ih (σ := { σ with store :=
        (Omd.heartbeat cfg b.1 σ.store o.agentId b.2).1 }) next rfl
        fun b' hb' => valid b' (List.mem_cons_of_mem _ hb')
      exact ⟨σ', run, beats⟩

/-! ## The bound -/

/-- After every heartbeat of the list the row of the lease ends no later than its length from
then on. -/
def Sys.KeepsTtl (cfg : Cfg) (σ : Sys) (o : Orbit) (d : ℚ) (bs : List (Time × Option ℚ)) : Prop :=
  ∀ bs₁ b, bs₁ ++ [b] <+: bs → ∃ σ', exec cfg ((bs₁ ++ [b]).map (beat o.agentId)) σ = .ok σ' ∧
    ∃ o' ∈ σ'.store.orbits, o'.orbitId = o.orbitId ∧ ∃ e, o'.expiresAt = some e ∧ e ≤ b.1 + d

/-- No renewal of the list makes the next one longer than what was granted at `g` for `d`. -/
def Unstretched (cfg : Cfg) (created g d : ℚ) (ts : List Time) : Prop :=
  ts = [] ∨
    (created ≠ 0 ∧ 0 < d ∧ g = created ∧ ∀ t ∈ ts.dropLast, t = created) ∨
    cfg.defaultWindow ≤ d ∧
      (created = 0 ∨ d ≤ 0 ∧ g + d ≤ created ∧ ∀ t ∈ ts.dropLast, t + cfg.defaultWindow ≤ created)

/-- No window of the heartbeats at these times is longer than `d`. -/
def Fits (cfg : Cfg) (created d : ℚ) : Time → List Time → Prop
  | _, [] => True
  | e, t :: ts =>
      leaseWindow cfg created e ≤ d ∧ Fits cfg created d (t + leaseWindow cfg created e) ts

theorem fits_iff {created d e : ℚ} {bs : List (Time × Option ℚ)} :
    Fits cfg created d e (bs.map Prod.fst) ↔ ∀ bs₁ b, bs₁ ++ [b] <+: bs →
      leaseWindow cfg created (deadlineAfter cfg created e (bs₁.map Prod.fst)) ≤ d := by
  induction bs generalizing e with
  | nil =>
      refine iff_of_true trivial fun bs₁ b h => ?_
      simp at h
  | cons b bs ih =>
      rw [List.map_cons, Fits, ih]
      constructor
      · rintro ⟨first, rest⟩ bs₁ b' h
        cases bs₁ with
        | nil => exact first
        | cons x bs₁ =>
            obtain ⟨rfl, before⟩ := List.cons_prefix_cons.mp h
            exact rest bs₁ b' before
      · intro all
        refine ⟨all [] b ?_, fun bs₁ b' h => all (b :: bs₁) b' ?_⟩
        · exact List.cons_prefix_cons.mpr ⟨rfl, List.nil_prefix⟩
        · exact List.cons_prefix_cons.mpr ⟨rfl, h⟩

/-- The bound holds as long as no window is longer. -/
theorem Store.Beats.keepsTtl {σ : Sys} (h : σ.store.Beats o) {e d : ℚ}
    (deadline : o.expiresAt = some e) {bs : List (Time × Option ℚ)}
    (valid : ∀ b ∈ bs, ∀ w, b.2 = some w → 0 < w) :
    σ.KeepsTtl cfg o d bs ↔ Fits cfg o.createdAt d e (bs.map Prod.fst) := by
  rw [fits_iff]
  refine forall_congr' fun bs₁ => forall_congr' fun b => imp_congr_right fun before => ?_
  obtain ⟨σ', run, beats⟩ := h.exec cfg deadline (bs₁ ++ [b])
    fun b' hb' => valid b' (before.subset hb')
  have last : deadlineAfter cfg o.createdAt e ((bs₁ ++ [b]).map Prod.fst) =
      b.1 + leaseWindow cfg o.createdAt (deadlineAfter cfg o.createdAt e (bs₁.map Prod.fst)) := by
    simp [deadlineAfter]
  rw [last] at beats
  constructor
  · rintro ⟨τ, run', o', ho', id, e', hr, le⟩
    cases run.symm.trans run'
    have row := beats.ids.eq ho' beats.mem id
    rw [row] at hr
    cases hr
    linarith
  · intro le
    exact ⟨σ', run, _, beats.mem, rfl, _, rfl, by linarith⟩

/-! ## When the bound holds -/

section Arithmetic

variable {created d e : ℚ} {ts : List Time}

theorem leaseWindow_of_after (real : created ≠ 0) (after : created < e) :
    leaseWindow cfg created e = e - created := by
  rw [leaseWindow, if_pos ⟨real, sub_pos.mpr after⟩]

theorem leaseWindow_of_not_after (h : created = 0 ∨ e ≤ created) :
    leaseWindow cfg created e = cfg.defaultWindow := by
  rw [leaseWindow, if_neg]
  rintro ⟨real, after⟩
  rcases h with zero | le
  · exact real zero
  · linarith

/-- Without a clock at the creation every window is the default. -/
theorem fits_unclocked (zero : created = 0) :
    Fits cfg created d e ts ↔ ts = [] ∨ cfg.defaultWindow ≤ d := by
  induction ts generalizing e with
  | nil => simp [Fits]
  | cons t ts ih =>
      rw [Fits, ih, leaseWindow_of_not_after (Or.inl zero)]
      simp only [List.cons_ne_nil, false_or]
      exact ⟨And.left, fun le => ⟨le, Or.inr le⟩⟩

/-- A window of the granted length is kept by the heartbeats at the creation, up to the last. -/
theorem fits_exact (real : created ≠ 0) (positive : 0 < d) (ends : e = created + d)
    (later : ∀ t ∈ ts, created ≤ t) :
    Fits cfg created d e ts ↔ ∀ t ∈ ts.dropLast, t = created := by
  induction ts generalizing e with
  | nil => simp [Fits]
  | cons t ts ih =>
      have window : leaseWindow cfg created e = d := by
        rw [leaseWindow_of_after real (by linarith), ends, add_sub_cancel_left]
      have after := later t List.mem_cons_self
      rw [Fits, window]
      cases ts with
      | nil => simp [Fits]
      | cons t' ts =>
          have rest : ∀ t'' ∈ t' :: ts, created ≤ t'' :=
            fun t'' h => later t'' (List.mem_cons_of_mem _ h)
          rw [List.dropLast_cons_cons, List.forall_mem_cons]
          constructor
          · rintro ⟨-, fits⟩
            -- the second window is as long as the first beat is late
            have second := fits.1
            rw [leaseWindow_of_after real (by linarith)] at second
            have same : t = created := by linarith
            exact ⟨same, (ih (by rw [same]) rest).mp fits⟩
          · rintro ⟨same, all⟩
            exact ⟨le_refl d, (ih (by rw [same]) rest).mpr all⟩

/-- A row out of its time is renewed for the default, until that takes it past its creation. -/
theorem fits_lapsed (real : created ≠ 0) (nonpos : d ≤ 0) :
    Fits cfg created d e ts ↔ ts = [] ∨ cfg.defaultWindow ≤ d ∧ e ≤ created ∧
      ∀ t ∈ ts.dropLast, t + cfg.defaultWindow ≤ created := by
  induction ts generalizing e with
  | nil => simp [Fits]
  | cons t ts ih =>
      rw [Fits, ih]
      simp only [List.cons_ne_nil, false_or]
      by_cases lapsed : e ≤ created
      · rw [leaseWindow_of_not_after (Or.inr lapsed)]
        cases ts with
        | nil => simp [lapsed]
        | cons t' ts =>
            rw [List.dropLast_cons_cons, List.forall_mem_cons]
            simp only [List.cons_ne_nil, false_or]
            tauto
      · have after := lt_of_not_ge lapsed
        have long : ¬ leaseWindow cfg created e ≤ d := by
          rw [leaseWindow_of_after real after]
          linarith
        simp [long, lapsed]

theorem fits_unstretched {g : ℚ} (since : created ≤ g) (later : ∀ t ∈ ts, g ≤ t) :
    Fits cfg created d (g + d) ts ↔ Unstretched cfg created g d ts := by
  rw [Unstretched]
  by_cases zero : created = 0
  · rw [fits_unclocked zero]
    simp [zero]
  by_cases positive : 0 < d
  · have notLapsed : ¬ d ≤ 0 := not_le.mpr positive
    simp only [zero, notLapsed, false_and, or_false, and_false, positive, true_and, ne_eq,
      not_false_eq_true]
    cases ts with
    | nil => simp [Fits]
    | cons t ts =>
        simp only [List.cons_ne_nil, false_or]
        constructor
        · intro fits
          have first := fits.1
          rw [leaseWindow_of_after zero (by linarith)] at first
          have same : g = created := by linarith
          refine ⟨same, (fits_exact zero positive (by rw [same]) ?_).mp fits⟩
          exact fun t ht => since.trans (later t ht)
        · rintro ⟨same, all⟩
          refine (fits_exact zero positive (by rw [same]) ?_).mpr all
          exact fun t ht => since.trans (later t ht)
  · have nonpos := not_lt.mp positive
    rw [fits_lapsed zero nonpos]
    simp [zero, positive, nonpos]

end Arithmetic

/-! ## Leases of a run -/

/-- The owner of a lease that is held is not retired. -/
theorem ReachableBy.beats {P : Sys → Env × Action → Prop} {σ : Sys} (h : ReachableBy cfg P σ)
    (ho : o ∈ σ.store.orbits) (bound : o.Bound) : σ.store.Beats o := by
  have orphans : σ.store.NoOrphan :=
    Sys.Ok.empty.run_invariant (I := Store.NoOrphan) (fun _ _ _ _ ok h step => h.micro ok step) h
      (by rintro agent ⟨a, ha, -⟩; cases ha)
  refine ⟨h.ok.store.orbitIds, ho, bound, fun a ha id retired => ?_⟩
  have bereft := orphans o.agentId ⟨a, ha, id, retired⟩
  rcases bound.kind with kind | kind
  · exact bereft.leases o ho rfl kind bound.held
  · exact bereft.permits o ho rfl kind bound.held

/-- The heartbeats of its owner keep the length of a lease or permit that was granted at `g`
for `d` exactly if none of them but the last comes after the creation of the row. -/
theorem heartbeats_keepTtl_iff {σ : Sys} (h : Reachable cfg σ) (ho : o ∈ σ.store.orbits)
    (held : o.state = .HELD) (kind : o.kind = .flag_ephemeral ∨ o.kind = .sem_permit) {g d : ℚ}
    (granted : o.expiresAt = some (g + d)) (since : o.createdAt ≤ g)
    {bs : List (Time × Option ℚ)} (later : ∀ b ∈ bs, g ≤ b.1)
    (valid : ∀ b ∈ bs, ∀ w, b.2 = some w → 0 < w) :
    σ.KeepsTtl cfg o d bs ↔ Unstretched cfg o.createdAt g d (bs.map Prod.fst) := by
  have beats : σ.store.Beats o := h.beats ho ⟨held, kind⟩
  rw [beats.keepsTtl granted valid]
  refine fits_unstretched since fun t ht => ?_
  obtain ⟨b, hb, rfl⟩ := List.mem_map.mp ht
  exact later b hb

/-- A signal for ten seconds. -/
def tenSeconds : List (Env × Action) :=
  [(Action.call (.flagSet "k" "up" (some "A") .EPHEMERAL (some 10) none none)).at 1]

theorem tenSeconds_granted : ∃ σ, Reachable {} σ ∧ ∃ o ∈ σ.store.orbits, o.state = .HELD ∧
    o.kind = .flag_ephemeral ∧ o.createdAt = 1 ∧ o.expiresAt = some (1 + 10) :=
  exists_reachable tenSeconds (by decide +kernel)

/-- The heartbeats at the instant of creation stretch nothing. -/
theorem heartbeats_keepTtl_iff_twice : ∃ σ, Reachable {} σ ∧ ∃ o ∈ σ.store.orbits,
    o.state = .HELD ∧ o.kind = .flag_ephemeral ∧
      σ.KeepsTtl {} o 10 [(1, none), (1, some 5), (7, none)] := by
  obtain ⟨σ, reach, o, ho, held, kind, created, granted⟩ := tenSeconds_granted
  refine ⟨σ, reach, o, ho, held, kind, ?_⟩
  refine (heartbeats_keepTtl_iff reach ho held (Or.inl kind) granted created.le ?_ ?_).mpr ?_
  · simp
  · simp
  · exact Or.inr (Or.inl ⟨by rw [created]; decide, by norm_num, created.symm, by simp [created]⟩)

/-- The second heartbeat of a signal for ten seconds renews it for eleven. -/
theorem heartbeats_stretch : ∃ σ, Reachable {} σ ∧ ∃ o ∈ σ.store.orbits, o.state = .HELD ∧
    o.kind = .flag_ephemeral ∧ o.createdAt = 1 ∧ o.expiresAt = some (1 + 10) ∧
      ¬ σ.KeepsTtl {} o 10 [(2, none), (3, none)] := by
  obtain ⟨σ, reach, o, ho, held, kind, created, granted⟩ := tenSeconds_granted
  refine ⟨σ, reach, o, ho, held, kind, created, granted, fun keeps => ?_⟩
  have beats := reach.beats ho ⟨held, Or.inl kind⟩
  have second := ((beats.keepsTtl granted (by simp)).mp keeps).2.1
  rw [created] at second
  exact absurd second (by decide +kernel)

end Omd
