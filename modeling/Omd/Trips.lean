import Omd.Dependencies
import Omd.Interleaving

/-!
# Trips

A generation of a barrier trips when its tasks are merged: by the call that drives the trip, by
the handler of its exception, or by a recovery.  The driver goes by what it remembers of a plan
that was made when the generation was filled.  So the generation has to keep its parties, and the
parties their merges, until the trip ends and after.  A begin that writes `READY` by an old read
can take a merge back; in the runs where none does so to a party of such a generation, a generation
that has tripped has merged parties only, and a trip whose driver has ended is over.
-/

namespace Omd

open Lib

variable {cfg : Cfg} {env : Env} {σ σ' : Sys} {a : Action} {l : Env × Action} {c : Scope}
  {E : TaskId → Prop} {s s₁ s' : Store} {b : Barrier} {task : TaskId} {kept : Prop}

/-! ## Merges -/

/-- The task was merged, by the table or the archive. -/
def Store.WasMerged (s : Store) (task : TaskId) : Prop := Omd.WasMerged s.tasks s.tasksArchive task

/-- The task is a party of the generation. -/
def Store.Party (s : Store) (b : Barrier) (task : TaskId) : Prop :=
  PartyTo s.barrierParties b.key task

theorem Store.Merged.was (h : s.Merged task) : s.WasMerged task := by
  obtain ⟨t, ht, id, merged⟩ := h
  exact ⟨t, List.mem_append_left _ ht, id, merged⟩

theorem Store.wasMerged_iff : s.WasMerged task ↔
    s.Merged task ∨ ∃ t ∈ s.tasksArchive, t.taskId = task ∧ t.state = .MERGED := by
  constructor
  · rintro ⟨t, ht, id, merged⟩
    rcases List.mem_append.mp ht with ht | ht
    · exact Or.inl ⟨t, ht, id, merged⟩
    · exact Or.inr ⟨t, ht, id, merged⟩
  · rintro (merged | ⟨t, ht, id, merged⟩)
    · exact merged.was
    · exact ⟨t, List.mem_append_right _ ht, id, merged⟩

/-- The archive only grows. -/
theorem Micro.tasksArchive (h : Micro c E s s') : s.tasksArchive ⊆ s'.tasksArchive := by
  cases h with
  | archiveTasks p _ _ _ frame =>
      rw [frame.tasksArchive]
      exact List.subset_append_left _ _
  | frame frame | enroll _ _ _ _ frame | agent _ _ _ _ frame | orbit _ _ _ _ _ _ frame
  | insert _ _ _ _ _ _ _ _ frame | reject _ _ _ _ frame | summary _ _ _ frame | task _ _ _ frame
  | declare _ _ frame | publish _ _ _ frame | request _ frame | waiters _ frame
  | slots _ _ _ _ frame | flags _ frame | arm _ _ _ _ _ _ _ _ frame | trip _ _ _ frame
  | stamp _ frame | archiveOrbits _ _ _ frame =>
      exact (frame.tasksArchive.symm ▸ List.Subset.refl _ : s.tasksArchive ⊆ s'.tasksArchive)

/-- What was merged stays so, unless a begin writes over it. -/
theorem Micro.wasMerged (h : Micro c E s s') (ok : s.Ok) (no : ¬ c.may (.overwrite task))
    (was : s.WasMerged task) : s'.WasMerged task := by
  rcases Store.wasMerged_iff.mp was with ⟨t, ht, rfl, merged⟩ | ⟨t, ht, id, merged⟩
  · by_cases gone : s'.departures t.taskId = s.departures t.taskId
    · obtain ⟨t', ht', change⟩ := h.stays ok ht gone
      exact Store.Merged.was ⟨t', ht', change.id, change.change.merged no merged⟩
    · cases h with
      | archiveTasks p _ _ _ frame =>
          have eq : s'.tasks ++ s'.tasksArchive =
              s.tasks.filter (fun t => !p t) ++ (s.tasksArchive ++ s.tasks.filter p) :=
            congrArg₂ _ frame.tasks frame.tasksArchive
          refine ⟨t, ?_, rfl, merged⟩
          rw [eq, List.mem_append, List.mem_append, List.mem_filter, List.mem_filter]
          cases hp : p t with
          | true => exact Or.inr (Or.inr ⟨ht, rfl⟩)
          | false => exact Or.inl ⟨ht, rfl⟩
      | frame frame | enroll _ _ _ _ frame | agent _ _ _ _ frame | orbit _ _ _ _ _ _ frame
      | insert _ _ _ _ _ _ _ _ frame | reject _ _ _ _ frame | summary _ _ _ frame
      | task _ _ _ frame | declare _ _ frame | publish _ _ _ frame | request _ frame
      | waiters _ frame | slots _ _ _ _ frame | flags _ frame | arm _ _ _ _ _ _ _ _ frame
      | trip _ _ _ frame | stamp _ frame | archiveOrbits _ _ _ frame =>
          exact absurd (congrArg (List.countP _) frame.tasksArchive) gone
  · exact ⟨t, List.mem_append_right _ (h.tasksArchive ht), id, merged⟩

theorem Stepped.wasMerged (h : Stepped cfg env σ a s') (ok : σ.store.Ok)
    (no : ¬ Licence cfg env σ a (.overwrite task)) (merged : σ.store.WasMerged task) :
    s'.WasMerged task :=
  h.invariant (I := fun s => s.WasMerged task)
    (fun _ _ _ _ licensed ok ih step =>
      step.wasMerged ok (fun may => no (licensed _ may)) ih) ok merged

/-! ## Generations that are filled -/

/-- The generations go on with their lives, and those that were filled keep their parties. -/
def Store.Fixes (s s' : Store) : Prop :=
  ∀ b ∈ s.barriers, ∃ b' ∈ s'.barriers, b'.key = b.key ∧ b.state.Leads b'.state ∧
    (b.state ≠ .ARMED → ∀ task, s'.Party b task ↔ s.Party b task)

theorem Store.Fixes.refl (s : Store) : s.Fixes s :=
  fun b hb => ⟨b, hb, rfl, .refl, fun _ _ => Iff.rfl⟩

theorem Store.Fixes.trans (h : s.Fixes s₁) (h' : s₁.Fixes s') : s.Fixes s' := by
  intro b hb
  obtain ⟨b₁, hb₁, key, leads, same⟩ := h b hb
  obtain ⟨b', hb', key', leads', same'⟩ := h' b₁ hb₁
  refine ⟨b', hb', key'.trans key, leads.trans leads', fun filled task => ?_⟩
  have later := same' (leads.ne_armed filled) task
  rw [Store.Party, Store.Party, key] at later
  exact later.trans (same filled task)

theorem Store.Fixes.of_gather {merged : TaskId → Prop}
    (distinct : Table.Distinct Barrier.barrierId s.barriers)
    (keys : s'.barriers.map Barrier.key = s.barriers.map Barrier.key)
    (gather : Gather merged s.barriers s.barrierParties s'.barriers s'.barrierParties) :
    s.Fixes s' := by
  intro b hb
  have mem : b.key ∈ s'.barriers.map Barrier.key := keys ▸ List.mem_map_of_mem hb
  obtain ⟨b', hb', key⟩ := List.mem_map.mp mem
  obtain ⟨r, hr, goes⟩ := gather b' hb'
  have same : r = b := distinct.eq hr hb (congrArg Prod.fst (goes.key.symm.trans key))
  subst same
  exact ⟨b', hb', key, goes.leads, goes.fixed⟩

/-- The identifier of a barrier is its name and its generation. -/
theorem Store.Ok.barrierId (ok : s.Ok) (hb : b ∈ s.barriers) :
    b.barrierId = (b.name, b.generation) :=
  ok.barriers.named b.key (List.mem_map_of_mem hb)

theorem Store.Ok.distinct_arm (ok : s.Ok) {new : Barrier}
    (id : new.barrierId = (new.name, new.generation))
    (next : ∀ r ∈ s.barriers, r.name = new.name → r.generation < new.generation) :
    Table.Distinct Barrier.barrierId (s.barriers ++ [new]) := by
  have keys : BarriersOk (s.barriers.map Barrier.key ++ [new.key]) := by
    refine ok.barriers.append id fun k hk name => ?_
    obtain ⟨r, hr, rfl⟩ := List.mem_map.mp hk
    exact next r hr name
  have nodup := keys.distinct
  rwa [← List.map_singleton, ← List.map_append, List.map_map] at nodup

/-- The parties of a new generation are no parties of an old one. -/
theorem Store.Ok.party_arm (ok : s.Ok) {new : Barrier} {parties : List BarrierParty}
    (id : new.barrierId = (new.name, new.generation))
    (next : ∀ r ∈ s.barriers, r.name = new.name → r.generation < new.generation)
    (own : ∀ p ∈ parties, p.barrierId = new.barrierId) (hb : b ∈ s.barriers) (task : TaskId) :
    PartyTo (s.barrierParties ++ parties) b.key task ↔ s.Party b task := by
  constructor
  · rintro ⟨p, hp, key, generation, same⟩
    rcases List.mem_append.mp hp with hp | hp
    · exact ⟨p, hp, key, generation, same⟩
    · have ids : b.barrierId = new.barrierId := key.symm.trans (own p hp)
      rw [ok.barrierId hb, id] at ids
      have older := next b hb (congrArg Prod.fst ids)
      rw [show b.generation = new.generation from congrArg Prod.snd ids] at older
      exact absurd older (lt_irrefl _)
  · rintro ⟨p, hp, of⟩
    exact ⟨p, List.mem_append_left _ hp, of⟩

theorem Micro.fixes (h : Micro c E s s') (ok : s.Ok) : s.Fixes s' := by
  cases h with
  | arm new parties _ id _ next _ own frame =>
      have distinct := ok.distinct_arm id next
      refine Store.Fixes.trans ?_ (.of_gather distinct frame.barriers (frame.gather distinct))
      exact fun b hb => ⟨b, List.mem_append_left _ hb, rfl, .refl,
        fun _ task => ok.party_arm id next own hb task⟩
  | trip id _ tripping frame =>
      obtain ⟨b₀, found, tripping⟩ := tripping
      have distinct : Table.Distinct Barrier.barrierId
          (s.setBarrier id fun r => { r with state := .TRIPPED }).barriers :=
        barrierIds_of_keys (map_setBarrier s id fun _ => rfl) ok.barrierIds
      refine Store.Fixes.trans ?_ (.of_gather distinct frame.barriers (frame.gather distinct))
      intro b hb
      by_cases same : b.barrierId = id
      · have tripped : { b with state := .TRIPPED } ∈
            (s.setBarrier id fun r => { r with state := .TRIPPED }).barriers :=
          Table.mem_modify.mpr (Or.inr ⟨b, hb, same, rfl⟩)
        have eq : b₀ = b := ok.barrier_eq (Table.mem_of_get found) hb
          ((Table.key_of_get found).trans same.symm)
        refine ⟨_, tripped, rfl, .single ⟨.trip, ?_⟩, fun _ _ => Iff.rfl⟩
        rw [← eq, tripping]
        rfl
      · exact ⟨b, Table.mem_modify.mpr (Or.inl ⟨hb, same⟩), rfl, .refl, fun _ _ => Iff.rfl⟩
  | frame frame | enroll _ _ _ _ frame | agent _ _ _ _ frame | orbit _ _ _ _ _ _ frame
  | insert _ _ _ _ _ _ _ _ frame | reject _ _ _ _ frame | summary _ _ _ frame | task _ _ _ frame
  | declare _ _ frame | publish _ _ _ frame | request _ frame | waiters _ frame
  | slots _ _ _ _ frame | flags _ frame | stamp _ frame | archiveTasks _ _ _ _ frame
  | archiveOrbits _ _ _ frame =>
      exact .of_gather ok.barrierIds frame.barriers (frame.gather ok.barrierIds)

theorem Stepped.fixes (h : Stepped cfg env σ a s') (ok : σ.store.Ok) : σ.store.Fixes s' :=
  h.invariant (I := fun s => σ.store.Fixes s)
    (fun _ _ _ _ _ ok ih step => ih.trans (step.fixes ok)) ok (.refl _)

/-- The generations of a name grow along the table, and none but the last is armed or trips. -/
structure Rounds (rows : List Barrier) : Prop where
  grow : rows.Pairwise fun b c => b.name = c.name → b.generation < c.generation
  last : ∀ b ∈ rows, b.state.active = true → ∀ c ∈ rows, c.name = b.name →
    c.generation ≤ b.generation

theorem Rounds.of_gather {merged : TaskId → Prop} {rows rows' : List Barrier}
    {parties parties' : List BarrierParty} (h : Rounds rows)
    (keys : rows'.map Barrier.key = rows.map Barrier.key)
    (gather : Gather merged rows parties rows' parties') : Rounds rows' where
  grow := by
    have grow : (rows.map Barrier.key).Pairwise fun k l => k.2.1 = l.2.1 → k.2.2 < l.2.2 :=
      List.pairwise_map.mpr h.grow
    rw [← keys] at grow
    exact List.pairwise_map.mp grow
  last := by
    intro b' hb' active c' hc' name
    obtain ⟨b, hb, goes⟩ := gather b' hb'
    obtain ⟨c, hc, key⟩ := List.mem_map.mp (keys ▸ List.mem_map_of_mem hc')
    have below := h.last b hb (goes.leads.active active) c hc
    rw [show c.name = c'.name from congrArg (fun k => k.2.1) key,
      show c.generation = c'.generation from congrArg (fun k => k.2.2) key,
      ← show b'.name = b.name from congrArg (fun k => k.2.1) goes.key,
      ← show b'.generation = b.generation from congrArg (fun k => k.2.2) goes.key] at below
    exact below name

theorem Rounds.arm {new : Barrier} (h : Rounds s.barriers) (ok : s.Ok)
    (next : ∀ r ∈ s.barriers, r.name = new.name → r.generation < new.generation)
    (idle : ∀ r, s.barrierByName new.name = some r → r.state.active = false) :
    Rounds (s.barriers ++ [new]) where
  grow := by
    refine List.pairwise_append.mpr ⟨h.grow, List.pairwise_singleton _ _, fun b hb c hc name => ?_⟩
    cases List.mem_singleton.mp hc
    exact next b hb name
  last := by
    intro b hb active c hc name
    rcases List.mem_append.mp hb with hb | hb <;> rcases List.mem_append.mp hc with hc | hc
    · exact h.last b hb active c hc name
    · -- the latest generation has ended, so no other one can be active
      cases List.mem_singleton.mp hc
      exfalso
      cases found : s.barrierByName new.name with
      | none => exact (barrierByName_spec.2 found) b hb name.symm
      | some r =>
          obtain ⟨hr, rname, latest⟩ := barrierByName_spec.1 r found
          have rname : r.name = b.name := rname.trans name
          have same : r.generation = b.generation :=
            le_antisymm (h.last b hb active r hr rname) (latest b hb name.symm)
          have one : r = b := ok.barrier_eq hr hb (by
            rw [ok.barrierId hr, ok.barrierId hb, rname, same])
          have ended := idle r found
          rw [one, active] at ended
          cases ended
    · cases List.mem_singleton.mp hb
      exact (next c hc name).le
    · cases List.mem_singleton.mp hb
      cases List.mem_singleton.mp hc
      exact le_rfl

theorem Micro.rounds (h : Micro c E s s') (ok : s.Ok) (rounds : Rounds s.barriers) :
    Rounds s'.barriers := by
  cases h with
  | arm new parties _ id _ next idle own frame =>
      have distinct := ok.distinct_arm id next
      exact (rounds.arm ok next idle).of_gather frame.barriers (frame.gather distinct)
  | trip id _ tripping frame =>
      obtain ⟨b₀, found, tripping⟩ := tripping
      have keys : (s.setBarrier id fun r => { r with state := .TRIPPED }).barriers.map Barrier.key =
          s.barriers.map Barrier.key := map_setBarrier s id fun _ => rfl
      have distinct := barrierIds_of_keys keys ok.barrierIds
      refine Rounds.of_gather ?_ frame.barriers (frame.gather distinct)
      suffices gather : Gather (fun _ => True) s.barriers s.barrierParties
          (s.setBarrier id fun r => { r with state := .TRIPPED }).barriers s.barrierParties from
        rounds.of_gather keys gather
      intro b' hb'
      rcases Table.mem_modify.mp hb' with ⟨hb', -⟩ | ⟨b, hb, bid, rfl⟩
      · exact ⟨b', hb', .refl _ _ b'⟩
      · have eq : b₀ = b := ok.barrier_eq (Table.mem_of_get found) hb
          ((Table.key_of_get found).trans bid.symm)
        refine ⟨b, hb, rfl, .single ⟨.trip, ?_⟩, fun _ _ => Iff.rfl,
          fun _ => Or.inr fun _ _ => trivial⟩
        rw [← eq, tripping]
        rfl
  | frame frame | enroll _ _ _ _ frame | agent _ _ _ _ frame | orbit _ _ _ _ _ _ frame
  | insert _ _ _ _ _ _ _ _ frame | reject _ _ _ _ frame | summary _ _ _ frame | task _ _ _ frame
  | declare _ _ frame | publish _ _ _ frame | request _ frame | waiters _ frame
  | slots _ _ _ _ frame | flags _ frame | stamp _ frame | archiveTasks _ _ _ _ frame
  | archiveOrbits _ _ _ frame =>
      exact rounds.of_gather frame.barriers (frame.gather ok.barrierIds)

/-! ## Generations that have tripped -/

/-- The parties of a generation that has tripped were merged. -/
def TrippedMerged (merged : TaskId → Prop) (rows : List Barrier) (parties : List BarrierParty) :
    Prop :=
  ∀ b ∈ rows, b.state.tripped = true → ∀ task, PartyTo parties b.key task → merged task

theorem Gather.trippedMerged {merged : TaskId → Prop} {rows rows' : List Barrier}
    {parties parties' : List BarrierParty} (h : Gather merged rows parties rows' parties')
    (before : TrippedMerged merged rows parties) : TrippedMerged merged rows' parties' := by
  intro b' hb' tripped task party
  obtain ⟨b, hb, goes⟩ := h b' hb'
  rw [goes.key] at party
  rcases goes.trips tripped with already | all
  · have fixed := goes.fixed (BarrierState.ne_armed_of_tripped already) task
    exact before b hb already task (fixed.mp party)
  · exact all task party

/-- What the store says of the generations that have tripped. -/
def Store.TripsMerged (s : Store) : Prop := TrippedMerged s.WasMerged s.barriers s.barrierParties

theorem Micro.tripsMerged (h : Micro c E s s') (ok : s.Ok) (no : ∀ id, ¬ c.may (.overwrite id))
    (before : s.TripsMerged)
    (all : ∀ id, c.may (.trip id) → ∀ b ∈ s.barriers, b.barrierId = id → b.state = .TRIPPING →
      ∀ task, s.Party b task → s.WasMerged task) : s'.TripsMerged := by
  have still (task : TaskId) : s.WasMerged task → s'.WasMerged task := h.wasMerged ok (no task)
  have stays : TrippedMerged s'.WasMerged s.barriers s.barrierParties :=
    fun b hb tripped task party => still task (before b hb tripped task party)
  cases h with
  | arm new parties _ id armed next _ own frame =>
      have distinct := ok.distinct_arm id next
      have gather := frame.gather distinct
      rw [← frame.tasks, ← frame.tasksArchive] at gather
      refine gather.trippedMerged fun b hb tripped task party => ?_
      rcases List.mem_append.mp hb with hb | hb
      · exact stays b hb tripped task ((ok.party_arm id next own hb task).mp party)
      · rw [List.mem_singleton.mp hb, armed] at tripped
        cases tripped
  | trip id may tripping frame =>
      obtain ⟨b₀, found, tripping⟩ := tripping
      have distinct : Table.Distinct Barrier.barrierId
          (s.setBarrier id fun r => { r with state := .TRIPPED }).barriers :=
        barrierIds_of_keys (map_setBarrier s id fun _ => rfl) ok.barrierIds
      have gather := frame.gather distinct
      rw [← frame.tasks, ← frame.tasksArchive] at gather
      refine gather.trippedMerged fun b hb tripped task party => ?_
      rcases Table.mem_modify.mp hb with ⟨hb, -⟩ | ⟨r, hr, rid, rfl⟩
      · exact stays b hb tripped task party
      · have eq : b₀ = r := ok.barrier_eq (Table.mem_of_get found) hr
          ((Table.key_of_get found).trans rid.symm)
        subst eq
        exact still task (all id may b₀ hr rid tripping task party)
  | frame frame | enroll _ _ _ _ frame | agent _ _ _ _ frame | orbit _ _ _ _ _ _ frame
  | insert _ _ _ _ _ _ _ _ frame | reject _ _ _ _ frame | summary _ _ _ frame | task _ _ _ frame
  | declare _ _ frame | publish _ _ _ frame | request _ frame | waiters _ frame
  | slots _ _ _ _ frame | flags _ frame | stamp _ frame | archiveTasks _ _ _ _ frame
  | archiveOrbits _ _ _ frame =>
      have gather := frame.gather ok.barrierIds
      rw [← frame.tasks, ← frame.tasksArchive] at gather
      exact gather.trippedMerged stays

/-! ## The runs in which the merges of a trip stay -/

/-- No begin writes `READY` over the merge of a party of a generation that trips or has tripped. -/
def KeepsMerges (σ : Sys) (l : Env × Action) : Prop :=
  ∀ b claims state input, σ.Cut l.2 (.begin b (.ready claims state)) input →
    σ.store.Merged b.taskId → ∀ g ∈ σ.store.barriers, σ.store.Party g b.taskId →
      g.state = .ARMED ∨ g.state = .BROKEN

theorem Stepped.archived (h : Stepped cfg env σ a s') (ok : σ.store.Ok) :
    σ.store.tasksArchive ⊆ s'.tasksArchive :=
  h.invariant (I := fun s => σ.store.tasksArchive ⊆ s.tasksArchive)
    (fun _ _ _ _ _ _ ih step => List.Subset.trans ih step.tasksArchive) ok (List.Subset.refl _)

/-- The merge of a party of such a generation outlives a step. -/
theorem Stepped.keepsMerge (h : Stepped cfg env σ a s') (ok : σ.store.Ok)
    (keeps : KeepsMerges σ (env, a)) (hb : b ∈ σ.store.barriers) (filled : b.state ≠ .ARMED)
    (whole : b.state ≠ .BROKEN) (party : σ.store.Party b task) (was : σ.store.WasMerged task) :
    s'.WasMerged task := by
  by_cases may : Licence cfg env σ a (.overwrite task)
  · rcases Store.wasMerged_iff.mp was with live | ⟨t, ht, id, merged⟩
    · cases may with
      | overwrite cut =>
          rcases keeps _ _ _ _ cut live b hb party with armed | broken
          · exact absurd armed filled
          · exact absurd broken whole
    · exact ⟨t, List.mem_append_right _ (h.archived ok ht), id, merged⟩
  · exact h.wasMerged ok may was

/-! ## The driver -/

/-- The generation of the trip was filled. -/
structure Store.Fills (s : Store) (trip : Trip) (g : Barrier) : Prop where
  row : g ∈ s.barriers
  id : g.barrierId = trip.barrierId
  generation : g.generation = trip.generation
  filled : g.state ≠ .ARMED

/-- The generation of the trip was filled.  Where merges are kept, and unless it is broken, the
parties that are not left were merged. -/
def Store.Drives (kept : Prop) (s : Store) (trip : Trip) (left : List TaskId) : Prop :=
  ∃ g, s.Fills trip g ∧
    (kept → g.state ≠ .BROKEN → ∀ task, s.Party g task → s.WasMerged task ∨ task ∈ left)

/-- The generation of the trip is neither armed nor tripping. -/
def Store.Over (s : Store) (trip : Trip) : Prop :=
  ∃ g, s.Fills trip g ∧ g.state.active = false

/-- What is left of a plan. -/
def Trip.left (trip : Trip) : List TaskId := trip.plan.map TripStep.taskId

/-- What the call that drives a trip goes by, at each of its cuts. -/
def TripPc.Sound (kept : Prop) (s : Store) : TripPc → Prop
  | .next trip => s.Drives kept trip trip.left
  | .phaseC trip task i => i.taskId = task ∧ s.Drives kept trip (task :: trip.left)
  | .broken trip | .raised trip => ∃ g, s.Fills trip g
  | .complete trip _ => s.Over trip
  | _ => True

section Persist

variable {trip trip' : Trip}

/-- Only the generation counts. -/
theorem Store.Fills.of {g : Barrier} (fills : s.Fills trip g)
    (id : trip'.barrierId = trip.barrierId)
    (generation : trip'.generation = trip.generation) : s.Fills trip' g :=
  ⟨fills.row, fills.id.trans id.symm, fills.generation.trans generation.symm, fills.filled⟩

/-- What becomes of the generation of a trip. -/
theorem Store.Fills.stepped {g : Barrier} (fills : σ.store.Fills trip g)
    (h : Stepped cfg env σ a s') (ok : σ.store.Ok) : ∃ g', s'.Fills trip g' ∧
      g'.key = g.key ∧ g.state.Leads g'.state ∧
        ∀ task, s'.Party g' task ↔ σ.store.Party g task := by
  obtain ⟨g', hg', key, leads, same⟩ := h.fixes ok g fills.row
  refine ⟨g', ⟨hg', ?_, ?_, leads.ne_armed fills.filled⟩, key, leads, fun task => ?_⟩
  · exact (congrArg Prod.fst key).trans fills.id
  · exact (congrArg (fun k => k.2.2) key).trans fills.generation
  · rw [Store.Party, key]
    exact same fills.filled task

theorem Store.Drives.stepped {left : List TaskId} (drives : σ.store.Drives kept trip left)
    (h : Stepped cfg env σ a s') (ok : σ.store.Ok) (keeps : kept → KeepsMerges σ (env, a)) :
    s'.Drives kept trip left := by
  obtain ⟨g, fills, merged⟩ := drives
  obtain ⟨g', fills', -, leads, same⟩ := fills.stepped h ok
  refine ⟨g', fills', fun k whole task party => ?_⟩
  have before : g.state ≠ .BROKEN := by
    intro broken
    rw [broken] at leads
    exact whole leads.eq_broken
  have party := (same task).mp party
  rcases merged k before task party with was | left
  · exact Or.inl (h.keepsMerge ok (keeps k) fills.row fills.filled before party was)
  · exact Or.inr left

theorem Store.Over.stepped (past : σ.store.Over trip) (h : Stepped cfg env σ a s')
    (ok : σ.store.Ok) : s'.Over trip := by
  obtain ⟨g, fills, ended⟩ := past
  obtain ⟨g', fills', -, leads, -⟩ := fills.stepped h ok
  refine ⟨g', fills', ?_⟩
  by_contra active
  rw [Bool.not_eq_false] at active
  rw [leads.active active] at ended
  cases ended

theorem TripPc.Sound.stepped {pc : TripPc} (sound : pc.Sound kept σ.store)
    (h : Stepped cfg env σ a s') (ok : σ.store.Ok) (keeps : kept → KeepsMerges σ (env, a)) :
    pc.Sound kept s' := by
  cases pc with
  | next trip => exact Store.Drives.stepped sound h ok keeps
  | phaseC trip task i => exact ⟨sound.1, Store.Drives.stepped sound.2 h ok keeps⟩
  | broken trip | raised trip =>
      obtain ⟨g, fills⟩ := sound
      obtain ⟨g', fills', -⟩ := fills.stepped h ok
      exact ⟨g', fills'⟩
  | complete trip reply => exact Store.Over.stepped sound h ok
  | recover | arrive | ended => trivial

end Persist

/-! ## The cuts of a driver -/

section Cuts

variable {now : Time} {trip : Trip}

/-- What is filled goes into the plan, unless it is merged. -/
theorem barrierEvalLive_fills {b₁ : Barrier} {plan : List TripStep} (hb : b₁ ∈ s.barriers)
    (key : b₁.key = b.key) (whole : deadParties s b = [])
    (h : barrierEvalLive now true s b = .ok (s', some plan)) :
    ∃ g ∈ s'.barriers, g.key = b.key ∧ g.state = .TRIPPING ∧
      ∀ task, s'.Party g task → s'.WasMerged task ∨ task ∈ plan.map TripStep.taskId := by
  rw [barrierEvalLive] at h
  split at h
  · rw [Outcome.bind_eq_ok] at h
    obtain ⟨s₂, -, h⟩ := h
    cases h
  split at h
  · rw [Outcome.bind_eq_ok] at h
    obtain ⟨state, advance, h⟩ := h
    cases advance
    cases h
    have id : b₁.barrierId = b.barrierId := congrArg Prod.fst key
    refine ⟨_, Table.mem_modify.mpr (Or.inr ⟨b₁, hb, id, rfl⟩), key, rfl, fun task party => ?_⟩
    have party : PartyTo s.barrierParties b.key task := key ▸ party
    obtain ⟨p, hp, rfl⟩ := partyTo_iff.mp party
    -- nobody is dead, so the party is alive, and in the plan unless it is merged
    have alive : partyAlive s p = true := by
      by_contra dead
      have mem : p ∈ deadParties s b := List.mem_filter.mpr ⟨hp, by simpa using dead⟩
      rw [whole] at mem
      cases mem
    by_cases merged : (s.getTask p.taskId).map Task.state = some .MERGED
    · exact Or.inl (Store.wasMerged_of_get merged)
    · refine Or.inr (List.mem_map.mpr ⟨⟨p.taskId, p.arriveFence⟩, ?_, rfl⟩)
      refine List.mem_map.mpr ⟨p, List.mem_filter.mpr ⟨?_, decide_eq_true merged⟩, rfl⟩
      exact List.mem_filter.mpr ⟨hp, alive⟩
  · cases h

/-- The parties that are left when the dead are shed are alive. -/
theorem deadParties_shrinkBarrier : deadParties (shrinkBarrier s b) b = [] := by
  refine List.filter_eq_nil_iff.mpr fun p hp => ?_
  obtain ⟨hp, id, generation⟩ := mem_partiesOf.mp hp
  obtain ⟨hp, kept⟩ := List.mem_filter.mp hp
  have same : partyAlive (shrinkBarrier s b) p = partyAlive s p := rfl
  rw [same]
  simp only [Bool.not_eq_true, Bool.not_eq_false']
  by_contra dead
  have mem : p.taskId ∈ (deadParties s b).map BarrierParty.taskId := by
    refine List.mem_map_of_mem (List.mem_filter.mpr ⟨?_, by simpa using dead⟩)
    exact mem_partiesOf.mpr ⟨hp, id, generation⟩
  simp [id, generation, mem] at kept

theorem barrierEval_fills {id : BarrierId} {plan : List TripStep}
    (found : s.getBarrier id = some b) (h : barrierEval now s id true = .ok (s', some plan)) :
    ∃ g ∈ s'.barriers, g.key = b.key ∧ g.state = .TRIPPING ∧
      ∀ task, s'.Party g task → s'.WasMerged task ∨ task ∈ plan.map TripStep.taskId := by
  rw [barrierEval, found] at h
  dsimp only at h
  split at h
  · cases h
  split at h
  · rename_i whole
    exact barrierEvalLive_fills (Table.mem_of_get found) rfl whole h
  split at h
  · have shed : { b with parties := (liveParties s b).length } ∈ (shrinkBarrier s b).barriers :=
      Table.mem_modify.mpr (Or.inr ⟨b, Table.mem_of_get found, rfl, rfl⟩)
    exact barrierEvalLive_fills shed rfl deadParties_shrinkBarrier h
  · rw [Outcome.bind_eq_ok] at h
    obtain ⟨s₂, -, h⟩ := h
    cases h

theorem arriveBody_drives {q : ArriveArgs} {x : Store × Result} (ok : s.Ok)
    (h : arriveBody cfg now s q = .ok (x, some trip)) : x.1.Drives kept trip trip.left := by
  rw [arriveBody, Outcome.bind_eq_ok] at h
  obtain ⟨s₁, swept, h⟩ := h
  have sweep : Moves ⟨cfg, now, fun _ => True⟩ s s₁ :=
    sweepInline_takes trivial ⟨trivial, fun _ => trivial⟩ (fun _ _ => trivial) swept ok
  have ok₁ : s₁.Ok := ok.moves sweep
  split at h
  · cases h
  split at h
  · cases h
  rename_i b named
  have hb : b ∈ s₁.barriers := (barrierByName_spec.1 b named).1
  have found : s₁.getBarrier b.barrierId = some b := ok₁.barrierIds.get_eq_some.mpr ⟨hb, rfl⟩
  split at h
  · cases h
  · cases h
  · cases h
  · cases h
  rw [arriveArmed] at h
  split at h
  · cases h
  split at h
  · cases h
  split at h
  · cases h
  rw [Outcome.bind_eq_ok] at h
  obtain ⟨⟨s₂, plan⟩, evaluated, h⟩ := h
  dsimp only at h
  split at h <;> cases h
  obtain ⟨g, hg, key, tripping, merged⟩ :=
    barrierEval_fills (s := markArrived s₁ b q _) found evaluated
  refine ⟨g, ⟨hg, congrArg Prod.fst key, congrArg (fun k => k.2.2) key, ?_⟩, fun _ _ => merged⟩
  rw [tripping]
  decide

theorem barrierArrive_drives {q : ArriveArgs} {x : Store × Reply} (ok : s.Ok)
    (h : barrierArrive cfg now s q = .ok (x, some trip)) : x.1.Drives kept trip trip.left := by
  unfold barrierArrive at h
  split at h
  · rw [Outcome.bind_eq_ok] at h
    obtain ⟨⟨y, trip'⟩, h₁, h⟩ := h
    cases h
    exact arriveBody_drives ok h₁
  · rw [Outcome.bind_eq_ok] at h
    obtain ⟨hit, entered, h⟩ := h
    cases hit with
    | inl reply => cases h
    | inr s₁ =>
        rw [Outcome.bind_eq_ok] at h
        obtain ⟨⟨y, trip'⟩, h₁, h⟩ := h
        rw [Outcome.bind_eq_ok] at h
        obtain ⟨s₃, exited, h⟩ := h
        cases h
        obtain ⟨g, fills, merged⟩ := arriveBody_drives (enterIdem_apart ok entered).2 h₁
        rw [exitIdem_eq exited]
        exact ⟨g, ⟨fills.row, fills.id, fills.generation, fills.filled⟩, merged⟩

/-! ### The merge of one party -/

theorem Micros.stays (h : Micros c E s s') (ok : s.Ok)
    (none_ : ∀ t, ¬ c.may (.archive t)) {t : Task}
    (ht : t ∈ s.tasks) : ∃ t' ∈ s'.tasks, t'.taskId = t.taskId := by
  refine (Micros.invariant (I := fun s => ∃ t' ∈ s.tasks, t'.taskId = t.taskId)
    (fun s₁ s₂ ok₁ ih step => ?_) h ok ⟨t, ht, rfl⟩).2
  obtain ⟨t₁, ht₁, id⟩ := ih
  rcases (step.tasks ok₁).forth ht₁ ok₁ with ⟨t₂, ht₂, change⟩ | ⟨may, -⟩
  · exact ⟨t₂, ht₂, change.id.trans id⟩
  · exact absurd may (none_ t₁)

theorem Moves.wasMerged (h : Moves c s s') (ok : s.Ok) (no : ¬ c.may (.overwrite task))
    (was : s.WasMerged task) : s'.WasMerged task := by
  refine (Moves.invariant (I := fun s => s.WasMerged task) (fun s₁ s₂ ok₁ ih move => ?_) h ok was).2
  refine move.invariant (I := fun s => s.WasMerged task) (fun c' E s₃ s₄ within ok₃ ih change => ?_)
    ok₁ ih
  refine change.wasMerged ok₃ (fun may => ?_) ih
  rcases within.may _ may with may | ⟨sem, other⟩
  · exact no may
  · cases other

theorem connectRollback_refused {token : OrbitId} {err : ConnectError} {r : Reply}
    (h : connectRollback cfg now s task token err = .ok (s', r)) : r.ok = some false := by
  rw [connectRollback, Outcome.bind_eq_ok] at h
  obtain ⟨s₁, -, h⟩ := h
  rw [Outcome.bind_eq_ok] at h
  obtain ⟨s₂, -, h⟩ := h
  rw [Outcome.bind_eq_ok] at h
  obtain ⟨s₃, -, h⟩ := h
  dsimp only at h
  split at h <;> (cases h; rfl)

/-- A Phase C that answers ok has merged its task. -/
theorem connectPhaseC_merged {i : Intent} {p : GitProof} {r : Reply} (ok : s.Ok)
    (h : connectPhaseC cfg now s i p = .ok (s', r)) (yes : r.ok = some true) :
    s'.WasMerged i.taskId := by
  rw [connectPhaseC] at h
  split at h
  · cases h
    cases yes
  rename_i owns
  have owns : ownsAttempt s i = true := by simpa using owns
  split at h
  · cases h
    cases yes
  split at h
  · split at h
    · cases h
      cases yes
    · obtain ⟨t, found, connecting, columns⟩ := ownsAttempt_task owns
      have htoken : t.connectTokenId = some i.tokenId := congrArg (·.2.2.2) columns
      obtain ⟨ht, id⟩ := ok.getTask.mp found
      rw [connectMerge, Outcome.bind_eq_ok] at h
      obtain ⟨s₁, h₁, h⟩ := h
      rw [Outcome.bind_eq_ok] at h
      obtain ⟨s₂, h₂, h⟩ := h
      rw [Outcome.bind_eq_ok] at h
      obtain ⟨s₃, h₃, h⟩ := h
      rw [Outcome.bind_eq_ok] at h
      obtain ⟨s₄, h₄, h⟩ := h
      cases h
      rw [← id] at h₁ h₂ h₄ ⊢
      obtain ⟨focus, merged⟩ := mergeGroup (c := .marking now t.taskId) rfl ht connecting htoken
        (ownsAttempt_token owns ok) h₁ h₂ h₃ ok
      have run := (focus ok).1
      obtain ⟨t', ht', same⟩ := run.stays ok (fun _ may => by cases may) ht
      have was : (s₃.setFlag t.taskId "merged" none).WasMerged t.taskId :=
        Store.Merged.was ⟨t', ht', same, merged t' ht' same⟩
      have reconciled : Takes ⟨cfg, now, fun d => d = .agents ∨ ∃ a, d = .zombie a⟩ _ s' :=
        reconcileAdmission_takes (Or.inl rfl) (fun a _ => Or.inr ⟨a, rfl⟩) h₄
      exact (reconciled (ok.micros run)).wasMerged (ok.micros run) (by simp) was
  · cases h
    cases yes
  · split at h
    · cases h
      cases yes
    · rw [connectRollback_refused h] at yes
      cases yes

/-! ### The next cut of a trip -/

theorem barrierGates_refused {git : Option GitView} {t : Task} {fence : Option ℕ} {r : Reply}
    (h : barrierGates git s t fence = .inl r) : r.ok = some false := by
  rw [barrierGates] at h
  split at h
  · cases h
    rfl
  split at h
  · cases h
    rfl
  dsimp only at h
  split at h <;> cases h
  rfl

theorem openAttempt_refused {env : Env} {t : Task} {owner : AgentId} {candidate : Candidate}
    {request : Option BoundRequest} {busy : String} {p : PhaseA}
    (h : openAttempt env s t owner candidate request busy = .ok (s', p)) (none_ : p.intent = none) :
    p.reply.ok = some false := by
  rw [openAttempt] at h
  dsimp only at h
  split at h
  · cases h
    rfl
  rw [Outcome.bind_eq_ok] at h
  obtain ⟨next, -, h⟩ := h
  cases next with
  | none =>
      dsimp only at h
      rw [Outcome.bind_eq_ok] at h
      obtain ⟨s₁, -, h⟩ := h
      cases h
      rfl
  | some state =>
      dsimp only at h
      rw [Outcome.bind_eq_ok] at h
      obtain ⟨s₁, -, h⟩ := h
      cases h
      cases none_

/-- What Phase A of a barrier says without an intent: it stopped, the task is merged, or no. -/
theorem barrierConnectPhaseA_answers {env : Env} {fence : Option ℕ} {id : BarrierId}
    {generation : ℕ}
    {p : TripA} (h : barrierConnectPhaseA env s task fence id generation = .ok (s', p))
    (none_ : p.phase.intent = none) :
    (p.stopped = true → ownsTrip (s.getBarrier id) generation = false) ∧
      (p.stopped = false → p.phase.reply.ok = some true → s.Merged task) := by
  rw [barrierConnectPhaseA] at h
  split at h
  · rename_i lost
    cases h
    exact ⟨fun _ => by simpa using lost, fun other => by (cases other)⟩
  split at h
  · cases h
    exact ⟨fun other => by (cases other), fun _ yes => by (cases yes)⟩
  rename_i t found
  split at h
  · rename_i reply gate
    cases h
    refine ⟨fun other => by (cases other), fun _ yes => ?_⟩
    rw [connectTaskGate] at gate
    split at gate
    · rename_i merged
      exact ⟨t, Table.mem_of_get found, Table.key_of_get found, merged⟩
    split at gate
    · cases gate
      cases yes
    · cases gate
  split at h
  · rename_i reply gate
    cases h
    refine ⟨fun other => by (cases other), fun _ yes => ?_⟩
    cases (barrierGates_refused gate).symm.trans yes
  · dsimp only at h
    rw [Outcome.bind_eq_ok] at h
    obtain ⟨⟨s₁, a⟩, opened, h⟩ := h
    cases h
    refine ⟨fun other => by (cases other), fun _ yes => ?_⟩
    cases (openAttempt_refused opened none_).symm.trans yes

/-- A generation that was filled, and no trip owns, is over. -/
theorem Store.Fills.past {g : Barrier} (fills : s.Fills trip g) (ok : s.Ok)
    (lost : ownsTrip (s.getBarrier trip.barrierId) trip.generation = false) : s.Over trip := by
  refine ⟨g, fills, ?_⟩
  have found : s.getBarrier trip.barrierId = some g :=
    ok.barrierIds.get_eq_some.mpr ⟨fills.row, fills.id⟩
  have filled := fills.filled
  rw [found, ownsTrip] at lost
  cases hs : g.state <;> simp_all [BarrierState.active, fills.generation]

/-! ### The ends of a trip -/

theorem Store.Over.apart (past : s.Over trip) (h : Apart s s') : s'.Over trip := by
  obtain ⟨g, fills, ended⟩ := past
  have rows : s'.barriers = s.barriers := by rw [h]
  exact ⟨g, ⟨rows ▸ fills.row, fills.id, fills.generation, fills.filled⟩, ended⟩

/-- A generation that is set to a state in which it has ended is over. -/
theorem Store.Fills.set_over {g : Barrier} (fills : s.Fills trip g) {f : Barrier → Barrier}
    (key : (f g).key = g.key) (ended : (f g).state.active = false) :
    (s.setBarrier trip.barrierId f).Over trip := by
  refine ⟨f g, ⟨Table.mem_modify.mpr (Or.inr ⟨g, fills.row, fills.id, rfl⟩), ?_, ?_, ?_⟩, ended⟩
  · exact (congrArg Prod.fst key).trans fills.id
  · exact (congrArg (fun k => k.2.2) key).trans fills.generation
  · intro armed
    rw [armed] at ended
    cases ended

theorem Store.Fills.break_over {g : Barrier} {reason : String} (fills : s.Fills trip g)
    (h : breakBarrier s g reason = .ok s') : s'.Over trip := by
  rw [breakBarrier] at h
  split at h
  · rename_i ended
    cases h
    refine ⟨g, fills, ?_⟩
    rcases ended with ended | ended | ended <;> (rw [ended]; rfl)
  · rw [Outcome.bind_eq_ok] at h
    obtain ⟨state, advance, h⟩ := h
    cases h
    rw [fills.id]
    refine fills.set_over rfl ?_
    show state.active = false
    cases hs : g.state <;> rw [hs] at advance <;> cases advance <;> rfl

theorem Store.Fills.get {g : Barrier} (fills : s.Fills trip g) (ok : s.Ok) :
    s.getBarrier trip.barrierId = some g :=
  ok.barrierIds.get_eq_some.mpr ⟨fills.row, fills.id⟩

theorem finishTrip_over {g : Barrier} {r : Reply} (fills : s.Fills trip g) (ok : s.Ok)
    (h : finishTrip s trip = .ok (s', r)) : s'.Over trip := by
  rw [finishTrip] at h
  dsimp only at h
  split at h
  · rw [Outcome.bind_eq_ok] at h
    obtain ⟨state, advance, h⟩ := h
    cases advance
    cases h
    exact fills.set_over rfl rfl
  · rename_i lost
    cases h
    exact fills.past ok (by simpa using lost)

theorem breakTrip_over {g : Barrier} (fills : s.Fills trip g) (ok : s.Ok)
    (h : breakTrip s trip = .ok s') : s'.Over trip := by
  rw [breakTrip, fills.get ok] at h
  dsimp only at h
  split at h
  · exact fills.break_over h
  · rename_i ended
    cases h
    refine ⟨g, fills, ?_⟩
    cases hs : g.state <;> simp [hs, BarrierState.active] at ended ⊢

theorem tripEnded_over {merged : List TaskId} (past : s₁.Over trip)
    (h : (match (s₁.getBarrier trip.barrierId).map Barrier.state with
      | some .TRIPPED => do
          let r ← finishSplitIdemTerminal now s₁ trip.args.requestId (some trip.args.agentId)
            trip.args.idemArgs { ok := some true, state := some (.barrier .TRIPPED),
                                 gen := some trip.generation, tasks := merged }
          .ok r.1
      | some .CONSUMED => do
          let r ← finishSplitIdemTerminal now s₁ trip.args.requestId (some trip.args.agentId)
            trip.args.idemArgs { ok := some true, state := some (.barrier .CONSUMED),
                                 gen := some trip.generation, tasks := merged }
          .ok r.1
      | some .BROKEN => do
          let r ← finishSplitIdemTerminal now s₁ trip.args.requestId (some trip.args.agentId)
            trip.args.idemArgs { ok := some false, state := some (.barrier .BROKEN),
                                 gen := some trip.generation, tasks := merged }
          .ok r.1
      | _ => .ok s₁ : Except Fault Store) = .ok s') : s'.Over trip := by
  have finish {reply : Reply} (h : (do
      let r ← finishSplitIdemTerminal now s₁ trip.args.requestId (some trip.args.agentId)
        trip.args.idemArgs reply
      .ok r.1 : Except Fault Store) = .ok s') : s'.Over trip := by
    rw [Outcome.bind_eq_ok] at h
    obtain ⟨⟨s₂, r⟩, finished, h⟩ := h
    cases h
    have requested : Requested ⟨{}, now, fun _ => True⟩ s₁ s₂ :=
      finishSplitIdemTerminal_requested (fun _ _ => trivial) finished
    exact past.apart requested.apart
  split at h
  · exact finish h
  · exact finish h
  · exact finish h
  · cases h
    exact past

theorem terminalizeTrip_over {g : Barrier} (fills : s.Fills trip g) (ok : s.Ok)
    (h : terminalizeTrip now s trip = .ok s') : s'.Over trip := by
  rw [terminalizeTrip, fills.get ok] at h
  dsimp only at h
  split at h
  · rw [Outcome.bind_eq_ok] at h
    obtain ⟨state, advance, h⟩ := h
    cases advance
    exact tripEnded_over (fills.set_over rfl rfl) h
  split at h
  · rw [Outcome.bind_eq_ok] at h
    obtain ⟨s₁, broken, h⟩ := h
    exact tripEnded_over (fills.break_over broken) h
  · rename_i ended
    refine tripEnded_over ⟨g, fills, ?_⟩ h
    cases hs : g.state <;> simp [hs, BarrierState.active] at ended ⊢

end Cuts

/-- The next cut of a trip leaves its call with what it goes by. -/
theorem tripNext_sound {trip : Trip} {pc' : TripPc} {input : Input} (ok : σ.store.Ok)
    (left : Stepped cfg env σ a s') (keeps : kept → KeepsMerges σ (env, a))
    (drives : σ.store.Drives kept trip trip.left)
    (h : tripNext env input σ.store trip = .ok (s', pc')) : pc'.Sound kept s' := by
  have later : s'.Drives kept trip trip.left := drives.stepped left ok keeps
  obtain ⟨g, fills, merged⟩ := drives
  rw [tripNext] at h
  split at h
  · rw [Outcome.bind_eq_ok] at h
    obtain ⟨⟨s₁, r⟩, finished, h⟩ := h
    cases h
    exact finishTrip_over fills ok finished
  rename_i step rest plan
  rw [Outcome.bind_eq_ok] at h
  obtain ⟨⟨s₁, p⟩, phaseA, h⟩ := h
  have shape : trip.left = step.taskId :: rest.map TripStep.taskId := by
    rw [Trip.left, plan, List.map_cons]
  dsimp only at h
  split at h
  · rename_i i intent
    cases h
    have names : i.taskId = step.taskId := by
      rcases barrierConnectPhaseA_spec (c := ⟨cfg, env.now, fun _ => True⟩) phaseA ok with
        ⟨none_, -⟩ | ⟨t, j, task, some_, opened⟩
      · rw [none_] at intent
        cases intent
      · rw [some_] at intent
        cases intent
        exact opened.task.trans task
    obtain ⟨g', fills', merged'⟩ := later
    rw [shape] at merged'
    exact ⟨names, g', fills'.of rfl rfl, merged'⟩
  · rename_i none_
    obtain ⟨stopped, answered⟩ := barrierConnectPhaseA_answers phaseA none_
    split at h
    · rename_i yes
      cases h
      exact (fills.past ok (stopped yes)).stepped left ok
    rename_i no
    have no : p.stopped = false := by simpa using no
    split at h
    · rename_i yes
      cases h
      have done : σ.store.Merged step.taskId := answered no yes
      obtain ⟨g', fills', merged'⟩ := later
      refine ⟨g', fills'.of rfl rfl, fun k whole task party => ?_⟩
      rcases merged' k whole task party with was | mem
      · exact Or.inl was
      rw [shape] at mem
      rcases List.mem_cons.mp mem with rfl | mem
      · obtain ⟨t', ht', id, merged⟩ := done
        obtain ⟨g₁, fills₁, key, leads, same⟩ := fills.stepped left ok
        have one : g₁ = g' := (left.ok ok).barrier_eq fills₁.row fills'.row
          (fills₁.id.trans fills'.id.symm)
        subst one
        refine Or.inl (left.keepsMerge ok (keeps k) fills.row fills.filled ?_ ((same _).mp party)
          (Store.Merged.was ⟨t', ht', id, merged⟩))
        intro broken
        rw [broken] at leads
        exact whole leads.eq_broken
      · exact Or.inr mem
    split at h
    · cases h
      exact later
    · cases h
      obtain ⟨g', fills', -⟩ := later
      exact ⟨g', fills'⟩

/-- A cut of a `barrier_arrive` leaves its call with what it goes by. -/
theorem arriveStep_sound {q : ArriveArgs} {pc pc' : TripPc} {input : Input} (ok : σ.store.Ok)
    (left : Stepped cfg env σ a s') (keeps : kept → KeepsMerges σ (env, a))
    (sound : pc.Sound kept σ.store)
    (h : arriveStep cfg env input σ.store q pc = .ok (s', pc')) : pc'.Sound kept s' := by
  cases pc with
  | recover =>
      rw [arriveStep, Outcome.bind_eq_ok] at h
      obtain ⟨s₁, -, h⟩ := h
      cases h
      trivial
  | arrive =>
      rw [arriveStep, Outcome.bind_eq_ok] at h
      obtain ⟨⟨x, trip⟩, arrived, h⟩ := h
      cases trip with
      | none =>
          cases h
          trivial
      | some trip =>
          cases h
          exact barrierArrive_drives ok arrived
  | next trip =>
      rw [arriveStep] at h
      split at h
      · rename_i r next
        cases h
        exact tripNext_sound ok left keeps sound next
      · cases h
        obtain ⟨g, fills, -⟩ := sound
        exact ⟨g, fills⟩
  | phaseC trip task i =>
      obtain ⟨id, drives⟩ := sound
      have later : s'.Drives kept trip (task :: trip.left) := drives.stepped left ok keeps
      rw [arriveStep] at h
      split at h
      · rename_i r completed
        split at h
        · rename_i yes
          cases h
          obtain ⟨g, fills, merged⟩ := later
          refine ⟨g, fills.of rfl rfl, fun k whole task' party => ?_⟩
          rcases merged k whole task' party with was | mem
          · exact Or.inl was
          · rcases List.mem_cons.mp mem with rfl | mem
            · exact Or.inl (id ▸ connectPhaseC_merged ok completed yes)
            · exact Or.inr mem
        · cases h
          obtain ⟨g, fills, -⟩ := later
          exact ⟨g, fills⟩
      · cases h
        obtain ⟨g, fills, -⟩ := later
        exact ⟨g, fills⟩
  | broken trip =>
      obtain ⟨g, fills⟩ := sound
      rw [arriveStep, Outcome.bind_eq_ok] at h
      obtain ⟨s₁, broken, h⟩ := h
      cases h
      exact breakTrip_over fills ok broken
  | raised trip =>
      rw [arriveStep, Outcome.bind_eq_ok] at h
      obtain ⟨s₁, -, h⟩ := h
      cases h
      trivial
  | complete trip reply =>
      rw [arriveStep, Outcome.bind_eq_ok] at h
      obtain ⟨⟨s₁, r⟩, -, h⟩ := h
      cases h
      trivial
  | ended =>
      cases h
      trivial

/-! ## The calls of a system -/

/-- A call before its first cut. -/
def Proc.Fresh : Proc → Prop
  | .begin _ (.declare _) | .connect _ .recover | .arrive _ .recover | .bail _ _ .recover => True
  | _ => False

theorem Sys.mem_spawn {p p' : Proc} (h : p' ∈ (σ.spawn p).procs) : p' ∈ σ.procs ∨ p' = p := by
  rw [Sys.spawn] at h
  split at h
  · exact Or.inl h
  · simpa using h

/-- The calls after an action were there before it, begin with it, crashed, or took a cut. -/
theorem step_procs {p' : Proc} (h : step cfg env σ a = .ok σ') (hp : p' ∈ σ'.procs) :
    p' ∈ σ.procs ∨ p'.Fresh ∨ p' = .crashed ∨
      ∃ p input, σ.Cut a p input ∧ procStep cfg env input σ.store p = .ok (σ'.store, p') := by
  have spawned {p : Proc} (fresh : p.Fresh) (hp : p' ∈ (σ.spawn p).procs) :
      p' ∈ σ.procs ∨ p'.Fresh := by
    rcases Sys.mem_spawn hp with hp | rfl
    · exact Or.inl hp
    · exact Or.inr fresh
  have quiet {s₁ : Store} (h : .ok { σ with store := s₁ } = (.ok σ' : Except Fault Sys)) :
      p' ∈ σ.procs := by
    rw [← Except.ok.inj h] at hp
    exact hp
  cases a with
  | call v =>
      rw [step, Outcome.bind_eq_ok] at h
      obtain ⟨⟨s₁, r⟩, -, h⟩ := h
      exact Or.inl (quiet h)
  | begin args =>
      rw [step] at h
      split at h
      · exact Or.inl (quiet h)
      · cases h
        rcases List.mem_append.mp hp with hp | hp
        · exact Or.inl hp
        · cases List.mem_singleton.mp hp
          exact Or.inr (Or.inl trivial)
  | connect args =>
      rw [step] at h
      split at h
      · exact Or.inl (quiet h)
      · cases h
        exact (spawned (p := .connect args .recover) trivial hp).imp_right Or.inl
  | arrive args =>
      cases h
      exact (spawned (p := .arrive args .recover) trivial hp).imp_right Or.inl
  | bail agent id =>
      cases h
      exact (spawned (p := .bail agent id .recover) trivial hp).imp_right Or.inl
  | recover =>
      rw [step] at h
      split at h
      · exact Or.inl (quiet h)
      · rw [Outcome.bind_eq_ok] at h
        obtain ⟨s₁, -, h⟩ := h
        exact Or.inl (quiet h)
  | resume i input =>
      rw [step] at h
      split at h
      · exact Or.inl (quiet h)
      · rename_i p hi
        rw [Outcome.bind_eq_ok] at h
        obtain ⟨⟨s₁, p₁⟩, cut, h⟩ := h
        cases h
        rcases List.mem_or_eq_of_mem_set hp with hp | rfl
        · exact Or.inl hp
        · exact Or.inr (Or.inr (Or.inr ⟨p, input, ⟨i, rfl, hi⟩, cut⟩))
  | crash i =>
      rw [step] at h
      split at h
      · exact Or.inl (quiet h)
      · cases h
        rcases List.mem_or_eq_of_mem_set hp with hp | rfl
        · exact Or.inl hp
        · exact Or.inr (Or.inr (Or.inl rfl))

/-- What the calls that drive trips go by. -/
def Sys.Driven (kept : Prop) (σ : Sys) : Prop :=
  ∀ q pc, Proc.arrive q pc ∈ σ.procs → pc.Sound kept σ.store

theorem Sys.Driven.step (driven : σ.Driven kept) (ok : σ.Ok)
    (keeps : kept → KeepsMerges σ (env, a)) (h : step cfg env σ a = .ok σ') : σ'.Driven kept := by
  have left := (step_spec ok h).1
  intro q pc hp
  rcases step_procs h hp with old | fresh | crashed | ⟨p, input, cut, next⟩
  · exact (driven q pc old).stepped left ok.store keeps
  · cases pc with
    | recover => trivial
    | _ => cases fresh
  · cases crashed
  · cases p with
    | arrive q' pc₀ =>
        rw [procStep, Outcome.bind_eq_ok] at next
        obtain ⟨⟨s₁, pc₁⟩, next, eq⟩ := next
        cases eq
        exact arriveStep_sound ok.store left keeps (driven q pc₀ cut.mem) next
    | begin b pc₀ | connect b pc₀ | bail b id pc₀ =>
        rw [procStep, Outcome.bind_eq_ok] at next
        obtain ⟨⟨s₁, pc₁⟩, -, eq⟩ := next
        simp at eq
    | crashed => simp [procStep] at next

/-- The parties of the generation of a trip that may be ended were merged. -/
theorem Sys.Driven.merged {id : BarrierId} (driven : σ.Driven True) (ok : σ.Ok)
    (may : Licence cfg env σ a (.trip id)) (hb : b ∈ σ.store.barriers) (bid : b.barrierId = id)
    (tripping : b.state = .TRIPPING) (party : σ.store.Party b task) : σ.store.WasMerged task := by
  have one {trip : Trip} {g : Barrier} (fills : σ.store.Fills trip g)
      (same : trip.barrierId = id) : b = g :=
    ok.store.barrier_eq hb fills.row (bid.trans (same.symm.trans fills.id.symm))
  generalize deed : Deed.trip id = d at may
  cases may with
  | trip cut plan =>
      cases deed
      obtain ⟨g, fills, merged⟩ := driven _ _ cut.mem
      cases one fills rfl
      rw [Trip.left, plan] at merged
      rcases merged trivial (by simp [tripping]) task party with was | left
      · exact was
      · cases left
  | raised cut merged =>
      cases deed
      obtain ⟨g, fills⟩ := driven _ _ cut.mem
      cases one fills rfl
      obtain ⟨p, hp, rfl⟩ := partyTo_iff.mp party
      refine Store.wasMerged_of_get (merged p ?_)
      rw [← fills.id, ← fills.generation]
      exact hp
  | _ => cases deed

/-- In a run that keeps merges a step keeps that what has tripped is merged. -/
theorem step_tripsMerged (ok : σ.Ok) (driven : σ.Driven True) (trips : σ.store.TripsMerged)
    (keeps : KeepsMerges σ (env, a)) (h : step cfg env σ a = .ok σ') : σ'.store.TripsMerged := by
  by_cases cut : ∃ b claims state input, σ.Cut a (.begin b (.ready claims state)) input
  · obtain ⟨b, claims, state, input, cut⟩ := cut
    have spares := keeps b claims state input cut
    obtain ⟨i, rfl, found⟩ := cut
    rw [step_beginReady found h]
    intro g hg tripped task party
    have was := trips g hg tripped task party
    rcases Store.wasMerged_iff.mp was with live | ⟨t, ht, id, merged⟩
    · obtain ⟨t, ht, rfl, merged⟩ := live
      by_cases id : t.taskId = b.taskId
      · -- a begin would take the merge back
        exfalso
        rcases spares ⟨t, ht, id, merged⟩ g hg (id ▸ party) with armed | broken
        · exact BarrierState.ne_armed_of_tripped tripped armed
        · rw [broken] at tripped
          cases tripped
      · exact Store.Merged.was ⟨t, Table.mem_modify.mpr (Or.inl ⟨ht, id⟩), rfl, merged⟩
    · exact ⟨t, List.mem_append_right _ ht, id, merged⟩
  · have left := (step_spec ok h).1
    have no (task : TaskId) : ¬ Licence cfg env σ a (.overwrite task) := by
      intro may
      cases may with
      | overwrite found => exact cut ⟨_, _, _, _, found⟩
    refine (left.invariant (I := fun s => (σ.store.Fixes s ∧
      ∀ task, σ.store.WasMerged task → s.WasMerged task) ∧ s.TripsMerged)
      (fun may E s₁ s₂ licensed ok₁ ih change => ?_) ok.store
      ⟨⟨.refl _, fun _ was => was⟩, trips⟩).2
    obtain ⟨⟨fixes, still⟩, ih⟩ := ih
    have stays (task : TaskId) : s₁.WasMerged task → s₂.WasMerged task :=
      change.wasMerged ok₁ fun may => no task (licensed _ may)
    refine ⟨⟨fixes.trans (change.fixes ok₁), fun task was => stays task (still task was)⟩, ?_⟩
    refine change.tripsMerged ok₁ (fun id may => no id (licensed _ may)) ih ?_
    intro id may b hb bid tripping task party
    have may := licensed _ may
    obtain ⟨g, hg, gid, filled⟩ : ∃ g ∈ σ.store.barriers, g.barrierId = id ∧ g.state ≠ .ARMED := by
      generalize deed : Deed.trip id = d at may
      cases may with
      | trip cut plan =>
          cases deed
          obtain ⟨g, fills, -⟩ := driven _ _ cut.mem
          exact ⟨g, fills.row, fills.id, fills.filled⟩
      | raised cut merged =>
          cases deed
          obtain ⟨g, fills⟩ := driven _ _ cut.mem
          exact ⟨g, fills.row, fills.id, fills.filled⟩
      | _ => cases deed
    obtain ⟨b', hb', key, leads, same⟩ := fixes g hg
    have one : b' = b := ok₁.barrier_eq hb' hb
      ((congrArg Prod.fst key).trans (gid.trans bid.symm))
    subst one
    have before : g.state = .TRIPPING := by
      have active := leads.active (by rw [tripping]; rfl)
      cases hs : g.state <;> simp_all [BarrierState.active]
    rw [Store.Party, key] at party
    exact still task (driven.merged ok may hg gid before ((same filled task).mp party))

/-! ## Runs -/

/-- In a run where no begin takes back the merge of a party of a generation that trips, every party
of a generation that has tripped was merged, whoever ended the trip. -/
theorem tripped_merged (reach : ReachableBy cfg KeepsMerges σ) (hb : b ∈ σ.store.barriers)
    (tripped : b.state = .TRIPPED ∨ b.state = .CONSUMED) (party : σ.store.Party b task) :
    σ.store.WasMerged task := by
  suffices (σ.Ok ∧ σ.Driven True) ∧ σ.store.TripsMerged from
    this.2 b hb (by rcases tripped with h | h <;> (rw [h]; rfl)) task party
  refine Transition.Run.invariant (I := fun τ => (τ.Ok ∧ τ.Driven True) ∧ τ.store.TripsMerged)
    (fun τ l τ' ih keeps next => ?_) reach ⟨⟨.empty, fun q pc hp => (by cases hp)⟩,
      fun b hb => (by cases hb)⟩
  obtain ⟨⟨ok, driven⟩, trips⟩ := ih
  exact ⟨⟨(step_spec ok next).2, driven.step ok (fun _ => keeps) next⟩,
    step_tripsMerged ok driven trips keeps next⟩

/-- A task that is alone at its barrier. -/
def arriveAlone : ArriveArgs := { name := "x", agentId := "A", taskId := "T" }

/-- The task is started and arrives, and its call goes on up to its last cut. -/
def tripAlone : List (Env × Action) :=
  (Action.begin { taskId := "T", agentId := "A", writes := ["a"] }).at 1 ::
    List.replicate 6 ((Action.resume 0 {}).at 1) ++
    (Action.call (.barrierDeclare "x" ["T"] .break_ none)).at 2 ::
    (Action.arrive arriveAlone).at 3 ::
    List.replicate 5 ((Action.resume 1 {}).at 3)

/-- A begin that is about to write `READY`. -/
def Proc.readies : Proc → Bool
  | .begin _ (.ready _ _) => true
  | _ => false

/-- No begin is about to write next to a barrier. -/
def readiesBefore (σ : Sys) (_ : Env × Action) : Bool :=
  σ.store.barriers.isEmpty || !σ.procs.any Proc.readies

theorem readiesBefore_sound (h : readiesBefore σ l = true) : KeepsMerges σ l := by
  intro b claims state input cut _ g hg _
  exfalso
  rcases Bool.or_eq_true_iff.mp h with empty | none_
  · rw [List.isEmpty_iff.mp empty] at hg
    cases hg
  · rw [Bool.not_eq_true', List.any_eq_false] at none_
    exact none_ _ cut.mem rfl

theorem tripped_merged_alone : ∃ σ b, ReachableBy {} KeepsMerges σ ∧ b ∈ σ.store.barriers ∧
    σ.store.Party b "T" ∧ σ.store.WasMerged "T" := by
  obtain ⟨σ, reach, b, hb, tripped, p, hp, here⟩ : ∃ σ, ReachableBy {} KeepsMerges σ ∧
      ∃ b ∈ σ.store.barriers, b.state = .TRIPPED ∧ ∃ p ∈ σ.store.barrierParties,
        p.barrierId = b.key.1 ∧ p.generation = b.key.2.2 ∧ p.taskId = "T" :=
    exists_reachableWhen tripAlone readiesBefore (fun _ _ => readiesBefore_sound)
      (by decide +kernel)
  exact ⟨σ, b, reach, hb, ⟨p, hp, here⟩, tripped_merged reach hb (Or.inl tripped) ⟨p, hp, here⟩⟩

theorem ReachableBy.driven (reach : Reachable cfg σ) : σ.Driven False := by
  refine (Transition.Run.invariant (I := fun τ => τ.Ok ∧ τ.Driven False)
    (fun τ l τ' ih _ next => ?_) reach ⟨.empty, fun q pc hp => (by cases hp)⟩).2
  exact ⟨(step_spec ih.1 next).2, ih.2.step ih.1 (fun never => never.elim) next⟩

theorem Store.Over.run {trip : Trip} (past : σ.store.Over trip) (ok : σ.Ok)
    (run : Transition.Run (Step cfg) (fun _ _ => True) σ σ') : σ'.store.Over trip := by
  refine (run.invariant (I := fun τ => τ.Ok ∧ τ.store.Over trip) (fun τ l τ' ih _ next => ?_)
    ⟨ok, past⟩).2
  obtain ⟨left, ok'⟩ := step_spec ih.1 next
  exact ⟨ok', ih.2.stepped left ih.1.store⟩

/-- The next cut of a trip is not its last. -/
theorem tripNext_goes {trip : Trip} {input : Input} {pc' : TripPc}
    (h : tripNext env input s trip = .ok (s', pc')) : pc' ≠ .ended := by
  rintro rfl
  rw [tripNext] at h
  split at h
  · rw [Outcome.bind_eq_ok] at h
    obtain ⟨r, -, h⟩ := h
    cases h
  rw [Outcome.bind_eq_ok] at h
  obtain ⟨r, -, h⟩ := h
  dsimp only at h
  split at h
  · cases h
  split at h
  · cases h
  split at h
  · cases h
  split at h <;> cases h

/-- A call that drives a trip and returns leaves the generation at its end, whether the merges of
the plan succeeded, one of them was refused, or one of them raised; and there it stays. -/
theorem trip_ends {i : ℕ} {input : Input} {q : ArriveArgs} {pc : TripPc} {trip : Trip} {τ : Sys}
    (reach : Reachable cfg σ) (found : σ.procs[i]? = some (.arrive q pc))
    (drives : pc.trip = some trip) (next : step cfg env σ (.resume i input) = .ok σ') {p : Proc}
    (there : σ'.procs[i]? = some p) (returned : p.ended = true)
    (run : Transition.Run (Step cfg) (fun _ _ => True) σ' τ) :
    ∃ g ∈ τ.store.barriers, g.barrierId = trip.barrierId ∧ g.generation = trip.generation ∧
      (g.state = .BROKEN ∨ g.state = .TRIPPED ∨ g.state = .CONSUMED) := by
  have ok : σ.Ok := ReachableBy.ok reach
  obtain ⟨left, ok'⟩ := step_spec ok next
  suffices past : σ'.store.Over trip by
    obtain ⟨g, fills, ended⟩ := past.run ok' run
    refine ⟨g, fills.row, fills.id, fills.generation, ?_⟩
    cases hs : g.state <;> simp [hs, BarrierState.active] at ended ⊢
  have sound : pc.Sound False σ.store := ReachableBy.driven reach q pc (List.mem_of_getElem? found)
  rw [step, found] at next
  dsimp only at next
  rw [Outcome.bind_eq_ok] at next
  obtain ⟨⟨s₁, p'⟩, cut, next⟩ := next
  cases next
  rw [procStep, Outcome.bind_eq_ok] at cut
  obtain ⟨⟨s₂, pc'⟩, cut, eq⟩ := cut
  cases eq
  have last : pc' = .ended := by
    have here : i < σ.procs.length := (List.getElem?_eq_some_iff.mp found).1
    have same : Proc.arrive q pc' = p := by simpa [Sys.after, here] using there
    subst same
    cases pc' with
    | ended => rfl
    | _ => cases returned
  subst last
  cases pc with
  | complete trip' reply =>
      cases drives
      exact Store.Over.stepped sound left ok.store
  | raised trip' =>
      cases drives
      obtain ⟨g, fills⟩ := sound
      rw [arriveStep, Outcome.bind_eq_ok] at cut
      obtain ⟨s₃, ended, cut⟩ := cut
      cases cut
      exact terminalizeTrip_over fills ok.store ended
  | next trip' =>
      rw [arriveStep] at cut
      split at cut <;> cases cut
      rename_i cut
      exact absurd rfl (tripNext_goes cut)
  | phaseC trip' task intent =>
      rw [arriveStep] at cut
      split at cut
      · split at cut <;> cases cut
      · cases cut
  | broken trip' =>
      rw [arriveStep, Outcome.bind_eq_ok] at cut
      obtain ⟨r, -, cut⟩ := cut
      cases cut
  | recover | arrive | ended => cases drives

/-- The call drives a trip. -/
def Proc.drives : Proc → Bool
  | .arrive _ pc => pc.trip.isSome
  | _ => false

theorem drives_eq {p : Proc} (h : p.drives = true) :
    ∃ q pc trip, p = .arrive q pc ∧ pc.trip = some trip := by
  unfold Proc.drives at h
  split at h
  · rename_i q pc
    obtain ⟨trip, drives⟩ := Option.isSome_iff_exists.mp h
    exact ⟨q, pc, trip, rfl, drives⟩
  · cases h

theorem trip_ends_alone : ∃ (σ : Sys) (trip : Trip), ∃ g ∈ σ.store.barriers,
    g.barrierId = trip.barrierId ∧ g.generation = trip.generation ∧
      (g.state = .BROKEN ∨ g.state = .TRIPPED ∨ g.state = .CONSUMED) := by
  obtain ⟨σ, reach, driver, last⟩ : ∃ σ, Reachable {} σ ∧ σ.procs[1]?.any Proc.drives = true ∧
      (step {} ((Action.resume 1 {}).at 3).1 σ ((Action.resume 1 {}).at 3).2).toOption.any
        (fun σ' => σ'.procs[1]?.any Proc.ended = true) :=
    exists_reachable tripAlone (by decide +kernel)
  obtain ⟨σ', next, returned⟩ := exists_step last
  obtain ⟨p, found, drives⟩ := (Option.any_eq_true _ _).mp driver
  obtain ⟨p', found', returned⟩ := (Option.any_eq_true _ _).mp returned
  obtain ⟨q, pc, trip, rfl, under⟩ := drives_eq drives
  exact ⟨σ', trip, trip_ends reach found under next found' returned (.refl _)⟩

/-- In every run at most one generation of a name is armed or trips, and it is the last: the
generations of a name grow.  Each goes on with its own life, and once it is filled it keeps its
parties. -/
theorem barrier_rounds (reach : Reachable cfg σ)
    (run : Transition.Run (Step cfg) (fun _ _ => True) σ σ') :
    (σ.store.barriers.Pairwise fun b c => b.name = c.name → b.generation < c.generation) ∧
      (∀ b ∈ σ.store.barriers, b.state.active = true → ∀ c ∈ σ.store.barriers, c.name = b.name →
        c.generation ≤ b.generation ∧ (c.state.active = true → c = b)) ∧
      σ.store.Fixes σ'.store := by
  have ok : σ.Ok := ReachableBy.ok reach
  have rounds : Rounds σ.store.barriers := by
    refine (Transition.Run.invariant (I := fun τ => τ.Ok ∧ Rounds τ.store.barriers)
      (fun τ l τ' ih _ next => ?_) reach ⟨.empty, .nil, fun b hb => (by cases hb)⟩).2
    obtain ⟨left, ok'⟩ := step_spec ih.1 next
    exact ⟨ok', left.invariant (I := fun s => Rounds s.barriers)
      (fun _ _ _ _ _ ok rounds change => change.rounds ok rounds) ih.1.store ih.2⟩
  refine ⟨rounds.grow, fun b hb active c hc name => ⟨rounds.last b hb active c hc name, ?_⟩, ?_⟩
  · intro active'
    have same : c.generation = b.generation :=
      le_antisymm (rounds.last b hb active c hc name) (rounds.last c hc active' b hb name.symm)
    exact ok.store.barrier_eq hc hb
      (by rw [ok.store.barrierId hc, ok.store.barrierId hb, name, same])
  · refine (run.invariant (I := fun τ => τ.Ok ∧ σ.store.Fixes τ.store) (fun τ l τ' ih _ next => ?_)
      ⟨ok, .refl _⟩).2
    obtain ⟨left, ok'⟩ := step_spec ih.1 next
    exact ⟨ok', ih.2.trans (left.fixes ih.1.store)⟩

/-- The trip of the barrier, and the declaration of its next generation. -/
def tripAndAgain : List (Env × Action) :=
  (Action.arrive arriveAlone).at 3 :: List.replicate 5 ((Action.resume 1 {}).at 3) ++
    [(Action.call (.barrierDeclare "x" ["T"] .break_ none)).at 4]

/-- A generation that was armed trips, and is followed by the next one. -/
theorem barrier_rounds_again : ∃ σ σ' : Sys, Transition.Run (Step {}) (fun _ _ => True) σ σ' ∧
    σ.store.barriers.map Barrier.state = [.ARMED] ∧
      σ'.store.barriers.map Barrier.state = [.TRIPPED, .ARMED] ∧ σ.store.Fixes σ'.store := by
  obtain ⟨σ, reach, armed, later⟩ : ∃ σ, Reachable {} σ ∧
      σ.store.barriers.map Barrier.state = [.ARMED] ∧
        (execWhen {} (fun _ _ => true) tripAndAgain σ).toOption.any (fun σ' =>
          σ'.store.barriers.map Barrier.state = [.TRIPPED, .ARMED]) = true :=
    exists_reachable (tripAlone.take 8) (by decide +kernel)
  cases exec : execWhen {} (fun _ _ => true) tripAndAgain σ with
  | error e =>
      rw [exec] at later
      cases later
  | ok σ' =>
      rw [exec] at later
      have run : Transition.Run (Step {}) (fun _ _ => True) σ σ' :=
        run_of_execWhen (fun _ _ _ => trivial) exec
      obtain ⟨-, -, fixes⟩ := barrier_rounds reach run
      exact ⟨σ, σ', run, armed, of_decide_eq_true later, fixes⟩

end Omd
