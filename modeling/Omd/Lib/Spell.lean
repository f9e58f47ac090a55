import Mathlib.Tactic.Common

/-!
# What a machine spells

A machine takes an event in a state to its next state, or refuses it.  A word spells a path when the
machine takes its letters one after another.  Where each of some events raises a rank, and leads to
one state wherever it is taken, no path takes such an event twice; so a log of a machine that only
goes up has no duplicate, and an event that the machine takes now is not in the log yet.
-/

namespace Omd.Lib.Machine

universe u v

variable {S : Type u} {L : Type v} (next : S → L → Option S)

/-- The word takes the machine from the first state to the second. -/
def Spells (a : S) (word : List L) (b : S) : Prop := word.foldlM next a = some b

/-- Each of the events raises the rank, and leads to one state. -/
structure Climbs (rank : S → ℕ) (event : L → Prop) : Prop where
  up : ∀ {a b e}, event e → next a e = some b → rank a < rank b
  target : ∀ {a a' b b' e}, event e → next a e = some b → next a' e = some b' → b = b'

variable {next} {rank : S → ℕ} {event : L → Prop} {a b c : S} {word : List L} {e : L}

@[simp] theorem spells_nil : Spells next a [] b ↔ a = b := by simp [Spells]

@[simp] theorem spells_cons :
    Spells next a (e :: word) b ↔ ∃ c, next a e = some c ∧ Spells next c word b := by
  simp [Spells, Option.bind_eq_some_iff]

theorem Spells.concat (h : Spells next a word b) (step : next b e = some c) :
    Spells next a (word ++ [e]) c := by
  induction word generalizing a with
  | nil =>
      rw [spells_nil] at h
      subst h
      simpa using step
  | cons x word ih =>
      obtain ⟨d, first, rest⟩ := spells_cons.mp h
      exact spells_cons.mpr ⟨d, first, ih rest⟩

theorem Spells.rank_le (h : Spells next a word b) (climbs : Climbs next rank event)
    (events : ∀ x ∈ word, event x) : rank a ≤ rank b := by
  induction word generalizing a with
  | nil =>
      rw [spells_nil] at h
      exact Nat.le_of_eq (congrArg rank h)
  | cons x word ih =>
      obtain ⟨d, first, rest⟩ := spells_cons.mp h
      have up := climbs.up (events x (List.mem_cons_self ..)) first
      have later := ih rest fun y hy => events y (List.mem_cons_of_mem _ hy)
      omega

/-- An event of a word was taken on the way. -/
theorem Spells.taken (h : Spells next a word b) (climbs : Climbs next rank event)
    (events : ∀ x ∈ word, event x) (mem : e ∈ word) :
    ∃ c d, next c e = some d ∧ rank a ≤ rank c ∧ rank d ≤ rank b := by
  induction word generalizing a with
  | nil => cases mem
  | cons x word ih =>
      obtain ⟨d, first, rest⟩ := spells_cons.mp h
      have events' : ∀ y ∈ word, event y := fun y hy => events y (List.mem_cons_of_mem _ hy)
      rcases List.mem_cons.mp mem with rfl | later
      · exact ⟨a, d, first, Nat.le_refl _, rest.rank_le climbs events'⟩
      · obtain ⟨c, c', step, low, high⟩ := ih rest events' later
        have up := climbs.up (events x (List.mem_cons_self ..)) first
        exact ⟨c, c', step, by omega, high⟩

/-- An event that is taken after a word is not in the word. -/
theorem Spells.fresh (h : Spells next a word b) (climbs : Climbs next rank event)
    (events : ∀ x ∈ word, event x) (new : event e) (step : next b e = some c) : e ∉ word := by
  intro mem
  obtain ⟨d, d', earlier, -, high⟩ := h.taken climbs events mem
  have up := climbs.up new step
  rw [climbs.target new earlier step] at high
  omega

/-- No event is taken twice. -/
theorem Spells.nodup (h : Spells next a word b) (climbs : Climbs next rank event)
    (events : ∀ x ∈ word, event x) : word.Nodup := by
  induction word generalizing a with
  | nil => exact List.nodup_nil
  | cons x word ih =>
      obtain ⟨d, first, rest⟩ := spells_cons.mp h
      have events' : ∀ y ∈ word, event y := fun y hy => events y (List.mem_cons_of_mem _ hy)
      have new : event x := events x (List.mem_cons_self ..)
      refine List.nodup_cons.mpr ⟨fun mem => ?_, ih rest events'⟩
      obtain ⟨c, c', later, low, -⟩ := rest.taken climbs events' mem
      have up := climbs.up new later
      rw [climbs.target new first later] at low
      omega

end Omd.Lib.Machine
