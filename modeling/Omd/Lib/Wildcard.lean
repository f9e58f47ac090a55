import Mathlib.Data.List.Basic
import Mathlib.Tactic.Common

/-!
# Wildcard patterns over an arbitrary alphabet

A pattern is a list of tokens.  A *star* token absorbs any number of symbols;
every other token absorbs exactly one symbol, according to a test `acc`.
`starMatch` decides whether a pattern accepts a word, and `starMeet` decides, on
two patterns alone, whether some word may be accepted by both, given a test
`meet` for two single-symbol tokens.

Both are one structural recursion per pattern, with the other list walked by a
helper.  `starMatch_cons` and `starMeet_cons_cons` give back the two-index
recursion they compute.

`starMeet_of_starMatch` is soundness, `starMeet_comm` is symmetry, and
`starMeet_literal` says what a meet of two patterns with literal prefixes forces.
The same three facts serve a pattern of characters and a pattern of such
patterns, so a two-level glob uses each of them twice.
-/

namespace Omd.Lib.Wildcard

universe u v

variable {π : Type u} {π' : Type v} {σ : Type v}

/-- Some suffix of the list satisfies `f`. -/
def anySuffix (f : List σ → Bool) : List σ → Bool
  | [] => f []
  | s :: ss => f (s :: ss) || anySuffix f ss

/-- Whether the pattern accepts the whole word. -/
def starMatch (star : π → Bool) (acc : π → σ → Bool) : List π → List σ → Bool
  | [], ss => ss.isEmpty
  | p :: ps, ss =>
      if star p then anySuffix (starMatch star acc ps) ss
      else match ss with
        | [] => false
        | s :: ss => acc p s && starMatch star acc ps ss

/-- The row of `starMeet` at a token `a` that is not a star: the second pattern is
walked, `f` being the row of what follows `a`. -/
def meetHead (star : π → Bool) (meet : π → π → Bool) (f : List π → Bool) (a : π) :
    List π → Bool
  | [] => false
  | b :: B =>
      if star b then meetHead star meet f a B || f (b :: B)
      else meet a b && f B

/-- Whether two patterns have a word in common. -/
def starMeet (star : π → Bool) (meet : π → π → Bool) : List π → List π → Bool
  | [] => fun B => B.all star
  | a :: A =>
      if star a then anySuffix (starMeet star meet A)
      else meetHead star meet (starMeet star meet A) a

/-! ## Suffixes -/

theorem anySuffix_iff {f : List σ → Bool} {ss : List σ} :
    anySuffix f ss = true ↔ ∃ t, t <:+ ss ∧ f t = true := by
  induction ss with
  | nil => simp [anySuffix]
  | cons s ss ih =>
      simp only [anySuffix, Bool.or_eq_true, ih, List.suffix_cons_iff]
      constructor
      · rintro (h | ⟨t, ht, h⟩)
        · exact ⟨_, Or.inl rfl, h⟩
        · exact ⟨t, Or.inr ht, h⟩
      · rintro ⟨t, rfl | ht, h⟩
        · exact Or.inl h
        · exact Or.inr ⟨t, ht, h⟩

/-! ## Matching -/

section Match

variable {star : π → Bool} {acc : π → σ → Bool}

theorem starMatch_nil (ss : List σ) : starMatch star acc [] ss = ss.isEmpty := by
  rw [starMatch]

/-- A star absorbs nothing, or one more symbol. -/
theorem starMatch_star {p : π} (hp : star p = true) (ps : List π) (ss : List σ) :
    starMatch star acc (p :: ps) ss =
      (starMatch star acc ps ss ||
        match ss with
        | [] => false
        | _ :: t => starMatch star acc (p :: ps) t) := by
  cases ss with
  | nil => simp [starMatch, hp, anySuffix]
  | cons s t => simp [starMatch, hp, anySuffix]

theorem starMatch_token {p : π} (hp : star p = false) (ps : List π) (s : σ) (ss : List σ) :
    starMatch star acc (p :: ps) (s :: ss) = (acc p s && starMatch star acc ps ss) := by
  simp [starMatch, hp]

theorem starMatch_token_nil {p : π} (hp : star p = false) (ps : List π) :
    starMatch star acc (p :: ps) ([] : List σ) = false := by
  simp [starMatch, hp]

/-- A pattern that accepts the empty word is made of stars. -/
theorem all_star_of_starMatch_nil {ps : List π}
    (h : starMatch star acc ps ([] : List σ) = true) : ps.all star = true := by
  induction ps with
  | nil => rfl
  | cons p ps ih =>
      cases hp : star p with
      | false => rw [starMatch_token_nil hp] at h; cases h
      | true =>
          rw [starMatch_star hp] at h
          simp only [Bool.or_false] at h
          simp [hp, ih h]

/-- What remains of an accepted word is accepted by a suffix of the pattern: a star
that straddles the cut stays at the head of the suffix. -/
theorem starMatch_suffix {ps : List π} {ss t : List σ} (hs : t <:+ ss)
    (h : starMatch star acc ps ss = true) :
    ∃ qs, qs <:+ ps ∧ starMatch star acc qs t = true := by
  induction ss generalizing ps with
  | nil =>
      rw [List.suffix_nil.mp hs]
      exact ⟨ps, List.suffix_rfl, h⟩
  | cons s ss ih =>
      rcases List.suffix_cons_iff.mp hs with rfl | hs'
      · exact ⟨ps, List.suffix_rfl, h⟩
      · -- the pattern drops the symbol `s`: the stars before its token give way first
        induction ps with
        | nil => rw [starMatch_nil] at h; cases h
        | cons p ps ihp =>
            cases hp : star p with
            | false =>
                rw [starMatch_token hp, Bool.and_eq_true] at h
                obtain ⟨qs, hq, hm⟩ := ih hs' h.2
                exact ⟨qs, hq.trans (List.suffix_cons _ _), hm⟩
            | true =>
                rw [starMatch_star hp, Bool.or_eq_true] at h
                rcases h with h | h
                · obtain ⟨qs, hq, hm⟩ := ihp h
                  exact ⟨qs, hq.trans (List.suffix_cons _ _), hm⟩
                · exact ih hs' h

/-- A pattern accepts a word: a star absorbs any number of symbols, any other token one that
it accepts. -/
inductive Accepts (star : π → Bool) (acc : π → σ → Bool) : List π → List σ → Prop
  | nil : Accepts star acc [] []
  | skip {p : π} {ps : List π} {ss : List σ} (hp : star p = true)
      (h : Accepts star acc ps ss) : Accepts star acc (p :: ps) ss
  | absorb {p : π} {ps : List π} {s : σ} {ss : List σ} (hp : star p = true)
      (h : Accepts star acc (p :: ps) ss) : Accepts star acc (p :: ps) (s :: ss)
  | token {p : π} {ps : List π} {s : σ} {ss : List σ} (hp : star p = false)
      (hs : acc p s = true) (h : Accepts star acc ps ss) : Accepts star acc (p :: ps) (s :: ss)

theorem Accepts.starMatch {ps : List π} {ss : List σ} (h : Accepts star acc ps ss) :
    starMatch star acc ps ss = true := by
  induction h with
  | nil => rfl
  | skip hp _ ih => rw [starMatch_star hp, ih, Bool.true_or]
  | absorb hp _ ih =>
      rw [starMatch_star hp]
      simp only [ih, Bool.or_true]
  | token hp hs _ ih => rw [starMatch_token hp, hs, ih, Bool.and_true]

/-- The matcher decides what the pattern accepts. -/
theorem starMatch_iff {ps : List π} {ss : List σ} :
    starMatch star acc ps ss = true ↔ Accepts star acc ps ss := by
  refine ⟨fun h => ?_, Accepts.starMatch⟩
  induction ps generalizing ss with
  | nil =>
      rw [starMatch_nil, List.isEmpty_iff] at h
      exact h ▸ .nil
  | cons p ps ih =>
      cases hp : star p with
      | false =>
          cases ss with
          | nil =>
              rw [starMatch_token_nil hp] at h
              cases h
          | cons s ss =>
              rw [starMatch_token hp, Bool.and_eq_true] at h
              exact .token hp h.1 (ih h.2)
      | true =>
          induction ss with
          | nil =>
              rw [starMatch_star hp, Bool.or_false] at h
              exact .skip hp (ih h)
          | cons s ss ihs =>
              rw [starMatch_star hp, Bool.or_eq_true] at h
              rcases h with h | h
              · exact .skip hp (ih h)
              · exact .absorb hp (ihs h)

/-- Without stars a pattern accepts symbol by symbol. -/
theorem accepts_iff_forall₂ {ps : List π} {ss : List σ} (hp : ∀ p ∈ ps, star p = false) :
    Accepts star acc ps ss ↔ List.Forall₂ (fun p s => acc p s = true) ps ss := by
  constructor
  · intro h
    induction h with
    | nil => exact .nil
    | skip star _ _ | absorb star _ _ =>
        rw [hp _ List.mem_cons_self] at star
        cases star
    | token _ hs _ ih => exact .cons hs (ih fun p mem => hp p (List.mem_cons_of_mem _ mem))
  · intro h
    induction h with
    | nil => exact .nil
    | cons hs _ ih =>
        exact .token (hp _ List.mem_cons_self) hs
          (ih fun p mem => hp p (List.mem_cons_of_mem _ mem))

end Match

/-! ## Meeting -/

section Meet

variable {star : π → Bool} {meet : π → π → Bool}

theorem starMeet_nil (B : List π) : starMeet star meet [] B = B.all star := by
  rw [starMeet]

theorem starMeet_star {a : π} (ha : star a = true) (A B : List π) :
    starMeet star meet (a :: A) B =
      (starMeet star meet A B ||
        match B with
        | [] => false
        | _ :: B' => starMeet star meet (a :: A) B') := by
  cases B with
  | nil => simp [starMeet, ha, anySuffix]
  | cons b B => simp [starMeet, ha, anySuffix]

theorem starMeet_token_nil {a : π} (ha : star a = false) (A : List π) :
    starMeet star meet (a :: A) [] = false := by
  simp [starMeet, ha, meetHead]

theorem starMeet_token_star {a b : π} (ha : star a = false) (hb : star b = true)
    (A B : List π) :
    starMeet star meet (a :: A) (b :: B) =
      (starMeet star meet (a :: A) B || starMeet star meet A (b :: B)) := by
  simp [starMeet, ha, meetHead, hb]

theorem starMeet_token_token {a b : π} (ha : star a = false) (hb : star b = false)
    (A B : List π) :
    starMeet star meet (a :: A) (b :: B) = (meet a b && starMeet star meet A B) := by
  simp [starMeet, ha, meetHead, hb]

/-- Two patterns that accept one word meet, when two tokens that accept one symbol
do. -/
theorem starMeet_of_starMatch {acc : π → σ → Bool}
    (hmeet : ∀ a b s, star a = false → star b = false →
      acc a s = true → acc b s = true → meet a b = true)
    {A B : List π} {ss : List σ} (hA : starMatch star acc A ss = true)
    (hB : starMatch star acc B ss = true) : starMeet star meet A B = true := by
  induction A generalizing B ss with
  | nil =>
      rw [starMatch_nil, List.isEmpty_iff] at hA
      subst hA
      rw [starMeet_nil]
      exact all_star_of_starMatch_nil hB
  | cons a A ihA =>
      cases ha : star a with
      | true =>
          simp only [starMatch, ha, if_true, anySuffix_iff] at hA
          obtain ⟨t, ht, hAt⟩ := hA
          obtain ⟨B', hB', hBt⟩ := starMatch_suffix ht hB
          simp only [starMeet, ha, if_true, anySuffix_iff]
          exact ⟨B', hB', ihA hAt hBt⟩
      | false =>
          cases ss with
          | nil => rw [starMatch_token_nil ha] at hA; cases hA
          | cons s ss =>
              induction B with
              | nil => rw [starMatch_nil] at hB; cases hB
              | cons b B ihB =>
                  have hA' := hA
                  rw [starMatch_token ha, Bool.and_eq_true] at hA'
                  cases hb : star b with
                  | true =>
                      rw [starMeet_token_star ha hb, Bool.or_eq_true]
                      rw [starMatch_star hb, Bool.or_eq_true] at hB
                      rcases hB with hB | hB
                      · exact Or.inl (ihB hB)
                      · exact Or.inr (ihA hA'.2 hB)
                  | false =>
                      rw [starMatch_token hb, Bool.and_eq_true] at hB
                      rw [starMeet_token_token ha hb, Bool.and_eq_true]
                      exact ⟨hmeet a b s ha hb hA'.1 hB.1, ihA hA'.2 hB.2⟩

theorem starMeet_nil_right (A : List π) : starMeet star meet A [] = A.all star := by
  induction A with
  | nil => rfl
  | cons a A ih =>
      cases ha : star a with
      | true => rw [starMeet_star ha, ih]; simp [ha]
      | false => rw [starMeet_token_nil ha]; simp [ha]

/-- The second pattern may be read first. -/
theorem starMeet_star_right {b : π} (hb : star b = true) (A B : List π) :
    starMeet star meet A (b :: B) =
      (starMeet star meet A B ||
        match A with
        | [] => false
        | _ :: A' => starMeet star meet A' (b :: B)) := by
  cases A with
  | nil => simp [starMeet_nil, hb]
  | cons a A =>
      cases ha : star a with
      | false => exact starMeet_token_star ha hb A B
      | true =>
          rw [starMeet_star ha]
          exact Bool.or_comm _ _

theorem starMeet_comm (hmeet : ∀ a b, meet a b = meet b a) (A B : List π) :
    starMeet star meet A B = starMeet star meet B A := by
  induction A generalizing B with
  | nil => rw [starMeet_nil, starMeet_nil_right]
  | cons a A ihA =>
      induction B with
      | nil => rw [starMeet_nil, starMeet_nil_right]
      | cons b B ihB =>
          cases ha : star a with
          | true =>
              rw [starMeet_star ha, starMeet_star_right ha]
              simp only [ihA, ihB]
          | false =>
              cases hb : star b with
              | true =>
                  rw [starMeet_token_star ha hb, starMeet_star hb]
                  simp only [ihA, ihB]
              | false =>
                  rw [starMeet_token_token ha hb, starMeet_token_token hb ha, hmeet, ihA]

/-- Two patterns that meet have comparable literal prefixes. -/
theorem starMeet_literal {L : π → Prop} (hlit : ∀ a, L a → star a = false)
    (hmeet : ∀ a b, L a → L b → meet a b = true → a = b)
    {P Q R S : List π} (hP : ∀ a ∈ P, L a) (hQ : ∀ b ∈ Q, L b)
    (h : starMeet star meet (P ++ R) (Q ++ S) = true) : P <+: Q ∨ Q <+: P := by
  induction P generalizing Q with
  | nil => exact Or.inl (List.nil_prefix)
  | cons a P ih =>
      cases Q with
      | nil => exact Or.inr (List.nil_prefix)
      | cons b Q =>
          have ha := hP a (List.mem_cons_self ..)
          have hb := hQ b (List.mem_cons_self ..)
          rw [List.cons_append, List.cons_append, starMeet_token_token (hlit a ha) (hlit b hb),
            Bool.and_eq_true] at h
          obtain rfl := hmeet a b ha hb h.1
          rcases ih (fun x hx => hP x (List.mem_cons_of_mem _ hx))
            (fun x hx => hQ x (List.mem_cons_of_mem _ hx)) h.2 with hpre | hpre
          · exact Or.inl (List.cons_prefix_cons.mpr ⟨rfl, hpre⟩)
          · exact Or.inr (List.cons_prefix_cons.mpr ⟨rfl, hpre⟩)

end Meet

end Omd.Lib.Wildcard
