import Omd.Lib.Wildcard
import Mathlib.Data.List.Basic
import Mathlib.Tactic.Common

/-!
# Disjointness of glob write-sets

`globs_overlap` decides, on two globs alone, whether some path may satisfy both;
`path_matches_glob` decides whether one concrete path satisfies one glob.  The first
guards admission, the second audits what was written.  Both normalise a glob into
segments, and walk segments with `**` and characters with `*` by the same two-index
recursion, which is `Lib.Wildcard` at two alphabets.

A character class is only understood by the second; the first answers *overlap* as
soon as a segment holds `[`.

## Main results

* `globsOverlap_of_path` — a path that satisfies two globs makes them overlap.
* `setsOverlap_of_path` — the same for two write-sets.
* `globsOverlap_comm`, `setsOverlap_comm` — overlap is symmetric.
-/

namespace Omd

open Lib.Wildcard

/-! ## Strings as the source reads them -/

/-- What `str.strip` removes: the whitespace code points. -/
def isSpace (c : Char) : Bool :=
  let n := c.toNat
  (9 ≤ n && n ≤ 13) || (28 ≤ n && n ≤ 32) || n == 0x85 || n == 0xa0 || n == 0x1680 ||
    (0x2000 ≤ n && n ≤ 0x200a) || n == 0x2028 || n == 0x2029 || n == 0x202f ||
    n == 0x205f || n == 0x3000

/-- `g.strip()`. -/
def strip (g : List Char) : List Char :=
  ((g.dropWhile isSpace).reverse.dropWhile isSpace).reverse

/-- `g.lstrip("./")`: leading dots and slashes, in any mixture. -/
def lstripDotSlash (g : List Char) : List Char :=
  g.dropWhile fun c => c == '.' || c == '/'

/-- `_norm`: a trailing slash declares the subtree. -/
def norm (g : List Char) : List Char :=
  let g := lstripDotSlash (strip g)
  if g.getLast? = some '/' then g ++ ['*', '*'] else g

/-- A segment of a glob or of a path. -/
abbrev Segment := List Char

/-- `glob_segments`. -/
def globSegments (g : String) : List Segment :=
  (norm g.toList).splitOn '/'

/-- `path.strip().lstrip("./").split("/")`. -/
def pathSegments (path : String) : List Segment :=
  (lstripDotSlash (strip path.toList)).splitOn '/'

/-- The segment `**`. -/
def isGlobstar (s : Segment) : Bool := s == ['*', '*']

/-! ## Overlap of two globs -/

/-- The character `*`. -/
def isStar (c : Char) : Bool := c == '*'

/-- Two characters of a pattern, neither a star, have a character in common. -/
def charMeet (a b : Char) : Bool := a == '?' || b == '?' || a == b

/-- `_seg_intersect`. -/
def segIntersect (a b : Segment) : Bool :=
  if '[' ∈ a ∨ '[' ∈ b then true
  else starMeet isStar charMeet a b

/-- `_path_intersect`. -/
def pathIntersect : List Segment → List Segment → Bool :=
  starMeet isGlobstar segIntersect

/-- `globs_overlap`. -/
def globsOverlap (g₁ g₂ : String) : Bool :=
  if g₁ = g₂ then true else pathIntersect (globSegments g₁) (globSegments g₂)

/-- `sets_overlap`. -/
def setsOverlap (s₁ s₂ : List String) : Bool :=
  s₁.any fun a => s₂.any fun b => globsOverlap a b

/-! ## A concrete path against a glob -/

/-- One element of a translated segment pattern. -/
inductive FnTok
  | star
  | any
  | lit (c : Char)
  | cls (negated : Bool) (ranges : List (Char × Char))
  deriving DecidableEq, Repr

/-- The body of a character class, read as ranges from left to right: a hyphen between
two characters makes a range, any other character stands for itself. -/
def classRanges : List Char → List (Char × Char)
  | [] => []
  | a :: '-' :: b :: rest => (a, b) :: classRanges rest
  | a :: rest => (a, a) :: classRanges rest

/-- The class that starts after an opening bracket, with what follows its closing
bracket; `none` when the bracket is not closed.  A closing bracket that comes first,
or first after `!`, belongs to the class. -/
def scanClass (cs : List Char) : Option (FnTok × List Char) :=
  let (negated, body) := match cs with
    | '!' :: rest => (true, rest)
    | _ => (false, cs)
  let (head, tail) := match body with
    | ']' :: rest => ([']'], rest)
    | _ => ([], body)
  match tail.span (· != ']') with
  | (_, []) => none
  | (inner, _ :: rest) => some (.cls negated (classRanges (head ++ inner)), rest)

/-- `fnmatch.translate`.  The fuel is the length of the pattern: every round consumes a
character. -/
def fnTokens : ℕ → List Char → List FnTok
  | 0, _ => []
  | _ + 1, [] => []
  | n + 1, '*' :: cs => .star :: fnTokens n cs
  | n + 1, '?' :: cs => .any :: fnTokens n cs
  | n + 1, '[' :: cs =>
      match scanClass cs with
      | none => .lit '[' :: fnTokens n cs
      | some (t, rest) => t :: fnTokens n rest
  | n + 1, c :: cs => .lit c :: fnTokens n cs

/-- The element `*`. -/
def FnTok.isStar : FnTok → Bool
  | .star => true
  | _ => false

/-- Whether an element that is not a star accepts a character. -/
def FnTok.accepts : FnTok → Char → Bool
  | .star, _ => false
  | .any, _ => true
  | .lit c, d => c == d
  | .cls negated ranges, d =>
      (ranges.any fun r => r.1 ≤ d && d ≤ r.2) != negated

/-- `_seg_match`, which is `fnmatch.fnmatchcase`. -/
def segMatch (pat seg : Segment) : Bool :=
  starMatch FnTok.isStar FnTok.accepts (fnTokens pat.length pat) seg

/-- `path_matches_glob`. -/
def pathMatchesGlob (glob path : String) : Bool :=
  starMatch isGlobstar segMatch (globSegments glob) (pathSegments path)

/-- `path_in_globs`. -/
def pathInGlobs (path : String) (globs : List String) : Bool :=
  globs.any fun g => pathMatchesGlob g path

example : pathMatchesGlob "src/**/[a-c]?.py" "./src/x/y/bq.py" = true := by decide

/-! ## Soundness -/

/-- A pattern without a class is translated character by character. -/
theorem fnTokens_of_plain {n : ℕ} {cs : List Char} (hn : cs.length ≤ n) (h : '[' ∉ cs) :
    fnTokens n cs =
      cs.map fun c => if c = '*' then FnTok.star else if c = '?' then .any else .lit c := by
  induction cs generalizing n with
  | nil => cases n <;> rfl
  | cons c cs ih =>
      obtain ⟨n, rfl⟩ : ∃ m, n = m + 1 := ⟨n - 1, by simp at hn; omega⟩
      simp only [List.mem_cons, not_or] at h
      have hn' : cs.length ≤ n := by simpa using hn
      have hc : c ≠ '[' := fun e => h.1 e.symm
      by_cases h1 : c = '*'
      · subst h1; simp [fnTokens, ih hn' h.2]
      · by_cases h2 : c = '?'
        · subst h2; simp [fnTokens, ih hn' h.2]
        · rw [fnTokens] <;> simp_all

/-- On a pattern without a class, `_seg_match` walks the characters themselves. -/
theorem segMatch_of_plain {pat seg : Segment} (h : '[' ∉ pat) :
    segMatch pat seg =
      starMatch isStar (fun a s => a == '?' || a == s) pat seg := by
  rw [segMatch, fnTokens_of_plain (Nat.le_refl _) h]
  induction pat generalizing seg with
  | nil => rfl
  | cons c cs ih =>
      simp only [List.mem_cons, not_or] at h
      by_cases h1 : c = '*'
      · subst h1
        simp only [List.map_cons, if_true, starMatch]
        have hf : starMatch FnTok.isStar FnTok.accepts
            (cs.map fun c => if c = '*' then FnTok.star else if c = '?' then .any else .lit c) =
            starMatch isStar (fun a s => a == '?' || a == s) cs :=
          funext fun seg => ih h.2
        simp [hf, isStar, FnTok.isStar]
      · cases seg with
        | nil => by_cases h2 : c = '?' <;> simp [starMatch, isStar, FnTok.isStar, h1, h2]
        | cons s seg =>
            by_cases h2 : c = '?'
            · simp [starMatch, isStar, FnTok.isStar, h2, FnTok.accepts, ih h.2]
            · have hq : (c == '?') = false := by simpa using h2
              simp [starMatch, isStar, FnTok.isStar, h1, h2, hq, FnTok.accepts, ih h.2]

/-- A segment accepted by two segment patterns makes them intersect. -/
theorem segIntersect_of_segMatch {a b s : Segment} (ha : segMatch a s = true)
    (hb : segMatch b s = true) : segIntersect a b = true := by
  by_cases h : '[' ∈ a ∨ '[' ∈ b
  · simp [segIntersect, h]
  · rw [segIntersect, if_neg h]
    simp only [not_or] at h
    rw [segMatch_of_plain h.1] at ha
    rw [segMatch_of_plain h.2] at hb
    refine starMeet_of_starMatch ?_ ha hb
    intro x y c _ _ hx hy
    simp only [Bool.or_eq_true, beq_iff_eq] at hx hy
    rcases hx with rfl | rfl
    · simp [charMeet]
    · rcases hy with rfl | rfl
      · simp [charMeet]
      · simp [charMeet]

/-- A path that satisfies two globs makes them overlap. -/
theorem globsOverlap_of_path {g₁ g₂ path : String} (h₁ : pathMatchesGlob g₁ path = true)
    (h₂ : pathMatchesGlob g₂ path = true) : globsOverlap g₁ g₂ = true := by
  rw [globsOverlap]
  split
  · rfl
  · refine starMeet_of_starMatch ?_ h₁ h₂
    intro a b s _ _ ha hb
    exact segIntersect_of_segMatch ha hb

/-- A path covered by two write-sets makes them overlap. -/
theorem setsOverlap_of_path {s₁ s₂ : List String} {path : String}
    (h₁ : pathInGlobs path s₁ = true) (h₂ : pathInGlobs path s₂ = true) :
    setsOverlap s₁ s₂ = true := by
  simp only [pathInGlobs, List.any_eq_true] at h₁ h₂
  obtain ⟨a, ha, hma⟩ := h₁
  obtain ⟨b, hb, hmb⟩ := h₂
  simp only [setsOverlap, List.any_eq_true]
  exact ⟨a, ha, b, hb, globsOverlap_of_path hma hmb⟩

/-! ## Symmetry -/

theorem charMeet_comm (a b : Char) : charMeet a b = charMeet b a := by
  have h : (a == b) = (b == a) := by rw [Bool.eq_iff_iff, beq_iff_eq, beq_iff_eq, eq_comm]
  rw [charMeet, charMeet, Bool.or_comm (a == '?'), h]

theorem segIntersect_comm (a b : Segment) : segIntersect a b = segIntersect b a := by
  simp only [segIntersect, or_comm (a := '[' ∈ a), starMeet_comm charMeet_comm a b]

theorem globsOverlap_comm (g₁ g₂ : String) : globsOverlap g₁ g₂ = globsOverlap g₂ g₁ := by
  simp only [globsOverlap, eq_comm (a := g₁), pathIntersect,
    starMeet_comm segIntersect_comm (globSegments g₁)]

theorem setsOverlap_comm (s₁ s₂ : List String) : setsOverlap s₁ s₂ = setsOverlap s₂ s₁ := by
  rw [Bool.eq_iff_iff]
  simp only [setsOverlap, List.any_eq_true]
  constructor
  · rintro ⟨a, ha, b, hb, h⟩
    exact ⟨b, hb, a, ha, by rwa [globsOverlap_comm]⟩
  · rintro ⟨a, ha, b, hb, h⟩
    exact ⟨b, hb, a, ha, by rwa [globsOverlap_comm]⟩

end Omd
