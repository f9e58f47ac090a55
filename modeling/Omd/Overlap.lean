import Omd.Disjoint
import Omd.Lib.Meet

/-!
# Overlap is exact

`_seg_intersect` and `_path_intersect` are one recursion over two indices, each with a cache
of its own: characters with `*` inside a segment, segments with `**` inside a path.  Without
the cache, and on lists, it is the meet of two patterns.

Overlap never misses a common path.  Where no class is written it does not invent one either:
a segment of the common path is found character by character, and the path segment by
segment, with none of them holding a slash.

The function that computes the recursion is total, since every call moves an index.
-/

namespace Omd

open Lib Lib.Wildcard

/-! ## The recursions of the source -/

/-- `_seg_intersect` without its cache. -/
def segIntersectPlain (a b : Segment) : Bool :=
  if '[' ∈ a ∨ '[' ∈ b then true
  else meetFrom isStar charMeet a b 0 0

/-- `_seg_intersect` with its cache. -/
def segIntersectCached (a b : Segment) : Bool :=
  if '[' ∈ a ∨ '[' ∈ b then true
  else (meetMemo isStar charMeet a b 0 0).run

/-- `_path_intersect` without its cache. -/
def pathIntersectPlain (A B : List Segment) : Bool :=
  meetFrom isGlobstar segIntersectPlain A B 0 0

/-- `_path_intersect` with its cache. -/
def pathIntersectCached (A B : List Segment) : Bool :=
  (meetMemo isGlobstar segIntersectCached A B 0 0).run

theorem meetMemo_run {π : Type} (star : π → Bool) (meet : π → π → Bool) (A B : List π) :
    (meetMemo star meet A B 0 0).run = meetFrom star meet A B 0 0 :=
  (meetMemo_computes A B 0 0).run

theorem meetFrom_zero {π : Type} (star : π → Bool) (meet : π → π → Bool) (A B : List π) :
    meetFrom star meet A B 0 0 = starMeet star meet A B := by
  rw [meetFrom_eq (Nat.zero_le _) (Nat.zero_le _), List.drop_zero, List.drop_zero]

theorem segIntersectCached_eq (a b : Segment) :
    segIntersectCached a b = segIntersectPlain a b := by
  rw [segIntersectCached, segIntersectPlain, meetMemo_run]

theorem segIntersectPlain_eq (a b : Segment) : segIntersectPlain a b = segIntersect a b := by
  rw [segIntersectPlain, segIntersect, meetFrom_zero]

theorem pathIntersectCached_eq (A B : List Segment) :
    pathIntersectCached A B = pathIntersectPlain A B := by
  have segments : segIntersectCached = segIntersectPlain := funext₂ segIntersectCached_eq
  rw [pathIntersectCached, pathIntersectPlain, meetMemo_run, segments]

theorem pathIntersectPlain_eq (A B : List Segment) :
    pathIntersectPlain A B = pathIntersect A B := by
  have segments : segIntersectPlain = segIntersect := funext₂ segIntersectPlain_eq
  rw [pathIntersectPlain, pathIntersect, meetFrom_zero, segments]

/-! ## The segments of a glob -/

/-- A segment holds no slash, and nothing that the glob does not hold. -/
theorem mem_splitOn {text : List Char} {sep : Char} {s : Segment} (hs : s ∈ text.splitOn sep) :
    sep ∉ s ∧ ∀ c ∈ s, c ∈ text := by
  induction text generalizing s with
  | nil =>
      rw [List.splitOn_nil, List.mem_singleton] at hs
      simp [hs]
  | cons c text ih =>
      rw [List.splitOn_cons_eq_if_modifyHead] at hs
      have deeper {s : Segment} (hs : s ∈ text.splitOn sep) :
          sep ∉ s ∧ ∀ d ∈ s, d ∈ c :: text :=
        ⟨(ih hs).1, fun d hd => List.mem_cons_of_mem _ ((ih hs).2 d hd)⟩
      by_cases same : c = sep
      · rw [if_pos (by simpa using same)] at hs
        rcases List.mem_cons.mp hs with rfl | hs
        · simp
        · exact deeper hs
      · rw [if_neg (by simpa using same)] at hs
        cases split : text.splitOn sep with
        | nil => exact absurd split (List.splitOn_ne_nil _ _)
        | cons t rest =>
            rw [split, List.modifyHead_cons] at hs
            rcases List.mem_cons.mp hs with rfl | hs
            · obtain ⟨free, sub⟩ := deeper (s := t) (split ▸ List.mem_cons_self)
              refine ⟨?_, fun d hd => ?_⟩
              · simp [free, Ne.symm same]
              · rcases List.mem_cons.mp hd with rfl | hd
                · exact List.mem_cons_self
                · exact sub d hd
            · exact deeper (split ▸ List.mem_cons_of_mem _ hs)

/-- Normalisation adds stars only. -/
theorem mem_norm {g : List Char} {c : Char} (h : c ∈ norm g) : c ∈ g ∨ c = '*' := by
  have stripped : ∀ d ∈ lstripDotSlash (strip g), d ∈ g := by
    intro d hd
    have hd := (List.dropWhile_suffix _).subset hd
    have hd := (List.dropWhile_suffix _).subset (List.mem_reverse.mp hd)
    exact (List.dropWhile_suffix _).subset (List.mem_reverse.mp hd)
  rw [norm] at h
  split at h
  · rcases List.mem_append.mp h with h | h
    · exact Or.inl (stripped c h)
    · exact Or.inr (by simpa using h)
  · exact Or.inl (stripped c h)

theorem globSegments_plain {g : String} (plain : '[' ∉ g.toList) :
    ∀ s ∈ globSegments g, '/' ∉ s ∧ '[' ∉ s := by
  intro s hs
  obtain ⟨free, sub⟩ := mem_splitOn hs
  refine ⟨free, fun bracket => ?_⟩
  rcases mem_norm (sub _ bracket) with h | h
  · exact plain h
  · exact absurd h (by decide)

/-! ## A path of both globs -/

/-- A segment without a class accepts a segment. -/
theorem segMatch_iff_accepts {a s : Segment} (plain : '[' ∉ a) :
    segMatch a s = true ↔ Accepts isStar (fun c d => c == '?' || c == d) a s := by
  rw [segMatch_of_plain plain]
  exact starMatch_iff

/-- Two segments without a class that intersect have a segment in common. -/
theorem exists_segment {a b : Segment} (ha : '/' ∉ a ∧ '[' ∉ a) (hb : '/' ∉ b ∧ '[' ∉ b)
    (h : segIntersect a b = true) :
    ∃ s : Segment, '/' ∉ s ∧ segMatch a s = true ∧ segMatch b s = true := by
  rw [segIntersect, if_neg (by simp [ha.2, hb.2])] at h
  let reads (c d : Char) : Bool := c == '?' || c == d
  -- a token stands for itself, a question mark for any character
  have some : ∀ c, c ∈ a ∨ c ∈ b → isStar c = false → ∃ d, d ≠ '/' ∧ reads c d = true := by
    intro c hc _
    refine ⟨c, fun slash => ?_, by simp [reads]⟩
    subst slash
    exact hc.elim ha.1 hb.1
  have both : ∀ c ∈ a, ∀ d ∈ b, isStar c = false → isStar d = false → charMeet c d = true →
      ∃ e, e ≠ '/' ∧ reads c e = true ∧ reads d e = true := by
    intro c hc d hd _ _ meets
    have slashC : c ≠ '/' := fun same => ha.1 (same ▸ hc)
    have slashD : d ≠ '/' := fun same => hb.1 (same ▸ hd)
    simp only [charMeet, Bool.or_eq_true, beq_iff_eq] at meets
    rcases meets with (rfl | rfl) | rfl
    · exact ⟨d, slashD, by simp [reads], by simp [reads]⟩
    · exact ⟨c, slashC, by simp [reads], by simp [reads]⟩
    · exact ⟨c, slashC, by simp [reads], by simp [reads]⟩
  obtain ⟨s, all, accepts, accepts'⟩ := exists_word_of_starMeet some both h
  exact ⟨s, fun slash => all _ slash rfl, (segMatch_iff_accepts ha.2).mpr accepts,
    (segMatch_iff_accepts hb.2).mpr accepts'⟩

theorem segIntersect_self (a : Segment) : segIntersect a a = true := by
  rw [segIntersect]
  split
  · rfl
  · exact starMeet_self fun c _ _ => by simp [charMeet]

/-- Two globs without a class that overlap have a sequence of segments in common. -/
theorem exists_segments {g₁ g₂ : String} (plain₁ : '[' ∉ g₁.toList) (plain₂ : '[' ∉ g₂.toList)
    (h : globsOverlap g₁ g₂ = true) :
    ∃ ss : List Segment, (∀ s ∈ ss, '/' ∉ s) ∧
      starMatch isGlobstar segMatch (globSegments g₁) ss = true ∧
        starMatch isGlobstar segMatch (globSegments g₂) ss = true := by
  have segments₁ := globSegments_plain plain₁
  have segments₂ := globSegments_plain plain₂
  have meets : starMeet isGlobstar segIntersect (globSegments g₁) (globSegments g₂) = true := by
    rw [globsOverlap] at h
    split at h
    · rename_i same
      rw [same]
      exact starMeet_self fun s _ _ => segIntersect_self s
    · exact h
  have some : ∀ a, a ∈ globSegments g₁ ∨ a ∈ globSegments g₂ → isGlobstar a = false →
      ∃ s : Segment, '/' ∉ s ∧ segMatch a s = true := by
    intro a ha _
    have plain : '/' ∉ a ∧ '[' ∉ a := ha.elim (segments₁ a) (segments₂ a)
    obtain ⟨s, free, accepted, -⟩ := exists_segment plain plain (segIntersect_self a)
    exact ⟨s, free, accepted⟩
  obtain ⟨ss, free, accepts, accepts'⟩ := exists_word_of_starMeet some
    (fun a ha b hb _ _ => exists_segment (segments₁ a ha) (segments₂ b hb)) meets
  exact ⟨ss, free, accepts.starMatch, accepts'.starMatch⟩

/-- Overlap is symmetric, it sees every path that two globs share, and where no class is
written it holds only of globs that some sequence of segments satisfies.  The caches of the
two recursions change no answer. -/
theorem globsOverlap_exact :
    (∀ g₁ g₂, globsOverlap g₁ g₂ = globsOverlap g₂ g₁) ∧
      (∀ g₁ g₂ path, pathMatchesGlob g₁ path = true → pathMatchesGlob g₂ path = true →
        globsOverlap g₁ g₂ = true) ∧
      (∀ g₁ g₂, '[' ∉ g₁.toList → '[' ∉ g₂.toList → globsOverlap g₁ g₂ = true →
        ∃ ss : List Segment, (∀ s ∈ ss, '/' ∉ s) ∧
          starMatch isGlobstar segMatch (globSegments g₁) ss = true ∧
            starMatch isGlobstar segMatch (globSegments g₂) ss = true) ∧
      (∀ a b, segIntersectCached a b = segIntersectPlain a b ∧
        segIntersectPlain a b = segIntersect a b) ∧
      ∀ A B, pathIntersectCached A B = pathIntersectPlain A B ∧
        pathIntersectPlain A B = pathIntersect A B :=
  ⟨globsOverlap_comm, fun _ _ _ => globsOverlap_of_path, fun _ _ => exists_segments,
    fun a b => ⟨segIntersectCached_eq a b, segIntersectPlain_eq a b⟩,
    fun A B => ⟨pathIntersectCached_eq A B, pathIntersectPlain_eq A B⟩⟩

theorem globsOverlap_exact_sources : globsOverlap "src/*.py" "src/**/a?.py" = true :=
  globsOverlap_exact.2.1 _ _ "src/ab.py" (by decide) (by decide)

end Omd
