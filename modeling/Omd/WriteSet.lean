import Omd.Git
import Mathlib.Data.List.Forall2

/-!
# The audit of a write-set

Before a merge every path that the candidate changed must lie under the globs its task
holds.  What that means is `MatchesPath`: the segments of the path as the repository names
it, against the segments of the glob as it was declared.  The matcher first strips leading
dots and slashes from both, and spaces from the ends, so that it judges another path when the
first segment starts with a dot.

`writesetAudit_exact_iff` says for which paths the matcher and the audit are exact.
-/

namespace Omd

open Lib.Wildcard

/-! ## What a glob covers -/

/-- The segments of a path, as the repository names it. -/
def rawSegments (path : String) : List Segment := path.toList.splitOn '/'

/-- The segments of a glob as it was declared; a trailing slash declares the subtree. -/
def declaredSegments (glob : String) : List Segment :=
  (if glob.toList.getLast? = some '/' then glob.toList ++ ['*', '*'] else glob.toList).splitOn '/'

/-- The segments of the path match those of the glob. -/
def MatchesPath (glob path : String) : Prop :=
  Accepts isGlobstar segMatch (declaredSegments glob) (rawSegments path)

/-- A relative path as git normalises it. -/
def GitNormal (path : String) : Prop :=
  ∀ s ∈ rawSegments path, s ≠ [] ∧ s ≠ ['.'] ∧ s ≠ ['.', '.']

/-- A glob without a leading `./` and without spaces around it. -/
def Declared (glob : String) : Prop :=
  strip glob.toList = glob.toList ∧ ¬ ['.', '/'] <+: glob.toList

/-- Stripping changes nothing. -/
def Unrenamed (text : String) : Prop := lstripDotSlash (strip text.toList) = text.toList

/-- A glob without wildcards that declares no subtree. -/
def LiteralGlob (glob : String) : Prop :=
  (∀ s ∈ rawSegments glob, isWild s = false) ∧ glob.toList.getLast? ≠ some '/'

/-- On this path the matcher is exact, for every glob that is matched under its own name. -/
def ExactOn (path : String) : Prop :=
  ∀ glob, Declared glob → Unrenamed glob →
    (pathMatchesGlob glob path = true ↔ MatchesPath glob path) ∧
      (LiteralGlob glob → (pathMatchesGlob glob path = true ↔ path = glob))

/-! ## Paths and globs that keep their names -/

theorem globSegments_of_unrenamed {glob : String} (h : Unrenamed glob) :
    globSegments glob = declaredSegments glob := by
  rw [globSegments, norm, h, declaredSegments]

theorem pathSegments_of_unrenamed {path : String} (h : Unrenamed path) :
    pathSegments path = rawSegments path := by
  rw [pathSegments, h, rawSegments]

theorem pathMatchesGlob_of_unrenamed {glob path : String} (hg : Unrenamed glob)
    (hp : Unrenamed path) : pathMatchesGlob glob path = true ↔ MatchesPath glob path := by
  rw [pathMatchesGlob, globSegments_of_unrenamed hg, pathSegments_of_unrenamed hp]
  exact starMatch_iff

/-- Two relations that agree on the first list relate the same lists. -/
theorem forall₂_congr_mem {α β : Type} {R S : α → β → Prop} {xs : List α} {ys : List β}
    (h : ∀ x ∈ xs, ∀ y, R x y ↔ S x y) : List.Forall₂ R xs ys ↔ List.Forall₂ S xs ys := by
  induction xs generalizing ys with
  | nil => simp
  | cons x xs ih =>
      cases ys with
      | nil => simp
      | cons y ys =>
          rw [List.forall₂_cons, List.forall₂_cons, h x List.mem_cons_self y,
            ih fun z hz => h z (List.mem_cons_of_mem _ hz)]

/-- Text is known by its segments. -/
theorem rawSegments_injective {p q : String} (h : rawSegments p = rawSegments q) : p = q := by
  have joined := congrArg (['/'].intercalate ·) h
  simp only [rawSegments, List.intercalate_splitOn] at joined
  exact String.ext joined

/-- A segment without wildcards matches itself only. -/
theorem segMatch_literal {a s : Segment} (h : isWild a = false) : segMatch a s = true ↔ a = s := by
  have plain : ∀ c ∈ a, isStar c = false ∧ (c == '?') = false ∧ c ≠ '[' := by
    intro c hc
    have tame := List.any_eq_false.mp h c hc
    simp only [Bool.or_eq_true, not_or, beq_iff_eq] at tame
    exact ⟨by simp [isStar, tame.1.1], by simp [tame.1.2], tame.2⟩
  rw [segMatch_of_plain fun mem => (plain _ mem).2.2 rfl, starMatch_iff,
    accepts_iff_forall₂ fun c hc => (plain c hc).1, ← List.forall₂_eq_eq_eq]
  apply forall₂_congr_mem
  intro c hc d
  simp [(plain c hc).2.1]

/-- A literal glob covers the path of its name. -/
theorem matchesPath_literal {glob path : String} (h : LiteralGlob glob) :
    MatchesPath glob path ↔ path = glob := by
  have segments : declaredSegments glob = rawSegments glob := by
    rw [declaredSegments, if_neg h.2, rawSegments]
  have same : MatchesPath glob path ↔ rawSegments glob = rawSegments path := by
    rw [MatchesPath, segments,
      accepts_iff_forall₂ fun s hs => isGlobstar_of_not_isWild (h.1 s hs), ← List.forall₂_eq_eq_eq]
    apply forall₂_congr_mem
    intro s hs t
    exact segMatch_literal (h.1 s hs)
  rw [same]
  exact ⟨fun eq => (rawSegments_injective eq).symm, fun eq => by rw [eq]⟩

/-- The matcher is exact between a path and a glob that both keep their names. -/
theorem exactOn_of_unrenamed {path : String} (h : Unrenamed path) : ExactOn path := by
  intro glob _ named
  refine ⟨pathMatchesGlob_of_unrenamed named h, fun literal => ?_⟩
  rw [pathMatchesGlob_of_unrenamed named h, matchesPath_literal literal]

/-! ## The profile of a path -/

/-- The profile of a text: slashes stay, every other character becomes a question mark. -/
def profile (text : List Char) : List Char := text.map fun c => if c = '/' then '/' else '?'

theorem splitOn_profile (text : List Char) :
    (profile text).splitOn '/' = (text.splitOn '/').map (·.map fun _ => '?') := by
  induction text with
  | nil => rfl
  | cons c text ih =>
      rw [profile] at ih
      rw [profile, List.map_cons, List.splitOn_cons_eq_if_modifyHead,
        List.splitOn_cons_eq_if_modifyHead, ih]
      by_cases slash : c = '/'
      · simp [slash]
      · simp only [slash, if_false, beq_iff_eq]
        cases text.splitOn '/' with
        | nil => rfl
        | cons s rest => rfl

/-- A row of question marks matches the segments of its length. -/
theorem segMatch_marks {s t : Segment} :
    segMatch (s.map fun _ => '?') t = true ↔
      (s.map fun _ => '?') = (t.map fun _ => '?' : List Char) := by
  have marks : ∀ c ∈ s.map (fun _ => '?'), c = '?' := by
    intro c hc
    obtain ⟨_, _, rfl⟩ := List.mem_map.mp hc
    rfl
  rw [segMatch_of_plain fun mem => absurd (marks _ mem) (by decide), starMatch_iff,
    accepts_iff_forall₂ fun c hc => by rw [marks c hc]; rfl, ← List.forall₂_eq_eq_eq,
    List.forall₂_map_right_iff]
  apply forall₂_congr_mem
  intro c hc d
  simp [marks c hc]

/-- The glob that has the profile of a path. -/
def profileGlob (path : String) : String := String.ofList (profile path.toList)

/-- What the glob of a profile covers has that profile. -/
theorem accepts_profile {text : List Char} {segments : List Segment} :
    Accepts isGlobstar segMatch ((profile text).splitOn '/') segments ↔
      (profile text).splitOn '/' = segments.map (·.map fun _ => '?') := by
  rw [splitOn_profile]
  have marked : ∀ s ∈ (text.splitOn '/').map (·.map fun _ => '?'),
      ∃ t : Segment, s = t.map fun _ => '?' := by
    intro s hs
    obtain ⟨t, _, rfl⟩ := List.mem_map.mp hs
    exact ⟨t, rfl⟩
  rw [accepts_iff_forall₂, ← List.forall₂_eq_eq_eq, List.forall₂_map_right_iff]
  · apply forall₂_congr_mem
    intro s hs t
    obtain ⟨u, rfl⟩ := marked s hs
    exact segMatch_marks
  · intro s hs
    obtain ⟨u, rfl⟩ := marked s hs
    cases u with
    | nil => rfl
    | cons c u => rfl

/-- A normal path starts with a character that is no slash, and ends with one. -/
theorem GitNormal.ends {path : String} (normal : GitNormal path) :
    (∃ c text, path.toList = c :: text ∧ c ≠ '/') ∧ path.toList.getLast? ≠ some '/' := by
  have nonempty : ([] : Segment) ∉ rawSegments path := fun mem => (normal _ mem).1 rfl
  rw [rawSegments] at nonempty
  constructor
  · cases chars : path.toList with
    | nil => exact absurd (by rw [chars]; exact List.mem_singleton_self _) nonempty
    | cons c text =>
        refine ⟨c, text, rfl, fun slash => nonempty ?_⟩
        rw [chars, slash]
        have split := List.splitOn_append_cons_self (a := '/') [] text
        rw [List.nil_append, List.splitOn_nil] at split
        rw [split]
        exact List.mem_cons_self
  · intro last
    obtain ⟨init, chars⟩ := List.getLast?_eq_some_iff.mp last
    apply nonempty
    rw [chars, List.splitOn_append_cons_self, List.splitOn_nil]
    exact List.mem_append_right _ (List.mem_singleton_self _)

theorem strip_of_no_space {text : List Char} (h : ∀ c ∈ text, isSpace c = false) :
    strip text = text := by
  have keep : ∀ cs : List Char, (∀ c ∈ cs, isSpace c = false) → cs.dropWhile isSpace = cs := by
    intro cs tame
    cases cs with
    | nil => rfl
    | cons c cs => exact List.dropWhile_cons_of_neg (by simp [tame c List.mem_cons_self])
  rw [strip, keep text h, keep text.reverse fun c hc => h c (List.mem_reverse.mp hc),
    List.reverse_reverse]

theorem isSpace_profile {text : List Char} : ∀ c ∈ profile text, isSpace c = false := by
  intro c hc
  obtain ⟨d, _, rfl⟩ := List.mem_map.mp hc
  by_cases slash : d = '/' <;> simp only [slash, if_true, if_false] <;> decide

theorem profileGlob_toList {path : String} : (profileGlob path).toList = profile path.toList :=
  String.toList_ofList

theorem profileGlob_declared {path : String} (normal : GitNormal path) :
    Declared (profileGlob path) ∧ Unrenamed (profileGlob path) := by
  obtain ⟨⟨c, text, chars, first⟩, _⟩ := normal.ends
  have marks : (profileGlob path).toList = '?' :: profile text := by
    rw [profileGlob_toList, chars, profile, List.map_cons, if_neg first, profile]
  have kept : strip (profileGlob path).toList = (profileGlob path).toList := by
    rw [profileGlob_toList]
    exact strip_of_no_space isSpace_profile
  refine ⟨⟨kept, ?_⟩, ?_⟩
  · rw [marks]
    rintro ⟨rest, eq⟩
    cases eq
  · rw [Unrenamed, kept, marks, lstripDotSlash, List.dropWhile_cons_of_neg (by decide)]

theorem declaredSegments_profileGlob {path : String} (normal : GitNormal path) :
    declaredSegments (profileGlob path) = (profile path.toList).splitOn '/' := by
  have last : (profile path.toList).getLast? ≠ some '/' := by
    rw [profile, List.getLast?_map]
    intro eq
    obtain ⟨c, found, slash⟩ := Option.map_eq_some_iff.mp eq
    by_cases same : c = '/'
    · exact normal.ends.2 (same ▸ found)
    · rw [if_neg same] at slash
      exact absurd slash (by decide)
  rw [declaredSegments, profileGlob_toList, if_neg last]

/-- A path has its own profile. -/
theorem matchesPath_profileGlob {path : String} (normal : GitNormal path) :
    MatchesPath (profileGlob path) path := by
  rw [MatchesPath, declaredSegments_profileGlob normal, accepts_profile, splitOn_profile,
    rawSegments]

/-- Stripping leaves a part of the text. -/
theorem stripped_isInfix (text : List Char) : lstripDotSlash (strip text) <:+: text := by
  have ends : (text.dropWhile isSpace).reverse.dropWhile isSpace <:+:
      (text.dropWhile isSpace).reverse := (List.dropWhile_suffix _).isInfix
  have middle := List.reverse_infix.mpr ends
  rw [List.reverse_reverse] at middle
  exact (List.dropWhile_suffix _).isInfix.trans
    (middle.trans (List.dropWhile_suffix _).isInfix)

/-- A path that the matcher renames has lost characters, so its profile no longer covers it. -/
theorem unrenamed_of_profileGlob {path : String} (normal : GitNormal path)
    (h : pathMatchesGlob (profileGlob path) path = true) : Unrenamed path := by
  have named := (profileGlob_declared normal).2
  rw [pathMatchesGlob, starMatch_iff, globSegments_of_unrenamed named,
    declaredSegments_profileGlob normal, accepts_profile, pathSegments, ← splitOn_profile] at h
  have joined := congrArg (['/'].intercalate ·) h
  simp only [List.intercalate_splitOn] at joined
  have long : (lstripDotSlash (strip path.toList)).length = path.toList.length := by
    have lengths := congrArg List.length joined
    simpa [profile] using lengths.symm
  exact (stripped_isInfix path.toList).sublist.eq_of_length long

/-! ## The audit -/

/-- The paths that the audit reports. -/
def offending (changed globs : List String) : List String :=
  changed.filter fun p => !pathInGlobs p globs

/-- The path lies under one of the globs. -/
def Covered (globs : List String) (path : String) : Prop := ∃ glob ∈ globs, MatchesPath glob path

/-- For every write-set whose globs keep their names, the audit reports the paths outside it
and no others, and its verdict says whether there are any. -/
def AuditExact (view : GitView) (candidate base : Sha) (changed : List String) : Prop :=
  ∀ globs, (∀ glob ∈ globs, Declared glob ∧ Unrenamed glob) →
    (∀ p ∈ changed, p ∈ offending changed globs ↔ ¬ Covered globs p) ∧
      (writesetAudit (some view) (some candidate) (some base) globs = .CLEAN ↔
        ∀ p ∈ changed, Covered globs p)

theorem pathInGlobs_iff {path : String} {globs : List String} (exact : ExactOn path)
    (leased : ∀ glob ∈ globs, Declared glob ∧ Unrenamed glob) :
    pathInGlobs path globs = true ↔ Covered globs path := by
  rw [pathInGlobs, List.any_eq_true, Covered]
  apply exists_congr
  intro glob
  apply and_congr_right
  intro mem
  exact (exact glob (leased glob mem).1 (leased glob mem).2).1

theorem auditExact_of_exactOn {view : GitView} {candidate base : Sha} {changed : List String}
    (read : view.changedPaths candidate base = some changed) (exact : ∀ p ∈ changed, ExactOn p) :
    AuditExact view candidate base changed := by
  intro globs leased
  constructor
  · intro p mem
    rw [offending, List.mem_filter, ← pathInGlobs_iff (exact p mem) leased]
    simp [mem]
  · have verdict : writesetAudit (some view) (some candidate) (some base) globs = .CLEAN ↔
        ∀ p ∈ changed, pathInGlobs p globs = true := by
      rw [← List.all_eq_true]
      simp only [writesetAudit, read]
      split <;> simp_all
    rw [verdict]
    apply forall₂_congr
    intro p mem
    exact pathInGlobs_iff (exact p mem) leased

/-- The matcher is exact on the paths that it does not rename, and on no others; and so is the
audit of a candidate that changes such paths. -/
theorem writesetAudit_exact_iff {path : String} (normal : GitNormal path) {view : GitView}
    {candidate base : Sha} {changed : List String}
    (read : view.changedPaths candidate base = some changed)
    (relative : ∀ p ∈ changed, GitNormal p) :
    (ExactOn path ↔ Unrenamed path) ∧
      (AuditExact view candidate base changed ↔ ∀ p ∈ changed, Unrenamed p) := by
  refine ⟨⟨fun exact => ?_, exactOn_of_unrenamed⟩, fun audit p mem => ?_,
    fun named => auditExact_of_exactOn read fun p mem => exactOn_of_unrenamed (named p mem)⟩
  · obtain ⟨declared, named⟩ := profileGlob_declared normal
    exact unrenamed_of_profileGlob normal
      ((exact _ declared named).1.mpr (matchesPath_profileGlob normal))
  · have normal := relative p mem
    have covered : Covered [profileGlob p] p :=
      ⟨_, List.mem_singleton_self _, matchesPath_profileGlob normal⟩
    have silent : p ∉ offending changed [profileGlob p] := by
      have leased : ∀ glob ∈ [profileGlob p], Declared glob ∧ Unrenamed glob := by
        intro glob hglob
        rw [List.mem_singleton.mp hglob]
        exact profileGlob_declared normal
      rw [((audit _ leased).1 p mem)]
      exact fun outside => outside covered
    have found : pathInGlobs p [profileGlob p] = true := by
      by_contra missed
      exact silent (List.mem_filter.mpr ⟨mem, by simpa using missed⟩)
    apply unrenamed_of_profileGlob normal
    simpa [pathInGlobs] using found

/-- A candidate that changes one file. -/
def oneFile (path : String) : GitView := { changedPaths := fun _ _ => some [path] }

theorem gitNormal_of_decide {path : String}
    (h : (rawSegments path).all (fun s => s != [] && s != ['.'] && s != ['.', '.']) = true) :
    GitNormal path := by
  intro s mem
  have normal := List.all_eq_true.mp h s mem
  simp only [Bool.and_eq_true, bne_iff_ne, ne_eq] at normal
  exact ⟨normal.1.1, normal.1.2, normal.2⟩

/-- A dot-file below the first segment is audited under its name. -/
theorem writesetAudit_exact_dotfile :
    GitNormal "src/.env" ∧
      (ExactOn "src/.env" ↔ Unrenamed "src/.env") ∧
        (AuditExact (oneFile "src/.env") "c" "b" ["src/.env"] ↔
          ∀ p ∈ ["src/.env"], Unrenamed p) := by
  have normal : GitNormal "src/.env" := gitNormal_of_decide (by decide)
  refine ⟨normal, writesetAudit_exact_iff normal rfl ?_⟩
  intro p mem
  rw [List.mem_singleton.mp mem]
  exact normal

/-- A task that holds `env` may merge `.env`. -/
theorem dotfile_passes_audit :
    ∃ path glob, GitNormal path ∧ Declared glob ∧ LiteralGlob glob ∧
      pathMatchesGlob glob path = true ∧ ¬ MatchesPath glob path ∧ path ≠ glob ∧
        ¬ Covered [glob] path ∧ path ∉ offending [path] [glob] ∧
          writesetAudit (some (oneFile path)) (some "c") (some "b") [glob] = .CLEAN := by
  have literal : LiteralGlob "env" := ⟨by decide, by decide⟩
  have other : ¬ MatchesPath "env" ".env" := by
    rw [matchesPath_literal literal]
    decide
  refine ⟨".env", "env", gitNormal_of_decide (by decide), ⟨by decide, by decide⟩,
    literal, by decide, other, by decide, ?_, by decide, by decide⟩
  rintro ⟨glob, mem, covered⟩
  rw [List.mem_singleton.mp mem] at covered
  exact other covered

end Omd
