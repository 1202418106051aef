import PromptPack.Proofs.Glob.Builtin
import PromptPack.Proofs.Text.Bytes
import PromptPack.Proofs.Text.Pieces
import PromptPack.Proofs.Yields
import PromptPack.Walk
/-!
# The globs of a walk

A walker compiles its globs once. What the compiled patterns say of a path is what the globs say of
it, one by one: a directory is pruned when some exclude glob matches it, or would match it without
the ending that asks for the contents of a directory. So there is a walker when all globs compile
with and without that ending, and without it they do unless a backslash took the ending's slash
(`exists_parse_directoryGlob_iff`).
-/

namespace PromptPack

/-- The glob compiles to a pattern that matches the path. -/
def GlobMatches (glob : String) (rel : Path) : Prop :=
  ∃ p : Glob.Pattern, Glob.parse glob = .ok p ∧ p.matches rel.text = true

/-- Some exclude glob matches the directory, as it stands or as a glob for the directory. -/
def Prunes (excludes : List String) (rel : Path) : Prop :=
  ∃ glob ∈ excludes ++ [alwaysExcluded], GlobMatches glob rel ∨ GlobMatches (directoryGlob glob) rel

/-- The empty glob matches nothing but the empty path. -/
theorem not_globMatches_empty {rel : Path} (h : rel.text ≠ "") : ¬ GlobMatches "" rel := by
  rintro ⟨p, hp, hmatches⟩
  obtain rfl : [] = p := Except.ok.inj hp
  simp only [Glob.Pattern.matches, Glob.runAll, Bool.and_eq_true, List.isEmpty_iff] at hmatches
  refine h (Text.toUTF8_toList_inj.1 (hmatches.1.trans ?_))
  simp

theorem globMatches_all (rel : Path) : GlobMatches "**/**" rel := ⟨[.leading], rfl, rfl⟩

/-- A glob is its directory glob, with or without the ending for the contents. -/
theorem eq_directoryGlob_or (glob : String) : glob = directoryGlob glob ∨ glob = directoryGlob glob ++ "/**" := by
  unfold directoryGlob
  split
  · rename_i cs h
    rw [Ignore.dropEnd?, Option.map_eq_some_iff] at h
    obtain ⟨rest, hrest, rfl⟩ := h
    rw [Text.dropStart?_eq_some_iff, List.reverse_eq_append_iff, List.reverse_reverse] at hrest
    right
    rw [← String.toList_inj, String.toList_append, String.toList_ofList, hrest]
  · exact .inl rfl

theorem directoryGlob_append (dir : String) : directoryGlob (dir ++ "/**") = dir := by
  have hcut : Ignore.dropEnd? "/**".toList (dir ++ "/**").toList = some dir.toList := by
    rw [Ignore.dropEnd?, String.toList_append, List.reverse_append,
      Text.dropStart?_eq_some_iff.2 rfl, Option.map_some, List.reverse_reverse]
  rw [directoryGlob, hcut]
  exact String.ofList_toList

variable {globs : List String} {patterns : List Glob.Pattern} {rel : Path}

theorem matchesAny_iff_of_compileGlobs (h : compileGlobs globs = .ok patterns) :
    Walker.matchesAny patterns rel = true ↔ ∃ glob ∈ globs, GlobMatches glob rel := by
  rw [compileGlobs, mapM_eq_ok_iff] at h
  induction h with
  | nil => simp [Walker.matchesAny]
  | @cons glob p globs patterns hglob _ ih =>
    have hfirst : GlobMatches glob rel ↔ p.matches rel.text = true := by
      simp [GlobMatches, hglob]
    simpa [Walker.matchesAny, hfirst] using or_congr_right ih

/-- Globs compile together when they do one by one. -/
theorem exists_compileGlobs_iff :
    (∃ patterns, compileGlobs globs = .ok patterns) ↔ ∀ glob ∈ globs, ∃ p, Glob.parse glob = .ok p :=
  exists_mapM_eq_ok_iff

namespace Walker

variable {excludes includes : List String} {w w' : Walker}

theorem compiled_of_ofExcludes (h : ofExcludes excludes = .ok w) :
    compileGlobs (excludes ++ [alwaysExcluded]) = .ok w.exclude ∧
      compileGlobs (((excludes ++ [alwaysExcluded]).map directoryGlob).filter fun g => g != "" && g != "**") =
        .ok w.excludeDirs := by
  simp only [ofExcludes, bind, Except.bind, pure, Except.pure] at h
  split at h
  · cases h
  · rename_i exclude hexclude
    split at h
    · cases h
    · rename_i dirs hdirs
      cases h
      exact ⟨hexclude, hdirs⟩

/-- The globs of a walker compile as globs for directories as well. -/
theorem exists_parse_directoryGlob {glob : String} (h : ofExcludes excludes = .ok w)
    (hglob : glob ∈ excludes ++ [alwaysExcluded]) : ∃ p, Glob.parse (directoryGlob glob) = .ok p := by
  by_cases hempty : directoryGlob glob = ""
  · exact ⟨[], by rw [hempty]; rfl⟩
  · by_cases hall : directoryGlob glob = "**"
    · exact ⟨[.leading], by rw [hall]; rfl⟩
    · refine exists_compileGlobs_iff.1 ⟨_, (compiled_of_ofExcludes h).2⟩ _ (List.mem_filter.2 ⟨?_, ?_⟩)
      · exact List.mem_map_of_mem hglob
      · simp [hempty, hall]

/-- Globs that parse, as they stand and as globs for directories, make a walker. -/
theorem exists_ofExcludes (hall : ∀ glob ∈ excludes ++ [alwaysExcluded], ∃ p, Glob.parse glob = .ok p)
    (hdirs : ∀ glob ∈ ((excludes ++ [alwaysExcluded]).map directoryGlob).filter fun g => g != "" && g != "**",
      ∃ p, Glob.parse glob = .ok p) : ∃ w, ofExcludes excludes = .ok w := by
  obtain ⟨exclude, hexclude⟩ := exists_compileGlobs_iff.2 hall
  obtain ⟨dirs, hdirs⟩ := exists_compileGlobs_iff.2 hdirs
  simp only [ofExcludes, hexclude, hdirs]
  exact ⟨_, rfl⟩

/-! ## When there is a walker -/

/-- The glob is one for the contents of what another one names, but a backslash takes its slash. -/
def EscapesSlash (glob : String) : Prop := ∃ dir, (∃ p, Glob.parse dir = .ok p) ∧ glob = dir ++ "\\/**"

/-- The glob for directories ends in the backslash. -/
theorem parse_directoryGlob_of_escape {dir : String} (h : ∃ p, Glob.parse dir = .ok p) :
    Glob.parse (directoryGlob (dir ++ "\\/**")) = .error ⟨dir ++ "\\", .danglingEscape⟩ := by
  have hglob : dir ++ "\\/**" = dir ++ "\\" ++ "/**" := by rw [String.append_assoc]; rfl
  rw [hglob, directoryGlob_append]
  refine Glob.parse_eq_error ?_
  rw [String.toList_append]
  exact (Glob.exists_parse_iff.1 h).append (.dangling 0)

/-- A glob compiles as a glob for directories where it compiles as it stands and its slash is not escaped. -/
theorem exists_parse_directoryGlob_iff {glob : String} : (∃ p, Glob.parse (directoryGlob glob) = .ok p) ↔
    (∃ p, Glob.parse glob = .ok p) ∧ ¬ EscapesSlash glob := by
  have hslash : ∀ c ∈ ['/', '*', '*'], c ∉ Glob.special := by simp [Glob.special]
  constructor
  · intro h
    refine ⟨?_, ?_⟩
    · rcases eq_directoryGlob_or glob with heq | heq
      · rwa [heq]
      · rw [heq, Glob.exists_parse_iff, String.toList_append]
        exact (Glob.exists_parse_iff.1 h).append (Glob.FirstFault.done.append_plain hslash)
    · rintro ⟨dir, hdir, rfl⟩
      obtain ⟨p, hp⟩ := h
      cases hp.symm.trans (parse_directoryGlob_of_escape hdir)
  · rintro ⟨hglob, hescape⟩
    rcases eq_directoryGlob_or glob with heq | heq
    · rwa [← heq]
    · have hcontents := Glob.exists_parse_iff.1 hglob
      rw [heq, String.toList_append] at hcontents
      rcases Glob.FirstFault.soundOrEscaping hcontents with hsound | ⟨before, hbefore, hsound⟩
      · exact Glob.exists_parse_iff.2 hsound
      · refine absurd ⟨String.ofList before, ?_, ?_⟩ hescape
        · rwa [Glob.exists_parse_iff, String.toList_ofList]
        · rw [heq, ← String.toList_inj, String.toList_append, String.toList_append, hbefore, String.toList_ofList]
          simp

theorem not_escapesSlash_of_plain {glob : String} (h : Glob.Plain glob) : ¬ EscapesSlash glob := by
  rintro ⟨dir, -, rfl⟩
  exact h '\\' (by simp [Glob.special]) (by simp)

theorem plain_alwaysExcluded : Glob.Plain alwaysExcluded := by simp [Glob.Plain, Glob.special, alwaysExcluded]

theorem exists_parse_directoryGlob_alwaysExcluded : ∃ p, Glob.parse (directoryGlob alwaysExcluded) = .ok p :=
  exists_parse_directoryGlob_iff.2
    ⟨Glob.exists_parse_of_plain plain_alwaysExcluded, not_escapesSlash_of_plain plain_alwaysExcluded⟩

theorem exists_ofExcludes_iff :
    (∃ w, ofExcludes excludes = .ok w) ↔ ∀ glob ∈ excludes, ∃ p, Glob.parse (directoryGlob glob) = .ok p := by
  constructor
  · rintro ⟨w, hw⟩ glob hglob
    exact exists_parse_directoryGlob hw (List.mem_append_left _ hglob)
  · intro h
    have hdirs : ∀ glob ∈ excludes ++ [alwaysExcluded], ∃ p, Glob.parse (directoryGlob glob) = .ok p := by
      rw [List.forall_mem_append, List.forall_mem_singleton]
      exact ⟨h, exists_parse_directoryGlob_alwaysExcluded⟩
    refine exists_ofExcludes (fun glob hglob => (exists_parse_directoryGlob_iff.1 (hdirs glob hglob)).1) fun glob hglob => ?_
    obtain ⟨contents, hcontents, rfl⟩ := List.mem_map.1 (List.mem_filter.1 hglob).1
    exact hdirs contents hcontents

/-- Plain globs make a walker. -/
theorem exists_ofExcludes_of_plain {globs : List String} (h : ∀ glob ∈ globs, Glob.Plain glob) :
    ∃ w, ofExcludes globs = .ok w :=
  exists_ofExcludes_iff.2 fun glob hglob =>
    exists_parse_directoryGlob_iff.2 ⟨Glob.exists_parse_of_plain (h glob hglob), not_escapesSlash_of_plain (h glob hglob)⟩

theorem compileGlobs_concat_eq_error_iff {e : Glob.GlobError} :
    compileGlobs (excludes ++ [alwaysExcluded]) = .error e ↔ excludes.mapM Glob.parse = .error e := by
  obtain ⟨p, hp⟩ := Glob.exists_parse_of_plain plain_alwaysExcluded
  exact mapM_concat_eq_error_iff hp

/-- The globs for directories that are left out would compile. -/
theorem compileGlobs_dirs_eq_error_iff {e : Glob.GlobError} :
    compileGlobs (((excludes ++ [alwaysExcluded]).map directoryGlob).filter fun g => g != "" && g != "**") = .error e ↔
      excludes.mapM (fun glob => Glob.parse (directoryGlob glob)) = .error e := by
  obtain ⟨p, hp⟩ := exists_parse_directoryGlob_alwaysExcluded
  rw [compileGlobs, mapM_filter_eq_error_iff, List.mapM_map]
  · exact mapM_concat_eq_error_iff hp
  · intro glob _ hout
    rw [Bool.and_eq_false_iff, bne_eq_false_iff_eq, bne_eq_false_iff_eq] at hout
    rcases hout with rfl | rfl
    · exact ⟨[], rfl⟩
    · exact ⟨[.leading], rfl⟩

/-- The globs are compiled as they stand before any of them is as a glob for directories. -/
theorem ofExcludes_eq_error_iff {e : Glob.GlobError} : ofExcludes excludes = .error e ↔
    excludes.mapM Glob.parse = .error e ∨ (∀ glob ∈ excludes, ∃ p, Glob.parse glob = .ok p) ∧
      excludes.mapM (fun glob => Glob.parse (directoryGlob glob)) = .error e := by
  rw [← compileGlobs_concat_eq_error_iff, ← compileGlobs_dirs_eq_error_iff]
  simp only [ofExcludes, bind, Except.bind, pure, Except.pure]
  cases hall : compileGlobs (excludes ++ [alwaysExcluded]) with
  | error e' =>
    have hnot : ¬ ∀ glob ∈ excludes, ∃ p, Glob.parse glob = .ok p := by
      intro h
      obtain ⟨ps, hps⟩ := exists_compileGlobs_iff.2 h
      rw [compileGlobs_concat_eq_error_iff] at hall
      cases hall.symm.trans hps
    simp [hnot]
  | ok exclude =>
    have hparse : ∀ glob ∈ excludes, ∃ p, Glob.parse glob = .ok p := fun glob hglob =>
      exists_compileGlobs_iff.1 ⟨_, hall⟩ glob (List.mem_append_left _ hglob)
    dsimp only
    split <;> simp_all

/-- A glob that compiles, but not as a glob for directories, is refused for the backslash that its cut leaves. -/
theorem parse_directoryGlob_eq_error_iff {glob : String} {e : Glob.GlobError} (h : ∃ p, Glob.parse glob = .ok p) :
    Glob.parse (directoryGlob glob) = .error e ↔
      ∃ dir, (∃ p, Glob.parse dir = .ok p) ∧ glob = dir ++ "\\/**" ∧ e = ⟨dir ++ "\\", .danglingEscape⟩ := by
  constructor
  · intro herror
    have hescape : EscapesSlash glob := by
      by_contra hnot
      obtain ⟨p, hp⟩ := exists_parse_directoryGlob_iff.2 ⟨h, hnot⟩
      cases herror.symm.trans hp
    obtain ⟨dir, hdir, rfl⟩ := hescape
    exact ⟨dir, hdir, rfl, Except.error.inj (herror.symm.trans (parse_directoryGlob_of_escape hdir))⟩
  · rintro ⟨dir, hdir, rfl, rfl⟩
    exact parse_directoryGlob_of_escape hdir

/-- There is a walker of globs that compile, one by one, none of which ends in the contents of a directory behind an
escaped slash. Else the first glob that does not compile is refused, if there is one, and if there is none the first
whose slash is escaped, in the form in which the ending is cut off behind the backslash. -/
theorem walker_of_globs_iff (globs : List String) :
    ((∃ w, ofExcludes globs = .ok w) ↔
      (∀ glob ∈ globs, ∃ p, Glob.parse glob = .ok p) ∧ ∀ glob ∈ globs, ¬ EscapesSlash glob) ∧
    ∀ e, ofExcludes globs = .error e ↔
      (∃ front glob back, globs = front ++ glob :: back ∧ (∀ g ∈ front, ∃ p, Glob.parse g = .ok p) ∧
        Glob.parse glob = .error e) ∨
      (∀ glob ∈ globs, ∃ p, Glob.parse glob = .ok p) ∧
        ∃ front dir back, globs = front ++ (dir ++ "\\/**") :: back ∧ (∀ g ∈ front, ¬ EscapesSlash g) ∧
          (∃ p, Glob.parse dir = .ok p) ∧ e = ⟨dir ++ "\\", .danglingEscape⟩ := by
  constructor
  · rw [exists_ofExcludes_iff, ← forall₂_and]
    exact forall₂_congr fun glob _ => exists_parse_directoryGlob_iff
  · intro e
    rw [ofExcludes_eq_error_iff, mapM_eq_error_iff, mapM_eq_error_iff]
    refine or_congr_right (and_congr_right fun hparse => ?_)
    constructor
    · rintro ⟨front, glob, back, rfl, hfront, herror⟩
      obtain ⟨dir, hdir, rfl, rfl⟩ := (parse_directoryGlob_eq_error_iff (hparse glob (by simp))).1 herror
      exact ⟨front, dir, back, rfl, fun g hg => (exists_parse_directoryGlob_iff.1 (hfront g hg)).2, hdir, rfl⟩
    · rintro ⟨front, dir, back, rfl, hfront, hdir, rfl⟩
      refine ⟨front, _, back, rfl, fun g hg => ?_, parse_directoryGlob_of_escape hdir⟩
      exact exists_parse_directoryGlob_iff.2 ⟨hparse g (List.mem_append_left _ hg), hfront g hg⟩

/-- The backslash stands for a slash where it is, and for nothing at all at the end. -/
theorem escaped_slash_makes_no_walker :
    (∀ glob ∈ ["a\\/**"], ∃ p, Glob.parse glob = .ok p) ∧ ofExcludes ["a\\/**"] = .error ⟨"a\\", .danglingEscape⟩ := by
  refine ⟨?_, rfl⟩
  rw [List.forall_mem_singleton]
  exact ⟨_, rfl⟩

/-- A new walker follows no links. -/
theorem followLinks_of_ofExcludes (h : ofExcludes excludes = .ok w) : w.followLinks = false := by
  simp only [ofExcludes, bind, Except.bind, pure, Except.pure] at h
  split at h
  · cases h
  · split at h <;> cases h
    rfl

/-- The two sets of patterns together prune what the globs prune: the directory globs that are left
out match no directory, or all of them. -/
theorem isPruned_iff (h : ofExcludes excludes = .ok w) {rel : Path} (hrel : rel.text ≠ "") :
    w.isPruned rel = true ↔ Prunes excludes rel := by
  obtain ⟨hexclude, hdirs⟩ := compiled_of_ofExcludes h
  rw [isPruned, isExcluded, Bool.or_eq_true, matchesAny_iff_of_compileGlobs hdirs,
    matchesAny_iff_of_compileGlobs hexclude]
  constructor
  · rintro (⟨_, hmem, hmatches⟩ | ⟨glob, hmem, hmatches⟩)
    · obtain ⟨glob, hglob, rfl⟩ := List.mem_map.1 (List.mem_filter.1 hmem).1
      exact ⟨glob, hglob, .inr hmatches⟩
    · exact ⟨glob, hmem, .inl hmatches⟩
  · rintro ⟨glob, hmem, hmatches | hmatches⟩
    · exact .inr ⟨glob, hmem, hmatches⟩
    · -- Only the directory globs that were filtered out need a second look.
      by_cases hempty : directoryGlob glob = ""
      · rw [hempty] at hmatches
        exact absurd hmatches (not_globMatches_empty hrel)
      · by_cases hall : directoryGlob glob = "**"
        · refine .inr ⟨glob, hmem, ?_⟩
          rcases eq_directoryGlob_or glob with heq | heq
          · rwa [heq]
          · rw [heq, hall]
            exact globMatches_all rel
        · refine .inl ⟨_, List.mem_filter.2 ⟨List.mem_map_of_mem hmem, ?_⟩, hmatches⟩
          simp [hempty, hall]

/-- Asking for files changes nothing else. -/
theorem eq_of_withIncludes (h : w.withIncludes includes = .ok w') : ∃ only, w' = { w with only := only } := by
  unfold withIncludes at h
  split at h
  · cases h
    exact ⟨none, rfl⟩
  · cases hpatterns : compileGlobs includes with
    | error e =>
      rw [hpatterns] at h
      cases h
    | ok patterns =>
      rw [hpatterns] at h
      cases h
      exact ⟨some patterns, rfl⟩

theorem isPruned_withIncludes (h : w.withIncludes includes = .ok w') (rel : Path) :
    w'.isPruned rel = w.isPruned rel := by
  obtain ⟨only, rfl⟩ := eq_of_withIncludes h
  rfl

end Walker

end PromptPack
