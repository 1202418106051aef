import Mathlib
import PromptPack.Proofs.Walk.Globs
/-!
# Which files a walk keeps

The globs that files have to match, and who wins when both kinds of globs match, decide nothing but the marks
of the files: a walk finds the same entries whatever they are (`walk_eq_map_remark`). So giving priority to
includes that were not given clears the mark of every file that an exclude glob matches, and changes nothing
exactly when there is no such file (`priority_without_includes_iff`).
-/

namespace PromptPack

/-- Some glob of the list matches the path. -/
def AnyMatches (globs : List String) (rel : Path) : Prop := ∃ glob ∈ globs, GlobMatches glob rel

namespace Walker

variable {fs : FileSystem} {home root : Path} {excludes includes : List String} {w w' : Walker} {rel : Path}
  {e : WalkEntry}

/-! ## Marks -/

/-- The entry with the mark that the walker gives it, if it is that of a file. -/
def remark (w : Walker) (e : WalkEntry) : WalkEntry :=
  if e.isDir then e else { e with excluded := !w.shouldInclude e.rel }

theorem remark_rel (w : Walker) (e : WalkEntry) : (w.remark e).rel = e.rel := by
  unfold remark
  split <;> rfl

theorem remark_isDir (w : Walker) (e : WalkEntry) : (w.remark e).isDir = e.isDir := by
  unfold remark
  split <;> rfl

theorem remark_eq_self_iff (hfile : e.isDir = false) : w.remark e = e ↔ e.excluded = !w.shouldInclude e.rel := by
  obtain ⟨path, rel, isDir, excluded⟩ := e
  obtain rfl : isDir = false := hfile
  simp [remark, eq_comm]

/-- The walker that keeps other files and goes the same ways. -/
def keeping (w : Walker) (only : Option (List Glob.Pattern)) (priority : Bool) : Walker :=
  { w with only := only, includePriority := priority }

section

variable (w : Walker) (only : Option (List Glob.Pattern)) (priority : Bool)

theorem entriesBelow_keeping (fs : FileSystem) (ambient : Ignore.Rules) (depth : Nat) (st : Stage) :
    (w.keeping only priority).entriesBelow fs ambient depth st =
      (w.entriesBelow fs ambient depth st).map (w.keeping only priority).remark := by
  induction depth generalizing st with
  | zero => rfl
  | succ depth ih =>
    rw [entriesBelow, entriesBelow, List.map_flatMap]
    refine List.flatMap_congr fun ⟨name, item⟩ _ => ?_
    -- Where the walk goes does not depend on what it keeps.
    have hfind : (w.keeping only priority).find = w.find := rfl
    have hpruned : (w.keeping only priority).isPruned = w.isPruned := rfl
    have hignore : (w.keeping only priority).ignoreFiles = w.ignoreFiles := rfl
    have henter : st.enter (w.keeping only priority) = st.enter w := rfl
    dsimp only
    rw [hfind, hpruned, hignore, henter]
    cases w.find fs st.within (st.loc ++ [name]) item with
    | nothing => rfl
    | file =>
      dsimp only
      split <;> rfl
    | dir loc =>
      dsimp only
      split
      · rfl
      · split
        · rfl
        · rw [ih, List.map_cons]
          rfl

theorem singleFile_keeping (fs : FileSystem) (root : Path) : (w.keeping only priority).singleFile fs root =
    (w.singleFile fs root).map (w.keeping only priority).remark := by
  have hlinks : (w.keeping only priority).followLinks = w.followLinks := rfl
  rw [singleFile, singleFile, hlinks]
  split
  · rfl
  · cases root.fileName? <;> rfl

/-- A walk finds the same entries whatever it keeps, and marks the files by what it keeps. -/
theorem walk_eq_map_remark (fs : FileSystem) (home root : Path) : (w.keeping only priority).walk fs home root =
    (w.walk fs home root).map (w.keeping only priority).remark := by
  have hignore : (w.keeping only priority).ignoreFiles = w.ignoreFiles := rfl
  have hstage : (w.keeping only priority).rootStage fs root = w.rootStage fs root := rfl
  rw [walk, walk, hignore, hstage]
  split
  · split
    · rfl
    · dsimp only
      rw [entriesBelow_keeping]
      refine (List.map_mergeSort fun a _ b _ => ?_).symm
      rw [remark_rel, remark_rel]
  · rw [singleFile_keeping]
    cases w.singleFile fs root <;> rfl

end

/-! ## What the globs say of a file -/

/-- The walker was made from these globs, as far as files go. -/
structure Judges (w : Walker) (excludes includes : List String) : Prop where
  exclude : compileGlobs (excludes ++ [alwaysExcluded]) = .ok w.exclude
  only : (includes = [] ∧ w.only = none) ∨
    ∃ patterns, includes ≠ [] ∧ compileGlobs includes = .ok patterns ∧ w.only = some patterns

theorem judges_of_withIncludes (hexcludes : ofExcludes excludes = .ok w) (hincludes : w.withIncludes includes = .ok w')
    (priority followLinks ignoreFiles : Bool) :
    Judges { w' with includePriority := priority, followLinks := followLinks, ignoreFiles := ignoreFiles }
      excludes includes := by
  have hexclude := (compiled_of_ofExcludes hexcludes).1
  unfold withIncludes at hincludes
  split at hincludes
  · rename_i hnone
    cases hincludes
    exact ⟨hexclude, .inl ⟨List.isEmpty_iff.1 hnone, rfl⟩⟩
  · rename_i hsome
    cases hpatterns : compileGlobs includes with
    | error e =>
      rw [hpatterns] at hincludes
      cases hincludes
    | ok patterns =>
      rw [hpatterns] at hincludes
      cases hincludes
      exact ⟨hexclude, .inr ⟨patterns, by simpa using hsome, hpatterns, rfl⟩⟩

/-- A file is kept when it is asked for, or nothing is, and no exclude glob matches it or includes come first. -/
theorem Judges.shouldInclude_iff (h : w.Judges excludes includes) : w.shouldInclude rel = true ↔
    (includes = [] ∨ AnyMatches includes rel) ∧
      (AnyMatches (excludes ++ [alwaysExcluded]) rel → w.includePriority = true) := by
  have hexcluded : w.isExcluded rel = true ↔ AnyMatches (excludes ++ [alwaysExcluded]) rel :=
    matchesAny_iff_of_compileGlobs h.exclude
  rw [← hexcluded, shouldInclude]
  rcases h.only with ⟨hnone, honly⟩ | ⟨patterns, hsome, hpatterns, honly⟩
  · rw [honly]
    cases w.isExcluded rel <;> simp [hnone]
  · have hincluded : matchesAny patterns rel = true ↔ AnyMatches includes rel := matchesAny_iff_of_compileGlobs hpatterns
    rw [honly, ← hincluded]
    cases w.isExcluded rel <;> simp [hsome]

/-! ## Priority -/

/-- The mark of a file says whether it is kept. -/
theorem excluded_of_mem_walk (h : e ∈ w.walk fs home root) (hfile : e.isDir = false) :
    e.excluded = !w.shouldInclude e.rel := by
  have hself : w.walk fs home root = (w.walk fs home root).map w.remark :=
    walk_eq_map_remark w w.only w.includePriority fs home root
  rw [hself] at h
  obtain ⟨e', -, rfl⟩ := List.mem_map.1 h
  rw [remark_isDir] at hfile
  simp [remark, hfile]

theorem Judges.kept_iff (h : w.Judges excludes includes) (he : e ∈ w.walk fs home root) (hfile : e.isDir = false) :
    e.excluded = false ↔ (includes = [] ∨ AnyMatches includes e.rel) ∧
      (AnyMatches (excludes ++ [alwaysExcluded]) e.rel → w.includePriority = true) := by
  rw [excluded_of_mem_walk he hfile, Bool.not_eq_false', h.shouldInclude_iff]

/-- A file of the walk matches an exclude glob. -/
def MeetsExcluded (w : Walker) (fs : FileSystem) (home root : Path) (excludes : List String) : Prop :=
  ∃ e ∈ w.walk fs home root, e.isDir = false ∧ AnyMatches (excludes ++ [alwaysExcluded]) e.rel

theorem meetsExcluded_keeping (w : Walker) (only : Option (List Glob.Pattern)) (priority : Bool) :
    (w.keeping only priority).MeetsExcluded fs home root excludes ↔ w.MeetsExcluded fs home root excludes := by
  simp only [MeetsExcluded, walk_eq_map_remark, List.mem_map, exists_exists_and_eq_and, remark_isDir, remark_rel]

theorem Judges.keeping (h : w.Judges excludes includes) (priority : Bool) :
    (w.keeping w.only priority).Judges excludes includes := ⟨h.exclude, h.only⟩

/-- Without includes, priority clears the marks of the files that exclude globs match. -/
theorem Judges.walk_priority_eq_iff (h : w.Judges excludes []) (hpriority : w.includePriority = false) :
    (w.keeping w.only true).walk fs home root = w.walk fs home root ↔ ¬ w.MeetsExcluded fs home root excludes := by
  have hmark (e : WalkEntry) (he : e ∈ w.walk fs home root) : (w.keeping w.only true).remark e = e ↔
      (e.isDir = false → ¬ AnyMatches (excludes ++ [alwaysExcluded]) e.rel) := by
    cases hdir : e.isDir with
    | true => simp [remark, hdir]
    | false =>
      have hkeeps : (w.keeping w.only true).shouldInclude e.rel = true :=
        (h.keeping true).shouldInclude_iff.2 ⟨.inl rfl, fun _ => rfl⟩
      rw [remark_eq_self_iff hdir, hkeeps, Bool.not_true, h.kept_iff he hdir, hpriority]
      simp
  have hmap : (w.walk fs home root).map (w.keeping w.only true).remark = w.walk fs home root ↔
      ∀ e ∈ w.walk fs home root, (w.keeping w.only true).remark e = e := by
    conv_lhs => rhs; rw [← List.map_id (w.walk fs home root)]
    exact List.map_inj_left
  rw [walk_eq_map_remark, hmap, forall₂_congr hmark]
  simp only [MeetsExcluded, not_exists, not_and]

/-- A file that an exclude glob matches is kept only if an include matches it, unless there are no includes and
they have priority. -/
theorem Judges.kept_by_include_iff (h : w.Judges excludes includes) :
    (∀ e ∈ w.walk fs home root, e.isDir = false → e.excluded = false →
        AnyMatches (excludes ++ [alwaysExcluded]) e.rel → AnyMatches includes e.rel) ↔
      (includes = [] → w.includePriority = true → ¬ w.MeetsExcluded fs home root excludes) := by
  constructor
  · rintro hall rfl hpriority ⟨e, he, hfile, hexcluded⟩
    have hkept := (h.kept_iff he hfile).2 ⟨.inl rfl, fun _ => hpriority⟩
    obtain ⟨glob, hglob, -⟩ := hall e he hfile hkept hexcluded
    cases hglob
  · intro hnone e he hfile hkept hexcluded
    obtain ⟨hincluded, hpriority⟩ := (h.kept_iff he hfile).1 hkept
    rcases hincluded with hempty | hincluded
    · exact absurd ⟨e, he, hfile, hexcluded⟩ (hnone hempty (hpriority hexcluded))
    · exact hincluded

/-- Without includes, priority of includes changes nothing exactly when no file of the walk matches an exclude
glob; and a file that an exclude glob matches is kept only if an include matches it, unless priority was
given to no includes and there is such a file. -/
theorem priority_without_includes_iff {excludes includes : List String} {w w' : Walker}
    (hexcludes : ofExcludes excludes = .ok w) (hincludes : w.withIncludes includes = .ok w')
    (followLinks ignoreFiles : Bool) (fs : FileSystem) (home root : Path) :
    let v (priority : Bool) : Walker :=
      { w' with includePriority := priority, followLinks := followLinks, ignoreFiles := ignoreFiles }
    (includes = [] → ((v true).walk fs home root = (v false).walk fs home root ↔
        ¬ (v false).MeetsExcluded fs home root excludes)) ∧
      ∀ priority, (∀ e ∈ (v priority).walk fs home root, e.isDir = false → e.excluded = false →
          AnyMatches (excludes ++ [alwaysExcluded]) e.rel → AnyMatches includes e.rel) ↔
        (includes = [] → priority = true → ¬ (v false).MeetsExcluded fs home root excludes) := by
  intro v
  have hjudges (priority : Bool) : (v priority).Judges excludes includes :=
    judges_of_withIncludes hexcludes hincludes priority followLinks ignoreFiles
  have hmeets (priority : Bool) :
      (v priority).MeetsExcluded fs home root excludes ↔ (v false).MeetsExcluded fs home root excludes :=
    meetsExcluded_keeping (v false) w'.only priority
  constructor
  · rintro rfl
    exact (hjudges false).walk_priority_eq_iff rfl
  · intro priority
    rw [(hjudges priority).kept_by_include_iff, hmeets priority]

/-- A log and nothing else. -/
def oneLog : FileSystem where
  items := [(["a.log"], .file .empty)]
  cwd := []

/-- The walker that leaves out logs. -/
def withoutLogs : Walker where
  exclude := [[.run, .literal '.', .literal 'l', .literal 'o', .literal 'g'],
    [.leading, .literal '.', .literal 'g', .literal 'i', .literal 't', .trailing]]
  excludeDirs := [[.run, .literal '.', .literal 'l', .literal 'o', .literal 'g'],
    [.leading, .literal '.', .literal 'g', .literal 'i', .literal 't']]
  only := none
  includePriority := false
  followLinks := false
  ignoreFiles := true

theorem ofExcludes_logs : ofExcludes ["*.log"] = .ok withoutLogs := by cbv

theorem withIncludes_none : withoutLogs.withIncludes [] = .ok withoutLogs := rfl

theorem priority_without_includes_iff_at_log :
    ofExcludes ["*.log"] = .ok withoutLogs ∧ withoutLogs.withIncludes [] = .ok withoutLogs ∧
      let v (priority : Bool) : Walker :=
        { withoutLogs with includePriority := priority, followLinks := false, ignoreFiles := false }
      (([] : List String) = [] → ((v true).walk oneLog ⟨"/h"⟩ ⟨"."⟩ = (v false).walk oneLog ⟨"/h"⟩ ⟨"."⟩ ↔
          ¬ (v false).MeetsExcluded oneLog ⟨"/h"⟩ ⟨"."⟩ ["*.log"])) ∧
        ∀ priority, (∀ e ∈ (v priority).walk oneLog ⟨"/h"⟩ ⟨"."⟩, e.isDir = false → e.excluded = false →
            AnyMatches (["*.log"] ++ [alwaysExcluded]) e.rel → AnyMatches [] e.rel) ↔
          (([] : List String) = [] → priority = true → ¬ (v false).MeetsExcluded oneLog ⟨"/h"⟩ ⟨"."⟩ ["*.log"]) :=
  ⟨ofExcludes_logs, withIncludes_none,
    priority_without_includes_iff ofExcludes_logs withIncludes_none false false oneLog ⟨"/h"⟩ ⟨"."⟩⟩

/-- With priority, but no includes to have it, the log is kept. -/
theorem priority_without_includes_keeps_log :
    let v (priority : Bool) : Walker :=
      { withoutLogs with includePriority := priority, followLinks := false, ignoreFiles := false }
    ofExcludes ["*.log"] = .ok withoutLogs ∧ withoutLogs.withIncludes [] = .ok withoutLogs ∧
      (v false).walk oneLog ⟨"/h"⟩ ⟨"."⟩ = [⟨⟨"./a.log"⟩, ⟨"a.log"⟩, false, true⟩] ∧
      (v true).walk oneLog ⟨"/h"⟩ ⟨"."⟩ = [⟨⟨"./a.log"⟩, ⟨"a.log"⟩, false, false⟩] :=
  ⟨ofExcludes_logs, withIncludes_none, by cbv, by cbv⟩

end Walker

end PromptPack
