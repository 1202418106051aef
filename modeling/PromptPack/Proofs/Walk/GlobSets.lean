import Mathlib
import PromptPack.Proofs.Walk.Priority
import PromptPack.Proofs.Walk.Pruned
/-!
# Globs as sets

A walk asks its globs two things: whether a directory is pruned, and whether a file is kept. Both are answered by what
some glob of a list says, so neither the order of the globs nor a repetition shows in the walk. With more exclude globs
more is pruned and less is kept; with more include globs, where there are some, more is kept and nothing else changes
(`globs_are_sets`).
-/

namespace PromptPack

theorem AnyMatches.mono {globs globs' : List String} {rel : Path} (hsubset : globs ⊆ globs')
    (h : AnyMatches globs rel) : AnyMatches globs' rel := by
  obtain ⟨glob, hglob, hmatches⟩ := h
  exact ⟨glob, hsubset hglob, hmatches⟩

namespace Walker

/-- The walker for lists of globs and the settings of a walk. -/
def ofGlobs (excludes includes : List String) (includePriority followLinks ignoreFiles : Bool) :
    Except Glob.GlobError Walker := do
  let base ← ofExcludes excludes
  let w ← base.withIncludes includes
  return { w with
    includePriority := includePriority
    followLinks := followLinks
    ignoreFiles := ignoreFiles }

variable {excludes excludes' includes includes' : List String} {priority links ignores : Bool} {w w' : Walker}
  {fs : FileSystem} {home root rel : Path} {ambient : Ignore.Rules} {e : WalkEntry}

/-! ## Walkers that agree on where to go -/

/-- The walkers treat links and ignore files alike. -/
structure SameWays (w w' : Walker) : Prop where
  links : w'.followLinks = w.followLinks
  ignores : w'.ignoreFiles = w.ignoreFiles

/-- The first walker keeps what the second one keeps, and enters what the second one enters. -/
structure Exceeds (w w' : Walker) : Prop where
  ways : SameWays w w'
  prunes : ∀ rel, w.isPruned rel = true → w'.isPruned rel = true
  keeps : ∀ rel, w'.shouldInclude rel = true → w.shouldInclude rel = true

theorem SameWays.find_eq (h : SameWays w w') : w'.find = w.find := by
  funext fs within loc item
  cases item <;> simp [find, h.links]

theorem SameWays.enter_eq (h : SameWays w w') (st : Stage) : st.enter w' = st.enter w := by
  funext fs name loc
  simp [Stage.enter, h.ignores]

theorem SameWays.rootStage_eq (h : SameWays w w') : w'.rootStage = w.rootStage := by
  funext fs root loc
  simp [rootStage, h.ignores]

/-- What a walker keeps below a directory, one that exceeds it keeps as well. -/
theorem Exceeds.mem_entriesBelow (h : Exceeds w w') (depth : Nat) (st : Stage) (hfile : e.isDir = false)
    (hkept : e.excluded = false) (he : e ∈ w'.entriesBelow fs ambient depth st) :
    e ∈ w.entriesBelow fs ambient depth st := by
  induction depth generalizing st with
  | zero => simp [entriesBelow] at he
  | succ depth ih =>
    rw [entriesBelow, h.ways.find_eq, h.ways.ignores, h.ways.enter_eq] at he
    rw [entriesBelow]
    obtain ⟨x, hx, he⟩ := List.mem_flatMap.1 he
    refine List.mem_flatMap.2 ⟨x, hx, ?_⟩
    obtain ⟨name, item⟩ := x
    dsimp only at he ⊢
    generalize hrel : (⟨String.intercalate "/" (st.rel ++ [name])⟩ : Path) = rel at he ⊢
    cases hfind : w.find fs st.within (st.loc ++ [name]) item with
    | nothing => simp [hfind] at he
    | file =>
      rw [hfind] at he
      dsimp only at he ⊢
      split at he
      · cases he
      · rename_i hignored
        rw [if_neg hignored]
        obtain rfl := List.mem_singleton.1 he
        have hkeeps : w.shouldInclude rel = true := h.keeps rel (by simpa using hkept)
        have hkeeps' : w'.shouldInclude rel = true := by simpa using hkept
        simp [hkeeps, hkeeps']
    | dir loc =>
      rw [hfind] at he
      dsimp only at he ⊢
      split at he
      · cases he
      · rename_i hignored
        rw [if_neg hignored]
        split at he
        · obtain rfl := List.mem_singleton.1 he
          cases hfile
        · rename_i hentered
          -- A directory that is entered is entered by both.
          rw [if_neg fun hpruned => hentered (h.prunes rel hpruned)]
          rcases List.mem_cons.1 he with rfl | he
          · cases hfile
          · exact List.mem_cons_of_mem _ (ih _ he)

theorem Exceeds.mem_walk (h : Exceeds w w') (hfile : e.isDir = false) (hkept : e.excluded = false)
    (he : e ∈ w'.walk fs home root) : e ∈ w.walk fs home root := by
  unfold walk at he ⊢
  rw [h.ways.ignores, h.ways.rootStage_eq] at he
  split at he
  · split at he
    · cases he
    · rename_i hdash
      rw [if_neg hdash]
      rw [List.mem_mergeSort] at he ⊢
      exact h.mem_entriesBelow _ _ hfile hkept he
  · simp only [singleFile, h.ways.links, Option.mem_toList] at he ⊢
    split at he
    · cases he
    · rename_i hlink
      rw [if_neg hlink]
      obtain ⟨name, hname, rfl⟩ := Option.map_eq_some_iff.1 he
      have hkeeps' : w'.shouldInclude ⟨name⟩ = true := by simpa using hkept
      have hkeeps : w.shouldInclude ⟨name⟩ = true := h.keeps _ hkeeps'
      simp [hname, hkeeps, hkeeps']

theorem Exceeds.walkFiles_subset (h : Exceeds w w') : w'.walkFiles fs home root ⊆ w.walkFiles fs home root := by
  intro p hp
  simp only [walkFiles, List.mem_map, List.mem_filter, Bool.and_eq_true, Bool.not_eq_true'] at hp ⊢
  obtain ⟨e, ⟨he, hfile, hkept⟩, rfl⟩ := hp
  exact ⟨e, ⟨h.mem_walk hfile hkept he, hfile, hkept⟩, rfl⟩

/-- The walkers keep and enter the same. -/
structure Alike (w w' : Walker) : Prop where
  ways : SameWays w w'
  prunes : w'.isPruned = w.isPruned
  keeps : w'.shouldInclude = w.shouldInclude

theorem Alike.entriesBelow_eq (h : Alike w w') (depth : Nat) (st : Stage) :
    w'.entriesBelow fs ambient depth st = w.entriesBelow fs ambient depth st := by
  induction depth generalizing st with
  | zero => rfl
  | succ depth ih =>
    rw [entriesBelow, entriesBelow, h.ways.find_eq, h.ways.ignores, h.ways.enter_eq, h.prunes, h.keeps]
    refine List.flatMap_congr fun entry _ => ?_
    obtain ⟨name, item⟩ := entry
    dsimp only
    cases w.find fs st.within (st.loc ++ [name]) item with
    | nothing => rfl
    | file => rfl
    | dir loc => simp only [ih]

theorem Alike.walk_eq (h : Alike w w') (fs : FileSystem) (home root : Path) :
    w'.walk fs home root = w.walk fs home root := by
  unfold walk singleFile
  simp only [h.ways.ignores, h.ways.rootStage_eq, h.ways.links, h.keeps, h.entriesBelow_eq]

/-! ## What a walker is made of -/

/-- The globs that directories are matched against besides the exclude globs. -/
def directoryGlobs (excludes : List String) : List String :=
  ((excludes ++ [alwaysExcluded]).map directoryGlob).filter fun g => g != "" && g != "**"

theorem directoryGlobs_subset (h : excludes ⊆ excludes') : directoryGlobs excludes ⊆ directoryGlobs excludes' := by
  intro glob hglob
  obtain ⟨hmem, hkept⟩ := List.mem_filter.1 hglob
  obtain ⟨contents, hcontents, rfl⟩ := List.mem_map.1 hmem
  refine List.mem_filter.2 ⟨List.mem_map_of_mem ?_, hkept⟩
  rcases List.mem_append.1 hcontents with hgiven | halways
  · exact List.mem_append_left _ (h hgiven)
  · exact List.mem_append_right _ halways

/-- The walker has these settings, and its patterns are those of the globs. -/
structure MadeOf (w : Walker) (excludes includes : List String) (priority links ignores : Bool) : Prop where
  judges : w.Judges excludes includes
  dirs : compileGlobs (directoryGlobs excludes) = .ok w.excludeDirs
  priority : w.includePriority = priority
  links : w.followLinks = links
  ignores : w.ignoreFiles = ignores

theorem madeOf_of_ofGlobs (h : ofGlobs excludes includes priority links ignores = .ok w) :
    w.MadeOf excludes includes priority links ignores := by
  simp only [ofGlobs, bind, Except.bind, pure, Except.pure] at h
  split at h
  · cases h
  · rename_i base hbase
    split at h
    · cases h
    · rename_i v hv
      cases h
      refine ⟨judges_of_withIncludes hbase hv priority links ignores, ?_, rfl, rfl, rfl⟩
      obtain ⟨only, rfl⟩ := eq_of_withIncludes hv
      exact (compiled_of_ofExcludes hbase).2

/-- Globs that all parse make a walker. -/
theorem exists_ofGlobs (hexclude : ∀ glob ∈ excludes ++ [alwaysExcluded], ∃ p, Glob.parse glob = .ok p)
    (hdirs : ∀ glob ∈ directoryGlobs excludes, ∃ p, Glob.parse glob = .ok p)
    (hincludes : ∀ glob ∈ includes, ∃ p, Glob.parse glob = .ok p) (priority links ignores : Bool) :
    ∃ w, ofGlobs excludes includes priority links ignores = .ok w := by
  obtain ⟨base, hbase⟩ := exists_ofExcludes hexclude hdirs
  obtain ⟨patterns, hpatterns⟩ := exists_compileGlobs_iff.2 hincludes
  obtain ⟨v, hv⟩ : ∃ v, base.withIncludes includes = .ok v := by
    unfold withIncludes
    split
    · exact ⟨_, rfl⟩
    · rw [hpatterns]
      exact ⟨_, rfl⟩
  simp only [ofGlobs, hbase, bind, Except.bind, hv]
  exact ⟨_, rfl⟩

namespace MadeOf

theorem isPruned_iff (h : w.MadeOf excludes includes priority links ignores) : w.isPruned rel = true ↔
    AnyMatches (directoryGlobs excludes) rel ∨ AnyMatches (excludes ++ [alwaysExcluded]) rel := by
  rw [isPruned, isExcluded, Bool.or_eq_true, matchesAny_iff_of_compileGlobs h.dirs,
    matchesAny_iff_of_compileGlobs h.judges.exclude]
  rfl

theorem sameWays (h : w.MadeOf excludes includes priority links ignores)
    (h' : w'.MadeOf excludes' includes' priority links ignores) : SameWays w w' :=
  ⟨h'.links.trans h.links.symm, h'.ignores.trans h.ignores.symm⟩

/-- With fewer excludes, and more includes where some are given, less is pruned and more is kept. -/
theorem exceeds (h : w.MadeOf excludes includes priority links ignores)
    (h' : w'.MadeOf excludes' includes' priority links ignores) (hexcludes : excludes ⊆ excludes')
    (hincludes : includes' ⊆ includes) (hgiven : includes' = [] → includes = []) : Exceeds w w' := by
  have hall : excludes ++ [alwaysExcluded] ⊆ excludes' ++ [alwaysExcluded] :=
    List.append_subset.2
      ⟨List.Subset.trans hexcludes (List.subset_append_left _ _), List.subset_append_right _ _⟩
  refine ⟨h.sameWays h', fun rel hpruned => ?_, fun rel hkept => ?_⟩
  · rw [h.isPruned_iff] at hpruned
    rw [h'.isPruned_iff]
    rcases hpruned with hdir | hitself
    · exact .inl (hdir.mono (directoryGlobs_subset hexcludes))
    · exact .inr (hitself.mono hall)
  · rw [h'.judges.shouldInclude_iff, h'.priority] at hkept
    rw [h.judges.shouldInclude_iff, h.priority]
    obtain ⟨hasked, hpriority⟩ := hkept
    refine ⟨?_, fun hmatches => hpriority (hmatches.mono hall)⟩
    rcases hasked with hnone | hmatches
    · exact .inl (hgiven hnone)
    · exact .inr (hmatches.mono hincludes)

/-- Lists of the same globs make walkers that keep and enter the same. -/
theorem alike (h : w.MadeOf excludes includes priority links ignores)
    (h' : w'.MadeOf excludes' includes' priority links ignores) (hexcludes : ∀ g, g ∈ excludes' ↔ g ∈ excludes)
    (hincludes : ∀ g, g ∈ includes' ↔ g ∈ includes) : Alike w w' := by
  have hnone : includes' = [] ↔ includes = [] := by
    simp only [List.eq_nil_iff_forall_not_mem, hincludes]
  have hle := h.exceeds h' (fun g => (hexcludes g).2) (fun g => (hincludes g).1) hnone.1
  have hge := h'.exceeds h (fun g => (hexcludes g).1) (fun g => (hincludes g).2) hnone.2
  refine ⟨h.sameWays h', ?_, ?_⟩
  · funext rel
    exact Bool.eq_iff_iff.2 ⟨hge.prunes rel, hle.prunes rel⟩
  · funext rel
    exact Bool.eq_iff_iff.2 ⟨hle.keeps rel, hge.keeps rel⟩

end MadeOf

/-- A walk depends on the sets of its globs only: their order and repetitions change nothing, more exclude globs add
no file, and more include globs, where some are given, lose none. -/
theorem globs_are_sets {excludes includes : List String} {priority links ignores : Bool} {w : Walker}
    (h : ofGlobs excludes includes priority links ignores = .ok w) (fs : FileSystem) (home root : Path) :
    (∀ excludes' includes', (∀ g, g ∈ excludes' ↔ g ∈ excludes) → (∀ g, g ∈ includes' ↔ g ∈ includes) →
        ∃ w', ofGlobs excludes' includes' priority links ignores = .ok w' ∧
          w'.walk fs home root = w.walk fs home root) ∧
      (∀ excludes' w', excludes ⊆ excludes' → ofGlobs excludes' includes priority links ignores = .ok w' →
        w'.walkFiles fs home root ⊆ w.walkFiles fs home root) ∧
      ∀ includes' w', includes ≠ [] → includes ⊆ includes' →
        ofGlobs excludes includes' priority links ignores = .ok w' →
          w.walkFiles fs home root ⊆ w'.walkFiles fs home root := by
  have hmade := madeOf_of_ofGlobs h
  refine ⟨fun excludes' includes' hexcludes hincludes => ?_, fun excludes' w' hsubset h' => ?_,
    fun includes' w' hgiven hsubset h' => ?_⟩
  · obtain ⟨w', h'⟩ : ∃ w', ofGlobs excludes' includes' priority links ignores = .ok w' := by
      refine exists_ofGlobs (fun glob hglob => ?_) (fun glob hglob => ?_) (fun glob hglob => ?_) priority links ignores
      · refine exists_compileGlobs_iff.1 ⟨_, hmade.judges.exclude⟩ glob ?_
        rw [List.mem_append, ← hexcludes, ← List.mem_append]
        exact hglob
      · exact exists_compileGlobs_iff.1 ⟨_, hmade.dirs⟩ glob (directoryGlobs_subset (fun g => (hexcludes g).1) hglob)
      · rw [hincludes] at hglob
        rcases hmade.judges.only with ⟨rfl, -⟩ | ⟨patterns, -, hpatterns, -⟩
        · cases hglob
        · exact exists_compileGlobs_iff.1 ⟨_, hpatterns⟩ glob hglob
    exact ⟨w', h', (hmade.alike (madeOf_of_ofGlobs h') hexcludes hincludes).walk_eq fs home root⟩
  · exact (hmade.exceeds (madeOf_of_ofGlobs h') hsubset (List.Subset.refl _) id).walkFiles_subset
  · refine ((madeOf_of_ofGlobs h').exceeds hmade (List.Subset.refl _) hsubset ?_).walkFiles_subset
    intro hnone
    exact absurd hnone hgiven

/-- The files right in `a`, whatever excludes match them. -/
def aBeforeB : Walker := { withoutBOnlyA with includePriority := true, followLinks := true, ignoreFiles := false }

theorem ofGlobs_a_b : ofGlobs ["b/**"] ["a/*"] true true false = .ok aBeforeB := by cbv

/-- The same, with nothing left in `a` to go to. -/
def neither : Walker where
  exclude := [[.literal 'b', .trailing], [.literal 'a', .trailing],
    [.leading, .literal '.', .literal 'g', .literal 'i', .literal 't', .trailing]]
  excludeDirs := [[.literal 'b'], [.literal 'a'], [.leading, .literal '.', .literal 'g', .literal 'i', .literal 't']]
  only := aBeforeB.only
  includePriority := true
  followLinks := true
  ignoreFiles := false

theorem ofGlobs_neither : ofGlobs ["b/**", "a/**"] ["a/*"] true true false = .ok neither := by cbv

/-- The same, asked for everything named `y` as well. -/
def aOrY : Walker := { aBeforeB with only := some [[.literal 'a', .literal '/', .run], [.leading, .literal 'y']] }

theorem ofGlobs_a_or_y : ofGlobs ["b/**"] ["a/*", "**/y"] true true false = .ok aOrY := by cbv

theorem globs_are_sets_in_two_dirs :
    ofGlobs ["b/**"] ["a/*"] true true false = .ok aBeforeB ∧
      (∃ w', ofGlobs ["b/**", "b/**"] ["a/*", "a/*"] true true false = .ok w' ∧
        w'.walk twoDirs ⟨"/h"⟩ ⟨"."⟩ = aBeforeB.walk twoDirs ⟨"/h"⟩ ⟨"."⟩) ∧
      (ofGlobs ["b/**", "a/**"] ["a/*"] true true false = .ok neither ∧
        neither.walkFiles twoDirs ⟨"/h"⟩ ⟨"."⟩ ⊆ aBeforeB.walkFiles twoDirs ⟨"/h"⟩ ⟨"."⟩) ∧
      (["a/*"] ≠ [] ∧ ofGlobs ["b/**"] ["a/*", "**/y"] true true false = .ok aOrY ∧
        aBeforeB.walkFiles twoDirs ⟨"/h"⟩ ⟨"."⟩ ⊆ aOrY.walkFiles twoDirs ⟨"/h"⟩ ⟨"."⟩) := by
  obtain ⟨hset, hexcludes, hincludes⟩ := globs_are_sets ofGlobs_a_b twoDirs ⟨"/h"⟩ ⟨"."⟩
  exact ⟨ofGlobs_a_b, hset _ _ (by simp) (by simp), ⟨ofGlobs_neither, hexcludes _ _ (by simp) ofGlobs_neither⟩,
    by simp, ofGlobs_a_or_y, hincludes _ _ (by simp) (by simp) ofGlobs_a_or_y⟩

end Walker

end PromptPack
