import Mathlib
import PromptPack.Proofs.Glob.Contents
import PromptPack.Proofs.Walk.Kept
/-!
# Pruning by globs for contents

A walk does not enter a directory that a glob for its contents names: all files in it match the glob anyway. One kind of
glob breaks this. Cut down to a glob for directories it is a double star alone, which matches every directory, while as it
stands it is not and matches next to nothing (`Overreaches`). With such a glob the walk stays in the root. Without one it
finds exactly the files that are to be kept, unless the root is a lone dash (`files_of_globs_for_contents`).
-/

namespace PromptPack

/-- The glob asks for the contents of directories. -/
def ForContents (glob : String) : Prop := ∃ dir, glob = dir ++ "/**"

/-- Cut down to one for directories, the glob is a double star alone, and as it stands it is not. -/
def Overreaches (glob : String) : Prop :=
  Glob.parse (directoryGlob glob) = .ok [.leading] ∧ Glob.parse glob ≠ .ok [.leading]

variable {glob : String} {above rest : List String}

theorem bytes_ofNames_append (habove : above ≠ []) (hrest : rest ≠ []) :
    (Path.ofNames (above ++ rest)).text.toUTF8.toList =
      (Path.ofNames above).text.toUTF8.toList ++ Glob.slash :: (Path.ofNames rest).text.toUTF8.toList := by
  have htext : (Path.ofNames (above ++ rest)).text = (Path.ofNames above).text ++ "/" ++ (Path.ofNames rest).text :=
    String.intercalate_append_of_ne_nil habove hrest
  rw [htext]
  simp only [Text.toUTF8_toList, String.toList_append, List.flatMap_append, List.append_assoc]
  rfl

/-- Where a glob for contents prunes a directory, it matches all that is below, unless it overreaches. -/
theorem ForContents.globMatches_below (h : ForContents glob) (hreach : ¬ Overreaches glob)
    (hparse : ∃ p, Glob.parse (directoryGlob glob) = .ok p) (habove : above ≠ []) (hrest : rest ≠ [])
    (hprunes : GlobMatches glob (.ofNames above) ∨ GlobMatches (directoryGlob glob) (.ofNames above)) :
    GlobMatches glob (.ofNames (above ++ rest)) := by
  obtain ⟨dir, rfl⟩ := h
  rw [Overreaches, directoryGlob_append] at hreach
  rw [directoryGlob_append] at hparse hprunes
  obtain ⟨p, hp⟩ := hparse
  obtain ⟨q, hq, hof⟩ := Glob.exists_parse_contents hp
  have hbytes := bytes_ofNames_append habove hrest
  refine ⟨q, hq, ?_⟩
  rcases hprunes with ⟨q', hq', hmatches⟩ | ⟨p', hp', hmatches⟩
  · obtain rfl : q = q' := Except.ok.inj (hq.symm.trans hq')
    exact hof.matches_on hbytes hmatches
  · obtain rfl : p = p' := Except.ok.inj (hp.symm.trans hp')
    refine hof.matches_below (fun hall => ?_) hbytes hmatches
    by_contra hne
    refine hreach ⟨hall ▸ hp, fun hleading => hne ?_⟩
    exact Except.ok.inj (hq.symm.trans hleading)

/-- A glob that overreaches prunes every directory. -/
theorem Overreaches.globMatches (h : Overreaches glob) (rel : Path) : GlobMatches (directoryGlob glob) rel :=
  ⟨[.leading], h.1, rfl⟩

theorem forContents_alwaysExcluded : ForContents alwaysExcluded := ⟨"**/.git", rfl⟩

theorem not_overreaches_alwaysExcluded : ¬ Overreaches alwaysExcluded := by
  rintro ⟨hall, -⟩
  have hparse : Glob.parse (directoryGlob alwaysExcluded) = .ok (.leading :: ".git".toList.map .literal) := by rfl
  rw [hparse] at hall
  cases hall

namespace Walker

variable {fs : FileSystem} {home root : Path} {loc : Location} {names : List String} {excludes includes : List String}
  {w w' : Walker}

/-- Nothing that is below a pruned directory would be kept. -/
theorem anyMatches_of_prunes (h : ofExcludes excludes = .ok w) (hfor : ∀ glob ∈ excludes, ForContents glob)
    (hreach : ∀ glob ∈ excludes, ¬ Overreaches glob) (habove : above ≠ []) (hrest : rest ≠ [])
    (hprunes : Prunes excludes (.ofNames above)) :
    AnyMatches (excludes ++ [alwaysExcluded]) (.ofNames (above ++ rest)) := by
  obtain ⟨glob, hglob, hmatches⟩ := hprunes
  have hparse := exists_parse_directoryGlob h hglob
  refine ⟨glob, hglob, ?_⟩
  rcases List.mem_append.1 hglob with hgiven | halways
  · exact (hfor glob hgiven).globMatches_below (hreach glob hgiven) hparse habove hrest hmatches
  · obtain rfl := List.mem_singleton.1 halways
    exact forContents_alwaysExcluded.globMatches_below not_overreaches_alwaysExcluded hparse habove hrest hmatches

/-- The names lead to a file that the globs keep. -/
def KeptFile (w : Walker) (fs : FileSystem) (loc : Location) (names : List String) : Prop :=
  (∃ bytes, fs.lookup (loc ++ names) = some (.file bytes)) ∧ w.shouldInclude (.ofNames names) = true

theorem PrunedTraversal.mem_walkFiles_iff_reached {prunes : Path → Prop} {p : Path}
    (h : PrunedTraversal fs root loc prunes w.shouldInclude (w.walk fs home root)) :
    p ∈ w.walkFiles fs home root ↔
      ∃ names, w.KeptFile fs loc names ∧ Reached fs loc prunes names ∧ p = root.join (.ofNames names) := by
  rw [mem_walkFiles]
  constructor
  · rintro ⟨e, he, hisDir, hkept, rfl⟩
    cases (h.mem_iff e).1 he with
    | entered _ _ _ _ => cases hisDir
    | pruned _ _ _ _ => cases hisDir
    | file names bytes reached file => exact ⟨names, ⟨⟨bytes, file⟩, by simpa using hkept⟩, reached, rfl⟩
  · rintro ⟨names, ⟨⟨bytes, hfile⟩, hkeeps⟩, hreached, rfl⟩
    exact ⟨_, (h.mem_iff _).2 (.file names bytes hreached hfile), rfl, by simp [hkeeps], rfl⟩

/-- Globs for contents prune nothing on the way to a file that they do not match, unless one overreaches. -/
theorem reached_of_kept (tree : fs.IsTree) (h : ofExcludes excludes = .ok w)
    (hfor : ∀ glob ∈ excludes, ForContents glob) (hreach : ∀ glob ∈ excludes, ¬ Overreaches glob) {item : Item}
    (hne : names ≠ []) (hitem : fs.lookup (loc ++ names) = some item)
    (hfree : ¬ AnyMatches (excludes ++ [alwaysExcluded]) (.ofNames names)) :
    Reached fs loc (Prunes excludes) names := by
  refine ⟨hne, fun above rest heq habove hrest => ?_⟩
  subst heq
  refine ⟨tree.lookup_prefix hrest (by rwa [List.append_assoc]), fun hprunes => hfree ?_⟩
  exact anyMatches_of_prunes h hfor hreach habove hrest hprunes

/-- Where a glob overreaches, the walk gets to what stands right in the root and no further. -/
theorem reached_iff_of_overreaches (hreach : ∃ glob ∈ excludes, Overreaches glob) :
    Reached fs loc (Prunes excludes) names ↔ ∃ name, names = [name] := by
  constructor
  · rintro ⟨hne, hthrough⟩
    obtain ⟨name, rest, rfl⟩ := List.exists_cons_of_ne_nil hne
    by_cases hrest : rest = []
    · exact ⟨name, by rw [hrest]⟩
    · obtain ⟨glob, hglob, hover⟩ := hreach
      refine absurd ?_ (hthrough [name] rest rfl (List.cons_ne_nil _ _) hrest).2
      exact ⟨glob, List.mem_append_left _ hglob, .inr (hover.globMatches _)⟩
  · rintro ⟨name, rfl⟩
    exact reached_singleton fs loc _ name

/-- With excludes that all ask for contents, a walk finds the files that are to be kept, all of them if no exclude glob
overreaches, and otherwise those that stand right in the root. Below a lone dash it finds none. -/
theorem files_of_globs_for_contents {fs : FileSystem} (tree : fs.IsTree) {root : Path} {loc : Location}
    (hroot : fs.place root = some ⟨loc, some .dir⟩) (hfree : fs.LinkFree loc) {excludes includes : List String}
    {w w' : Walker} (hexcludes : ofExcludes excludes = .ok w) (hincludes : w.withIncludes includes = .ok w')
    (hfor : ∀ glob ∈ excludes, ForContents glob) (followLinks : Bool) (home p : Path) :
    let v : Walker := { w' with includePriority := false, followLinks := followLinks, ignoreFiles := false }
    ((∀ glob ∈ excludes, ¬ Overreaches glob) → (p ∈ v.walkFiles fs home root ↔
        root.isStandardInput = false ∧ ∃ names, v.KeptFile fs loc names ∧ p = root.join (.ofNames names))) ∧
      ((∃ glob ∈ excludes, Overreaches glob) → (p ∈ v.walkFiles fs home root ↔
        root.isStandardInput = false ∧ ∃ name, v.KeptFile fs loc [name] ∧ p = root.join (.ofNames [name]))) := by
  intro v
  cases hdash : root.isStandardInput with
  | true =>
    rw [walkFiles_of_isStandardInput v home hroot hdash]
    simp
  | false =>
    let plain : Walker := { w' with includePriority := false, followLinks := false, ignoreFiles := false }
    have htraversal :=
      (prunesLike_of_ofExcludes hexcludes hincludes false).prunedTraversal tree ⟨rfl, rfl⟩ home hroot hdash
    have hwalk : v.walk fs home root = plain.walk fs home root :=
      walk_following (w := plain) tree hroot hfree followLinks
    have hfiles : p ∈ v.walkFiles fs home root ↔ ∃ names, v.KeptFile fs loc names ∧
        Reached fs loc (Prunes excludes) names ∧ p = root.join (.ofNames names) := by
      rw [walkFiles, hwalk]
      exact htraversal.mem_walkFiles_iff_reached
    rw [hfiles]
    constructor
    · intro hreach
      rw [and_iff_right rfl]
      refine exists_congr fun names => and_congr_right fun hkept => and_iff_right ?_
      obtain ⟨⟨bytes, hfile⟩, hkeeps⟩ := hkept
      have hne : names ≠ [] := by
        rintro rfl
        have hdir := FileSystem.lookup_of_place hroot
        rw [List.append_nil, hdir] at hfile
        cases hfile
      have hjudges := judges_of_withIncludes hexcludes hincludes false followLinks false
      refine reached_of_kept tree hexcludes hfor hreach hne hfile fun hmatches => ?_
      cases (hjudges.shouldInclude_iff.1 hkeeps).2 hmatches
    · intro hreach
      rw [and_iff_right rfl]
      simp only [reached_iff_of_overreaches hreach]
      constructor
      · rintro ⟨names, hkept, ⟨name, rfl⟩, rfl⟩
        exact ⟨name, hkept, rfl⟩
      · rintro ⟨name, hkept, rfl⟩
        exact ⟨[name], hkept, ⟨name, rfl⟩, rfl⟩

/-- The walker for a glob that overreaches. -/
def overreaching : Walker where
  exclude := [[.leading, .trailing], [.leading, .literal '.', .literal 'g', .literal 'i', .literal 't', .trailing]]
  excludeDirs := [[.leading], [.leading, .literal '.', .literal 'g', .literal 'i', .literal 't']]
  only := none
  includePriority := false
  followLinks := false
  ignoreFiles := true

theorem ofExcludes_overreaching : ofExcludes ["**//**"] = .ok overreaching := by cbv

theorem withIncludes_of_overreaching : overreaching.withIncludes [] = .ok overreaching := rfl

theorem withIncludes_of_withoutGenerated : withoutGenerated.withIncludes [] = .ok withoutGenerated := rfl

theorem overreaches_double_slash : Overreaches "**//**" := by
  have hparse : Glob.parse "**//**" = .ok [.leading, .trailing] := by rfl
  refine ⟨by rfl, fun h => ?_⟩
  rw [hparse] at h
  cases h

theorem not_overreaches_gen : ¬ Overreaches "gen/**" := by
  rintro ⟨hall, -⟩
  have hparse : Glob.parse (directoryGlob "gen/**") = .ok ("gen".toList.map .literal) := by rfl
  rw [hparse] at hall
  cases hall

theorem files_of_globs_for_contents_in_gen :
    let v : Walker := { withoutGenerated with includePriority := false, followLinks := true, ignoreFiles := false }
    let u : Walker := { overreaching with includePriority := false, followLinks := true, ignoreFiles := false }
    generated.IsTree ∧ generated.place ⟨"."⟩ = some ⟨[], some .dir⟩ ∧ generated.LinkFree [] ∧
      (ofExcludes ["gen/**"] = .ok withoutGenerated ∧ withoutGenerated.withIncludes [] = .ok withoutGenerated ∧
        (∀ glob ∈ ["gen/**"], ForContents glob) ∧ (∀ glob ∈ ["gen/**"], ¬ Overreaches glob) ∧
          (⟨"./gen/api.rs"⟩ ∈ v.walkFiles generated ⟨"/h"⟩ ⟨"."⟩ ↔ Path.isStandardInput ⟨"."⟩ = false ∧
            ∃ names, v.KeptFile generated [] names ∧ ⟨"./gen/api.rs"⟩ = Path.join ⟨"."⟩ (.ofNames names))) ∧
      (ofExcludes ["**//**"] = .ok overreaching ∧ overreaching.withIncludes [] = .ok overreaching ∧
        (∀ glob ∈ ["**//**"], ForContents glob) ∧ (∃ glob ∈ ["**//**"], Overreaches glob) ∧
          (⟨"./gen/api.rs"⟩ ∈ u.walkFiles generated ⟨"/h"⟩ ⟨"."⟩ ↔ Path.isStandardInput ⟨"."⟩ = false ∧
            ∃ name, u.KeptFile generated [] [name] ∧ ⟨"./gen/api.rs"⟩ = Path.join ⟨"."⟩ (.ofNames [name]))) := by
  intro v u
  have hgen : ∀ glob ∈ ["gen/**"], ForContents glob := List.forall_mem_singleton.2 ⟨"gen", rfl⟩
  have hnone : ∀ glob ∈ ["gen/**"], ¬ Overreaches glob := List.forall_mem_singleton.2 not_overreaches_gen
  have hall : ∀ glob ∈ ["**//**"], ForContents glob := List.forall_mem_singleton.2 ⟨"**/", rfl⟩
  have hsome : ∃ glob ∈ ["**//**"], Overreaches glob := ⟨_, List.mem_singleton_self _, overreaches_double_slash⟩
  exact ⟨generated_isTree, place_generated, generated_linkFree,
    ⟨ofExcludes_gen, withIncludes_of_withoutGenerated, hgen, hnone,
      (files_of_globs_for_contents generated_isTree place_generated generated_linkFree ofExcludes_gen
        withIncludes_of_withoutGenerated hgen true ⟨"/h"⟩ ⟨"./gen/api.rs"⟩).1 hnone⟩,
    ofExcludes_overreaching, withIncludes_of_overreaching, hall, hsome,
    (files_of_globs_for_contents generated_isTree place_generated generated_linkFree ofExcludes_overreaching
      withIncludes_of_overreaching hall true ⟨"/h"⟩ ⟨"./gen/api.rs"⟩).2 hsome⟩

/-- The glob does not match the file, and yet the walk does not get to it. -/
theorem overreaching_glob_loses_file :
    let v : Walker := { overreaching with includePriority := false, followLinks := false, ignoreFiles := false }
    generated.IsTree ∧ generated.place ⟨"."⟩ = some ⟨[], some .dir⟩ ∧ generated.LinkFree [] ∧
      ofExcludes ["**//**"] = .ok overreaching ∧ overreaching.withIncludes [] = .ok overreaching ∧
      (∀ glob ∈ ["**//**"], ForContents glob) ∧ v.KeptFile generated [] ["gen", "api.rs"] ∧
      v.walkFiles generated ⟨"/h"⟩ ⟨"."⟩ = [] :=
  ⟨generated_isTree, place_generated, generated_linkFree, ofExcludes_overreaching, withIncludes_of_overreaching,
    List.forall_mem_singleton.2 ⟨"**/", rfl⟩, ⟨⟨_, lookup_generated⟩, by cbv⟩, by cbv⟩

end Walker

end PromptPack
