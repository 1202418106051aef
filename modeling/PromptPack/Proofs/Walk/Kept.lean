import PromptPack.Proofs.Glob.Names
import PromptPack.Proofs.Walk.Priority
import PromptPack.Proofs.Walk.Pruned
/-!
# Includes with priority

Where both kinds of globs match a file, includes with priority win. They have no say in the directories above
it: a walk never gets to a file below a directory that an exclude glob matches. So a file that an include
matches is found exactly when none of those directories is pruned and the root is not a lone dash
(`included_file_kept_iff`).
-/

namespace PromptPack

/-- One of the globs matches the directory, as it stands or as a glob for the directory. -/
def AnyMatchesDir (globs : List String) (rel : Path) : Prop :=
  ∃ glob ∈ globs, GlobMatches glob rel ∨ GlobMatches (directoryGlob glob) rel

/-! ## What is always excluded -/

section

variable {names : List String}

theorem globMatches_alwaysExcluded_iff (hne : names ≠ []) (h : ∀ n ∈ names, Path.IsName n) :
    GlobMatches alwaysExcluded (.ofNames names) ↔ ".git" ∈ names.dropLast := by
  have hparse : Glob.parse alwaysExcluded = .ok (.leading :: (".git".toList.map .literal ++ [.trailing])) := by rfl
  rw [← Glob.runAll_leading_dir_iff (by decide) hne fun n hn => (h n hn).noSlash]
  simp [GlobMatches, hparse, Glob.Pattern.matches, Glob.needsBaseName]

theorem globMatches_directoryGlob_alwaysExcluded_iff (hne : names ≠ []) (h : ∀ n ∈ names, Path.IsName n) :
    GlobMatches (directoryGlob alwaysExcluded) (.ofNames names) ↔ names.getLast? = some ".git" := by
  have hparse : Glob.parse (directoryGlob alwaysExcluded) = .ok (.leading :: ".git".toList.map .literal) := by rfl
  rw [← Glob.runAll_leading_name_iff (by decide) hne fun n hn => (h n hn).noSlash]
  simp [GlobMatches, hparse, Glob.Pattern.matches, Glob.needsBaseName]

/-- Besides what the given globs prune, a directory named `.git` is pruned, and so is everything in it. -/
theorem prunes_ofNames_iff {excludes : List String} (hne : names ≠ []) (h : ∀ n ∈ names, Path.IsName n) :
    Prunes excludes (.ofNames names) ↔ AnyMatchesDir excludes (.ofNames names) ∨ ".git" ∈ names := by
  have hgit : ".git" ∈ names ↔ ".git" ∈ names.dropLast ∨ names.getLast? = some ".git" := by
    obtain ⟨front, last, rfl⟩ := (List.eq_nil_or_concat names).resolve_left hne
    simp [eq_comm]
  rw [hgit, ← globMatches_alwaysExcluded_iff hne h, ← globMatches_directoryGlob_alwaysExcluded_iff hne h]
  simp [Prunes, AnyMatchesDir, or_and_right, exists_or]

end

/-- No link stands at the location or below it. -/
def FileSystem.LinkFree (fs : FileSystem) (loc : Location) : Prop :=
  ∀ below target, fs.lookup (loc ++ below) ≠ some (.link target)

namespace Walker

variable {fs : FileSystem} {home root : Path} {loc : Location} {names : List String} {w : Walker}

/-! ## Where there are no links -/

/-- The same walker, but for following links. -/
def following (w : Walker) (links : Bool) : Walker := { w with followLinks := links }

theorem entriesBelow_following (tree : fs.IsTree) (links : Bool) (ambient : Ignore.Rules) (depth : Nat) {st : Stage}
    (hfree : fs.LinkFree st.loc) :
    (w.following links).entriesBelow fs ambient depth st = w.entriesBelow fs ambient depth st := by
  induction depth generalizing st with
  | zero => rfl
  | succ depth ih =>
    rw [entriesBelow, entriesBelow]
    refine List.flatMap_congr fun x hx => ?_
    obtain ⟨name, item⟩ := x
    have hlookup := tree.mem_children_iff.1 hx
    have hignore : (w.following links).ignoreFiles = w.ignoreFiles := rfl
    have hpruned : (w.following links).isPruned = w.isPruned := rfl
    have henter : st.enter (w.following links) = st.enter w := rfl
    cases item with
    | link target => exact absurd hlookup (hfree [name] target)
    | file bytes => rfl
    | dir =>
      dsimp only [find]
      rw [hignore, hpruned, henter, ih]
      intro below target
      change fs.lookup (st.loc ++ [name] ++ below) ≠ some (.link target)
      rw [List.append_assoc]
      exact hfree _ target

theorem walk_following (tree : fs.IsTree) (hroot : fs.place root = some ⟨loc, some .dir⟩) (hfree : fs.LinkFree loc)
    (links : Bool) : (w.following links).walk fs home root = w.walk fs home root := by
  simp only [walk, hroot]
  rw [entriesBelow_following tree]
  · rfl
  · exact hfree

/-! ## Kept files -/

theorem mem_walkFiles {p : Path} : p ∈ w.walkFiles fs home root ↔
    ∃ e ∈ w.walk fs home root, e.isDir = false ∧ e.excluded = false ∧ e.path = p := by
  simp [walkFiles, and_assoc]

theorem walkFiles_of_isStandardInput (w : Walker) (home : Path) (hroot : fs.place root = some ⟨loc, some .dir⟩)
    (hdash : root.isStandardInput = true) : w.walkFiles fs home root = [] := by
  rw [walkFiles, walk_of_isStandardInput w home hroot hdash]
  rfl

/-- A file is among the kept ones when the traversal gets to it and it is to be kept. -/
theorem PrunedTraversal.mem_walkFiles_iff {prunes : Path → Prop} {keeps : Path → Bool}
    (h : PrunedTraversal fs root loc prunes keeps (w.walk fs home root)) (tree : fs.IsTree) {bytes : ByteArray}
    (hne : names ≠ []) (hfile : fs.lookup (loc ++ names) = some (.file bytes)) :
    root.join (.ofNames names) ∈ w.walkFiles fs home root ↔
      Reached fs loc prunes names ∧ keeps (.ofNames names) = true := by
  rw [mem_walkFiles]
  constructor
  · rintro ⟨e, he, hisDir, hkept, hpath⟩
    cases (h.mem_iff e).1 he with
    | entered _ _ _ _ => cases hisDir
    | pruned _ _ _ _ => cases hisDir
    | file names' bytes' reached file =>
      obtain rfl := (Path.join_ofNames_inj root reached.nonempty (tree.isName_below file) hne
        (tree.isName_below hfile)).1 hpath
      exact ⟨reached, by simpa using hkept⟩
  · rintro ⟨reached, hkeeps⟩
    exact ⟨_, (h.mem_iff _).2 (.file names bytes reached hfile), rfl, by simp [hkeeps], rfl⟩

/-- The traversal gets to a file outside directories named `.git` unless a given glob prunes a directory on
the way. -/
theorem reached_prunes_iff (tree : fs.IsTree) {excludes : List String} {item : Item} (hne : names ≠ [])
    (hitem : fs.lookup (loc ++ names) = some item) (hgit : ".git" ∉ names.dropLast) :
    Reached fs loc (Prunes excludes) names ↔ Open (fun above => AnyMatchesDir excludes (.ofNames above)) names := by
  have hway (above rest : List String) (heq : names = above ++ rest) (habove : above ≠ []) (hrest : rest ≠ []) :
      fs.lookup (loc ++ above) = some .dir ∧
        (Prunes excludes (.ofNames above) ↔ AnyMatchesDir excludes (.ofNames above)) := by
    subst heq
    have hnames := (List.forall_mem_append.1 (tree.isName_below hitem)).1
    have hgit' : ".git" ∉ above := fun hmem => hgit (by
      rw [List.dropLast_append_of_ne_nil hrest]
      exact List.mem_append_left _ hmem)
    exact ⟨tree.lookup_prefix hrest (by rwa [List.append_assoc]),
      (prunes_ofNames_iff habove hnames).trans (or_iff_left hgit')⟩
  constructor
  · rintro ⟨-, hthrough⟩ above rest heq habove hrest
    exact (hway above rest heq habove hrest).2.not.1 (hthrough above rest heq habove hrest).2
  · refine fun hopen => ⟨hne, fun above rest heq habove hrest => ?_⟩
    obtain ⟨hdir, hprunes⟩ := hway above rest heq habove hrest
    exact ⟨hdir, hprunes.not.2 (hopen above rest heq habove hrest)⟩

/-- With priority given to includes, a file that an include matches is kept exactly when no exclude glob
matches a directory between the root and the file, and the root is not a lone dash. -/
theorem included_file_kept_iff {fs : FileSystem} (tree : fs.IsTree) {root : Path} {loc : Location}
    (hroot : fs.place root = some ⟨loc, some .dir⟩) (hfree : fs.LinkFree loc) {excludes includes : List String}
    {w w' : Walker} (hexcludes : ofExcludes excludes = .ok w) (hincludes : w.withIncludes includes = .ok w')
    (followLinks : Bool) (home : Path) {names : List String} {bytes : ByteArray}
    (hfile : fs.lookup (loc ++ names) = some (.file bytes)) (hgit : ".git" ∉ names.dropLast)
    (hmatch : AnyMatches includes (.ofNames names)) :
    let v : Walker := { w' with includePriority := true, followLinks := followLinks, ignoreFiles := false }
    root.join (.ofNames names) ∈ v.walkFiles fs home root ↔
      root.isStandardInput = false ∧ Open (fun above => AnyMatchesDir excludes (.ofNames above)) names := by
  intro v
  have hne : names ≠ [] := by
    rintro rfl
    have hdir := FileSystem.lookup_of_place hroot
    rw [List.append_nil] at hfile
    rw [hfile] at hdir
    cases hdir
  cases hdash : root.isStandardInput with
  | true =>
    rw [walkFiles_of_isStandardInput v home hroot hdash]
    simp
  | false =>
    let plain : Walker := { w' with includePriority := true, followLinks := false, ignoreFiles := false }
    have htraversal :=
      (prunesLike_of_ofExcludes hexcludes hincludes true).prunedTraversal tree ⟨rfl, rfl⟩ home hroot hdash
    have hkeeps : plain.shouldInclude (.ofNames names) = true :=
      (judges_of_withIncludes hexcludes hincludes true false false).shouldInclude_iff.2 ⟨.inr hmatch, fun _ => rfl⟩
    have hwalk : v.walk fs home root = plain.walk fs home root :=
      walk_following (w := plain) tree hroot hfree followLinks
    rw [walkFiles, hwalk, ← walkFiles, htraversal.mem_walkFiles_iff tree hne hfile,
      reached_prunes_iff tree hne hfile hgit, and_iff_left hkeeps, and_iff_right rfl]

/-- A generated file in a directory of its own. -/
def generated : FileSystem where
  items := [(["gen"], .dir), (["gen", "api.rs"], .file .empty)]
  cwd := []

theorem generated_isTree : generated.IsTree := by decide

theorem place_generated : generated.place ⟨"."⟩ = some ⟨[], some .dir⟩ := by cbv

theorem generated_linkFree : generated.LinkFree [] := by
  intro below target h
  cases below with
  | nil => cases h
  | cons name below =>
    have := FileSystem.mem_items_of_lookup (by simp) h
    simp [generated] at this

theorem lookup_generated : generated.lookup ([] ++ ["gen", "api.rs"]) = some (.file .empty) := rfl

/-- The walker that leaves out the contents of `gen`. -/
def withoutGenerated : Walker where
  exclude := [[.literal 'g', .literal 'e', .literal 'n', .trailing],
    [.leading, .literal '.', .literal 'g', .literal 'i', .literal 't', .trailing]]
  excludeDirs := [[.literal 'g', .literal 'e', .literal 'n'],
    [.leading, .literal '.', .literal 'g', .literal 'i', .literal 't']]
  only := none
  includePriority := false
  followLinks := false
  ignoreFiles := true

theorem ofExcludes_gen : ofExcludes ["gen/**"] = .ok withoutGenerated := by cbv

/-- The same walker, asked for the file in `gen`. -/
def onlyApi : Walker := { withoutGenerated with only := some [("gen/api.rs".toList.map .literal)] }

theorem withIncludes_api : withoutGenerated.withIncludes ["gen/api.rs"] = .ok onlyApi := by cbv

theorem anyMatches_api : AnyMatches ["gen/api.rs"] (.ofNames ["gen", "api.rs"]) :=
  ⟨"gen/api.rs", by simp, "gen/api.rs".toList.map .literal, by rfl, by decide +kernel⟩

theorem included_file_kept_iff_at_api :
    let v : Walker := { onlyApi with includePriority := true, followLinks := true, ignoreFiles := false }
    generated.IsTree ∧ generated.place ⟨"."⟩ = some ⟨[], some .dir⟩ ∧ generated.LinkFree [] ∧
      ofExcludes ["gen/**"] = .ok withoutGenerated ∧ withoutGenerated.withIncludes ["gen/api.rs"] = .ok onlyApi ∧
      generated.lookup ([] ++ ["gen", "api.rs"]) = some (.file .empty) ∧ ".git" ∉ ["gen", "api.rs"].dropLast ∧
      AnyMatches ["gen/api.rs"] (.ofNames ["gen", "api.rs"]) ∧
      (Path.join ⟨"."⟩ (.ofNames ["gen", "api.rs"]) ∈ v.walkFiles generated ⟨"/h"⟩ ⟨"."⟩ ↔
        Path.isStandardInput ⟨"."⟩ = false ∧ Open (fun above => AnyMatchesDir ["gen/**"] (.ofNames above)) ["gen", "api.rs"]) :=
  ⟨generated_isTree, place_generated, generated_linkFree, ofExcludes_gen, withIncludes_api, lookup_generated,
    by decide, anyMatches_api,
    included_file_kept_iff generated_isTree place_generated generated_linkFree ofExcludes_gen withIncludes_api true
      ⟨"/h"⟩ lookup_generated (by decide) anyMatches_api⟩

/-- The file matches an include, and includes have priority, but the walk does not go into `gen`. -/
theorem included_file_below_excluded_dir_is_lost :
    let v : Walker := { onlyApi with includePriority := true, followLinks := false, ignoreFiles := false }
    generated.IsTree ∧ generated.place ⟨"."⟩ = some ⟨[], some .dir⟩ ∧ generated.LinkFree [] ∧
      ofExcludes ["gen/**"] = .ok withoutGenerated ∧ withoutGenerated.withIncludes ["gen/api.rs"] = .ok onlyApi ∧
      generated.lookup ([] ++ ["gen", "api.rs"]) = some (.file .empty) ∧ ".git" ∉ ["gen", "api.rs"].dropLast ∧
      AnyMatches ["gen/api.rs"] (.ofNames ["gen", "api.rs"]) ∧ v.walkFiles generated ⟨"/h"⟩ ⟨"."⟩ = [] :=
  ⟨generated_isTree, place_generated, generated_linkFree, ofExcludes_gen, withIncludes_api, lookup_generated,
    by decide, anyMatches_api, by cbv⟩

end Walker

end PromptPack
