import Mathlib
import PromptPack.Proofs.Walk.Coherent
import PromptPack.Proofs.Walk.Globs
import PromptPack.Proofs.Walk.Traversal
/-!
# A walk is the pruned traversal

Without ignore files and links, a walk reports each directory and file that is reached from the root
through directories that no exclude glob matches, once, and in the order of paths: first a directory,
then everything below it. Below a lone dash it reports nothing, whatever stands there
(`walk_is_pruned_traversal_iff`).
-/

namespace PromptPack.Walker

section

variable (fs : FileSystem) (root : Path) (loc : Location) (prunes : Path → Prop) (keeps : Path → Bool)

/-- The names lead from a directory through directories that are not pruned. -/
structure Reached (names : List String) : Prop where
  nonempty : names ≠ []
  through : ∀ above rest, names = above ++ rest → above ≠ [] → rest ≠ [] →
    fs.lookup (loc ++ above) = some .dir ∧ ¬ prunes (.ofNames above)

/-- The entries that a walk of a directory owes. -/
inductive Owes : WalkEntry → Prop
  | entered (names : List String) (reached : Reached fs loc prunes names)
      (dir : fs.lookup (loc ++ names) = some .dir) (kept : ¬ prunes (.ofNames names)) :
      Owes ⟨root.join (.ofNames names), .ofNames names, true, false⟩
  | pruned (names : List String) (reached : Reached fs loc prunes names)
      (dir : fs.lookup (loc ++ names) = some .dir) (pruned : prunes (.ofNames names)) :
      Owes ⟨root.join (.ofNames names), .ofNames names, true, true⟩
  | file (names : List String) (bytes : ByteArray) (reached : Reached fs loc prunes names)
      (file : fs.lookup (loc ++ names) = some (.file bytes)) :
      Owes ⟨root.join (.ofNames names), .ofNames names, false, !keeps (.ofNames names)⟩

/-- The entries are those of the pruned traversal, each once, in the order of paths. -/
structure PrunedTraversal (entries : List WalkEntry) : Prop where
  mem_iff : ∀ e, e ∈ entries ↔ Owes fs root loc prunes keeps e
  increasing : entries.Pairwise fun a b => Path.compareComponents a.rel.components b.rel.components = .lt
  /-- All that lies below an entry directly follows it. -/
  follows : ∀ d ∈ entries, ∃ before below after, entries = before ++ d :: (below ++ after) ∧
    (∀ e ∈ below, d.rel.components <+: e.rel.components) ∧
    ∀ e ∈ before ++ after, ¬ d.rel.components <+: e.rel.components

end

variable {w : Walker} {fs : FileSystem} {root : Path} {loc : Location} {prunes : Path → Prop} {e : WalkEntry}

/-- The walker prunes what is to be pruned, wherever a chain of names can lead. -/
def PrunesLike (w : Walker) (prunes : Path → Prop) : Prop :=
  ∀ names, names ≠ [] → (∀ n ∈ names, Path.IsName n) → (w.isPruned (.ofNames names) = true ↔ prunes (.ofNames names))

theorem PrunesLike.at_lookup (h : w.PrunesLike prunes) (tree : fs.IsTree) {above rest : List String} {item : Item}
    (hlookup : fs.lookup (loc ++ (above ++ rest)) = some item) (hne : above ≠ []) :
    w.isPruned (.ofNames above) = true ↔ prunes (.ofNames above) := by
  refine h above hne fun n hn => tree.isName_of_lookup hlookup n ?_
  exact List.mem_append_right _ (List.mem_append_left _ hn)

theorem PrunesLike.reached_iff (h : w.PrunesLike prunes) (tree : fs.IsTree) {names : List String} {item : Item}
    (hlookup : fs.lookup (loc ++ names) = some item) : Reached fs loc prunes names ↔
      names ≠ [] ∧ Open (fun above => w.isPruned (.ofNames above) = true) names := by
  constructor
  · rintro ⟨hne, hthrough⟩
    refine ⟨hne, fun above rest heq habove hrest hpruned => ?_⟩
    subst heq
    exact (hthrough above rest rfl habove hrest).2 ((h.at_lookup tree hlookup habove).1 hpruned)
  · rintro ⟨hne, hopen⟩
    refine ⟨hne, fun above rest heq habove hrest => ?_⟩
    subst heq
    refine ⟨tree.lookup_prefix hrest (by rwa [List.append_assoc]), fun hprunes => ?_⟩
    exact hopen above rest rfl habove hrest ((h.at_lookup tree hlookup habove).2 hprunes)

theorem PrunesLike.reports_iff_owes (h : w.PrunesLike prunes) (tree : fs.IsTree) :
    w.Reports fs root loc [] e ↔ Owes fs root loc prunes w.shouldInclude e := by
  have hends {names : List String} {item : Item} (hlookup : fs.lookup (loc ++ names) = some item) (hne : names ≠ []) :
      w.isPruned (.ofNames names) = true ↔ prunes (.ofNames names) := by
    rw [← List.append_nil names] at hlookup
    exact h.at_lookup tree hlookup hne
  constructor
  · rintro ⟨names, item, hne, hopen, hlookup, hreport⟩
    simp only [List.nil_append] at hopen hlookup hreport
    have hreached := (h.reached_iff tree hlookup).2 ⟨hne, hopen⟩
    cases item with
    | file bytes =>
      cases hreport
      exact .file names bytes hreached hlookup
    | dir =>
      cases hreport
      by_cases hprunes : prunes (.ofNames names)
      · rw [(hends hlookup hne).2 hprunes]
        exact .pruned names hreached hlookup hprunes
      · rw [Bool.eq_false_iff.2 fun hpruned => hprunes ((hends hlookup hne).1 hpruned)]
        exact .entered names hreached hlookup hprunes
    | link target => cases hreport
  · intro howes
    cases howes with
    | entered names reached dir kept =>
      refine ⟨names, .dir, reached.nonempty, ((h.reached_iff tree dir).1 reached).2, dir, ?_⟩
      rw [List.nil_append, report?, Bool.eq_false_iff.2 fun hpruned => kept ((hends dir reached.nonempty).1 hpruned)]
    | pruned names reached dir pruned =>
      refine ⟨names, .dir, reached.nonempty, ((h.reached_iff tree dir).1 reached).2, dir, ?_⟩
      rw [List.nil_append, report?, (hends dir reached.nonempty).2 pruned]
    | file names bytes reached file =>
      exact ⟨names, .file bytes, reached.nonempty, ((h.reached_iff tree file).1 reached).2, file, rfl⟩

/-- Nothing has to be passed on the way to what stands right in the root. -/
theorem reached_singleton (fs : FileSystem) (loc : Location) (prunes : Path → Prop) (name : String) :
    Reached fs loc prunes [name] := by
  refine ⟨List.cons_ne_nil _ _, fun above rest heq habove hrest => ?_⟩
  rcases List.append_eq_singleton_iff.1 heq.symm with ⟨rfl, -⟩ | ⟨-, rfl⟩
  · exact absurd rfl habove
  · exact absurd rfl hrest

/-- What a chain of names leads to stands in the root itself, or a directory of the root is passed on the way. -/
theorem Reached.exists_child (h : Reached fs loc prunes names) (tree : fs.IsTree) {item : Item}
    (hlookup : fs.lookup (loc ++ names) = some item) :
    ∃ x ∈ fs.children loc, x.2 = item ∨ x.2 = .dir := by
  obtain ⟨name, rest, rfl⟩ := List.exists_cons_of_ne_nil h.nonempty
  by_cases hrest : rest = []
  · subst hrest
    exact ⟨(name, item), tree.mem_children_iff.2 hlookup, .inl rfl⟩
  · have hdir := (h.through [name] rest rfl (List.cons_ne_nil _ _) hrest).1
    exact ⟨(name, .dir), tree.mem_children_iff.2 hdir, .inr rfl⟩

/-- No entry is owed exactly where nothing but links stands in the root. -/
theorem owes_nothing_iff {keeps : Path → Bool} (tree : fs.IsTree) :
    (∀ e, ¬ Owes fs root loc prunes keeps e) ↔ ∀ x ∈ fs.children loc, ∃ target, x.2 = .link target := by
  constructor
  · rintro hnone ⟨name, item⟩ hx
    have hlookup := tree.mem_children_iff.1 hx
    have hreached : Reached fs loc prunes [name] := reached_singleton fs loc prunes name
    cases item with
    | link target => exact ⟨target, rfl⟩
    | file bytes => exact absurd (.file [name] bytes hreached hlookup) (hnone _)
    | dir =>
      by_cases hprunes : prunes (.ofNames [name])
      · exact absurd (.pruned [name] hreached hlookup hprunes) (hnone _)
      · exact absurd (.entered [name] hreached hlookup hprunes) (hnone _)
  · intro hlinks e howes
    obtain ⟨names, item, hreached, hlookup, hlink⟩ : ∃ names item, Reached fs loc prunes names ∧
        fs.lookup (loc ++ names) = some item ∧ ∀ target, item ≠ .link target := by
      cases howes with
      | entered names reached dir kept => exact ⟨names, .dir, reached, dir, nofun⟩
      | pruned names reached dir pruned => exact ⟨names, .dir, reached, dir, nofun⟩
      | file names bytes reached file => exact ⟨names, .file bytes, reached, file, nofun⟩
    obtain ⟨x, hx, hitem⟩ := hreached.exists_child tree hlookup
    obtain ⟨target, htarget⟩ := hlinks x hx
    rcases hitem with rfl | hdir
    · exact hlink target htarget
    · rw [hdir] at htarget
      cases htarget

/-! ## The walk of a directory -/

theorem walk_eq (plain : w.Plain) {home : Path} (hroot : fs.place root = some ⟨loc, some .dir⟩)
    (hdash : root.isStandardInput = false) : w.walk fs home root =
      (w.entriesBelow fs [] (deepest fs) (w.rootStage fs root loc)).mergeSort fun a b => a.rel.le b.rel := by
  simp only [walk, hroot, hdash, plain.ignoreFiles, Bool.false_eq_true, if_false]

/-- Below a lone dash nothing is walked. -/
theorem walk_of_isStandardInput (w : Walker) (home : Path) (hroot : fs.place root = some ⟨loc, some .dir⟩)
    (hdash : root.isStandardInput = true) : w.walk fs home root = [] := by
  simp only [walk, hroot, hdash, if_true]

theorem PrunesLike.prunedTraversal (h : w.PrunesLike prunes) (tree : fs.IsTree) (plain : w.Plain) (home : Path)
    (hroot : fs.place root = some ⟨loc, some .dir⟩) (hdash : root.isStandardInput = false) :
    PrunedTraversal fs root loc prunes w.shouldInclude (w.walk fs home root) := by
  have hdepth : fs.items.length < deepest fs + (loc ++ []).length := by
    unfold deepest
    omega
  have hdistinct : (w.entriesBelow fs [] (deepest fs) (w.rootStage fs root loc)).Pairwise
      fun a b => a.rel.components ≠ b.rel.components :=
    entriesBelow_distinct tree (w.rootStage fs root loc) (by simp [rootStage])
  have hincreasing := Path.mergeSort_increasing WalkEntry.rel hdistinct
  rw [walk_eq plain hroot hdash]
  refine ⟨fun e => ?_, hincreasing, fun d hd => Path.below_follows hincreasing hd⟩
  rw [List.mem_mergeSort, mem_entriesBelow_iff tree plain (.ofRoot w fs root loc) hdepth, h.reports_iff_owes tree]

theorem prunesLike_of_ofExcludes {excludes includes : List String} {w w' : Walker}
    (hexcludes : ofExcludes excludes = .ok w) (hincludes : w.withIncludes includes = .ok w') (priority : Bool) :
    PrunesLike { w' with includePriority := priority, followLinks := false, ignoreFiles := false }
      (Prunes excludes) := by
  intro names hne hnames
  have htext : (Path.ofNames names).text ≠ "" := by
    obtain ⟨c, hc, -⟩ := Path.exists_last_char hne hnames
    intro heq
    rw [heq] at hc
    cases hc
  rw [← isPruned_iff hexcludes htext, ← isPruned_withIncludes hincludes]
  rfl

/-- A walker without ignore files and links walks a directory tree by the pruned traversal, unless the tree is below
a lone dash: there it finds nothing, and that is all there is only among links. The files it finds are those
that are kept. -/
theorem walk_is_pruned_traversal_iff {fs : FileSystem} (tree : fs.IsTree) {root : Path} {loc : Location}
    (hroot : fs.place root = some ⟨loc, some .dir⟩) {excludes includes : List String} {w w' : Walker}
    (hexcludes : ofExcludes excludes = .ok w) (hincludes : w.withIncludes includes = .ok w') (priority : Bool)
    (home : Path) :
    let v : Walker := { w' with includePriority := priority, followLinks := false, ignoreFiles := false }
    (PrunedTraversal fs root loc (Prunes excludes) v.shouldInclude (v.walk fs home root) ↔
        (root.isStandardInput = true → ∀ x ∈ fs.children loc, ∃ target, x.2 = .link target)) ∧
      v.walkFiles fs home root = ((v.walk fs home root).filter fun e => !e.isDir && !e.excluded).map (·.path) := by
  intro v
  refine ⟨?_, rfl⟩
  cases hdash : root.isStandardInput with
  | false =>
    have hprunes := prunesLike_of_ofExcludes hexcludes hincludes priority
    exact iff_of_true (hprunes.prunedTraversal tree ⟨rfl, rfl⟩ home hroot hdash) nofun
  | true =>
    rw [walk_of_isStandardInput v home hroot hdash, ← owes_nothing_iff tree, imp_iff_right rfl]
    constructor
    · intro h e howes
      exact absurd ((h.mem_iff e).2 howes) List.not_mem_nil
    · exact fun hnone => ⟨fun e => iff_of_false List.not_mem_nil (hnone e), .nil, nofun⟩

/-- Two directories with a file in each, and a link to the first. -/
def twoDirs : FileSystem where
  items := [(["a"], .dir), (["a", "x"], .file .empty), (["b"], .dir), (["b", "y"], .file .empty), (["l"], .link "a")]
  cwd := []

theorem twoDirs_isTree : twoDirs.IsTree := by decide

theorem place_twoDirs : twoDirs.place ⟨"."⟩ = some ⟨[], some .dir⟩ := by cbv

/-- The walker that leaves out the contents of `b`. -/
def withoutB : Walker where
  exclude := [[.literal 'b', .trailing],
    [.leading, .literal '.', .literal 'g', .literal 'i', .literal 't', .trailing]]
  excludeDirs := [[.literal 'b'], [.leading, .literal '.', .literal 'g', .literal 'i', .literal 't']]
  only := none
  includePriority := false
  followLinks := false
  ignoreFiles := true

theorem ofExcludes_b : ofExcludes ["b/**"] = .ok withoutB := by cbv

/-- The same walker, asked for what stands right in `a`. -/
def withoutBOnlyA : Walker := { withoutB with only := some [[.literal 'a', .literal '/', .run]] }

theorem withIncludes_a : withoutB.withIncludes ["a/*"] = .ok withoutBOnlyA := by cbv

theorem walk_of_two_dirs_is_pruned_traversal :
    let v : Walker := { withoutBOnlyA with includePriority := true, followLinks := false, ignoreFiles := false }
    twoDirs.IsTree ∧ twoDirs.place ⟨"."⟩ = some ⟨[], some .dir⟩ ∧ ofExcludes ["b/**"] = .ok withoutB ∧
      withoutB.withIncludes ["a/*"] = .ok withoutBOnlyA ∧
      PrunedTraversal twoDirs ⟨"."⟩ [] (Prunes ["b/**"]) v.shouldInclude (v.walk twoDirs ⟨"/h"⟩ ⟨"."⟩) ∧
      v.walkFiles twoDirs ⟨"/h"⟩ ⟨"."⟩ =
        ((v.walk twoDirs ⟨"/h"⟩ ⟨"."⟩).filter fun e => !e.isDir && !e.excluded).map (·.path) := by
  intro v
  obtain ⟨htraversal, hfiles⟩ :=
    walk_is_pruned_traversal_iff twoDirs_isTree place_twoDirs ofExcludes_b withIncludes_a true ⟨"/h"⟩
  have hdash : Path.isStandardInput ⟨"."⟩ = false := by decide
  exact ⟨twoDirs_isTree, place_twoDirs, ofExcludes_b, withIncludes_a,
    htraversal.2 fun h => absurd (h.symm.trans hdash) nofun, hfiles⟩

/-- A directory named by a dash, with a file in it. -/
def dashDir : FileSystem where
  items := [(["-"], .dir), (["-", "x"], .file .empty)]
  cwd := []

/-- The walker without globs of its own. -/
def withoutGit : Walker where
  exclude := [[.leading, .literal '.', .literal 'g', .literal 'i', .literal 't', .trailing]]
  excludeDirs := [[.leading, .literal '.', .literal 'g', .literal 'i', .literal 't']]
  only := none
  includePriority := false
  followLinks := false
  ignoreFiles := true

theorem ofExcludes_nil : ofExcludes [] = .ok withoutGit := by cbv

/-- The file is owed, and the walk does not find it. -/
theorem file_below_dash_is_lost :
    let v : Walker := { withoutGit with includePriority := false, followLinks := false, ignoreFiles := false }
    dashDir.IsTree ∧ dashDir.place ⟨"-"⟩ = some ⟨["-"], some .dir⟩ ∧ ofExcludes [] = .ok withoutGit ∧
      withoutGit.withIncludes [] = .ok withoutGit ∧
      Owes dashDir ⟨"-"⟩ ["-"] (Prunes []) v.shouldInclude ⟨⟨"-/x"⟩, ⟨"x"⟩, false, false⟩ ∧
      v.walk dashDir ⟨"/h"⟩ ⟨"-"⟩ = [] ∧
      ¬ PrunedTraversal dashDir ⟨"-"⟩ ["-"] (Prunes []) v.shouldInclude (v.walk dashDir ⟨"/h"⟩ ⟨"-"⟩) := by
  intro v
  have hroot : dashDir.place ⟨"-"⟩ = some ⟨["-"], some .dir⟩ := by cbv
  have hentry : (⟨⟨"-/x"⟩, ⟨"x"⟩, false, false⟩ : WalkEntry) =
      ⟨Path.join ⟨"-"⟩ (.ofNames ["x"]), .ofNames ["x"], false, !v.shouldInclude (.ofNames ["x"])⟩ := by cbv
  have howes : Owes dashDir ⟨"-"⟩ ["-"] (Prunes []) v.shouldInclude ⟨⟨"-/x"⟩, ⟨"x"⟩, false, false⟩ := by
    rw [hentry]
    exact .file ["x"] .empty (reached_singleton dashDir ["-"] (Prunes []) "x") rfl
  have hlost : v.walk dashDir ⟨"/h"⟩ ⟨"-"⟩ = [] := walk_of_isStandardInput v ⟨"/h"⟩ hroot (by decide)
  refine ⟨by decide, hroot, ofExcludes_nil, rfl, howes, hlost, fun h => ?_⟩
  have hfound := (h.mem_iff _).2 howes
  rw [hlost] at hfound
  cases hfound

end PromptPack.Walker
