import Mathlib
import PromptPack.Proofs.Walk.Kept
import PromptPack.Proofs.Walk.Placed
/-!
# Nothing in a directory named `.git` is walked

The glob for the contents of such directories is among the exclude globs of every walker, and without its ending it
prunes the directories themselves. Pruning comes before all that is decided about files, so neither includes with
priority nor links nor ignore rules lead a walk into one (`git_never_walked`).
-/

namespace PromptPack.Walker

variable {w : Walker} {fs : FileSystem} {root : Path} {loc : Location} {names : List String} {e : WalkEntry}

/-- The walker prunes whatever has the name on its way. -/
def PrunesName (w : Walker) (name : String) : Prop :=
  ∀ names, (∀ n ∈ names, Path.IsName n) → name ∈ names → w.isPruned (.ofNames names) = true

theorem prunesName_git {excludes includes : List String} {w w' : Walker} (hexcludes : ofExcludes excludes = .ok w)
    (hincludes : w.withIncludes includes = .ok w') (priority followLinks ignoreFiles : Bool) :
    PrunesName { w' with includePriority := priority, followLinks := followLinks, ignoreFiles := ignoreFiles } ".git" := by
  intro names hnames hgit
  have hne : names ≠ [] := List.ne_nil_of_mem hgit
  exact (prunesLike_of_ofExcludes hexcludes hincludes priority names hne hnames).2
    ((prunes_ofNames_iff hne hnames).2 (.inr hgit))

/-- No directory above an entry has a name that is pruned. -/
theorem Placed.not_mem_dropLast {name : String} (h : Placed w fs root loc [] names e) (hname : w.PrunesName name) :
    name ∉ names.dropLast := by
  obtain ⟨front, last, rfl⟩ := (List.eq_nil_or_concat' names).resolve_left h.nonempty
  rw [List.dropLast_concat]
  intro hmem
  obtain ⟨above, rest, rfl⟩ := List.append_of_mem hmem
  refine h.through (above ++ [name]) (rest ++ [last]) (by simp) (by simp) (by simp) (hname _ (fun n hn => ?_) (by simp))
  refine h.isName n ?_
  simp only [List.nil_append, List.mem_append, List.mem_cons, List.not_mem_nil, or_false] at hn ⊢
  tauto

/-- Nothing in a directory named `.git` is walked, whatever the globs and the other settings of the walker are: no
entry and no file has such a directory above it. The directory itself comes up once at most, and left out. -/
theorem git_never_walked {fs : FileSystem} (tree : fs.IsTree) {root : Path} (hroot : fs.isDir root = true)
    {excludes includes : List String} {w w' : Walker} (hexcludes : ofExcludes excludes = .ok w)
    (hincludes : w.withIncludes includes = .ok w') (priority followLinks ignoreFiles : Bool) (home : Path) :
    let v : Walker :=
      { w' with includePriority := priority, followLinks := followLinks, ignoreFiles := ignoreFiles }
    (∀ e ∈ v.walk fs home root, ".git" ∉ e.names.dropLast ∧
        (e.names.getLast? = some ".git" → e.isDir = true → e.excluded = true)) ∧
      (v.walk fs home root).Pairwise (fun a b => a.names ≠ b.names) ∧
      ∀ p ∈ v.walkFiles fs home root, ∃ names, (∀ n ∈ names, Path.IsName n) ∧ p = root.join (.ofNames names) ∧
        ".git" ∉ names.dropLast := by
  intro v
  obtain ⟨loc, hplace⟩ := FileSystem.exists_place_of_isDir hroot
  have hgit : v.PrunesName ".git" := prunesName_git hexcludes hincludes priority followLinks ignoreFiles
  refine ⟨fun e he => ?_, (coherent_walk tree hroot v home).names_distinct, fun p hp => ?_⟩
  · obtain ⟨names, hplaced⟩ := placed_of_mem_walk tree hplace he
    rw [hplaced.names_eq]
    refine ⟨hplaced.not_mem_dropLast hgit, fun hlast hdir => ?_⟩
    rw [hplaced.mark hdir]
    exact hgit names hplaced.isName (List.mem_of_getLast? hlast)
  · obtain ⟨e, he, -, -, rfl⟩ := mem_walkFiles.1 hp
    obtain ⟨names, hplaced⟩ := placed_of_mem_walk tree hplace he
    exact ⟨names, hplaced.isName, hplaced.path, hplaced.not_mem_dropLast hgit⟩

/-- A repository with one file besides its own directory. -/
def repository : FileSystem where
  items := [([".git"], .dir), ([".git", "config"], .file .empty), (["a"], .file .empty)]
  cwd := []

theorem repository_isTree : repository.IsTree := by decide

theorem isDir_repository : repository.isDir ⟨"."⟩ = true := by cbv

/-- The walker without globs of its own, asked for everything. -/
def everything : Walker := { withoutGit with only := some [[.leading]] }

theorem withIncludes_everything : withoutGit.withIncludes ["**"] = .ok everything := by cbv

theorem git_never_walked_in_repository :
    let v : Walker := { everything with includePriority := true, followLinks := true, ignoreFiles := false }
    repository.IsTree ∧ repository.isDir ⟨"."⟩ = true ∧ ofExcludes [] = .ok withoutGit ∧
      withoutGit.withIncludes ["**"] = .ok everything ∧
      (∀ e ∈ v.walk repository ⟨"/h"⟩ ⟨"."⟩, ".git" ∉ e.names.dropLast ∧
        (e.names.getLast? = some ".git" → e.isDir = true → e.excluded = true)) ∧
      (v.walk repository ⟨"/h"⟩ ⟨"."⟩).Pairwise (fun a b => a.names ≠ b.names) ∧
      ∀ p ∈ v.walkFiles repository ⟨"/h"⟩ ⟨"."⟩, ∃ names, (∀ n ∈ names, Path.IsName n) ∧
        p = Path.join ⟨"."⟩ (.ofNames names) ∧ ".git" ∉ names.dropLast :=
  ⟨repository_isTree, isDir_repository, ofExcludes_nil, withIncludes_everything,
    git_never_walked repository_isTree isDir_repository ofExcludes_nil withIncludes_everything true true false ⟨"/h"⟩⟩

end PromptPack.Walker
