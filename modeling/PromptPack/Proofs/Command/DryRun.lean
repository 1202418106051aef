import Mathlib
import PromptPack.Command.Run
import PromptPack.Proofs.Delivery.Effects
/-!
# Dry runs

A dry run leaves the files of every command alone but for one: scripts for shells are written all the same
(`dry_run_writes_nothing_iff`). That changes nothing only where the directory for the scripts is there and holds
the script already, or where the writing fails before anything is made.
-/

namespace PromptPack

open FileSystem

variable {w : World} {g : GlobalOptions}

/-! ## Commands that keep to a dry run -/

theorem Pack.files_of_dryRun (dry : g.dryRun = true) (a : CommandLine.PackArguments) : (run w g a).files = w.files := by
  unfold run
  split
  · rfl
  · dsimp only
    split
    · rfl
    · rename_i p _ _ d _
      rcases d.deliver_cases w.clipboard p.settings.delivery g w.files (counter? w p.settings a) with
        ⟨-, hfiles⟩ | ⟨hwet, -⟩
      · exact hfiles
      · rw [dry] at hwet
        cases hwet

theorem Init.files_of_dryRun (dry : g.dryRun = true) (a : CommandLine.InitArguments) : (run w g a).files = w.files := by
  unfold run
  dsimp only
  rw [if_pos dry]
  split <;> rfl

theorem Tree.files_run (w : World) (g : GlobalOptions) (a : CommandLine.TreeArguments) : (run w g a).files = w.files := by
  unfold run
  cases walker w a with
  | error e => rfl
  | ok found =>
    dsimp only
    split
    · rfl
    · split <;> rfl

theorem Compress.files_run (w : World) (g : GlobalOptions) (a : CommandLine.CompressArguments) :
    (run w g a).files = w.files := by
  unfold run
  -- The built-in globs are not to be compiled here.
  generalize Walker.ofExcludes Glob.builtin = base
  cases forcedLanguage a.language with
  | error e => rfl
  | ok forced => cases base <;> rfl

theorem Excludes.files_run (w : World) (g : GlobalOptions) (a : CommandLine.ExcludesArguments) :
    (run w g a).files = w.files := by
  unfold run
  split
  · rfl
  · split <;> rfl

/-! ## The command that does not -/

namespace Completions

open CommandLine

/-- Writing the script for a shell into a directory changes nothing: the first directory on the way that is
missing cannot be made, or none is missing, and the script cannot be written or is there already. -/
def WritesNothing (w : World) (shell : Shell) (dir : Path) : Prop :=
  (∃ q, (fronts dir).find? (!w.files.isDir ·) = some q ∧ w.files.makeDir? q = none) ∨
    (∀ q ∈ fronts dir, w.files.isDir q = true) ∧
      let p := dir.join ⟨fileName shell⟩
      w.files.writeFile? p (w.scripts shell).toUTF8 = none ∨ w.files.readBytes? p = some (w.scripts shell).toUTF8

section

variable {shell : Shell} {dir : Path}

theorem writesNothing_iff_of_dirs (hdirs : ∀ q ∈ fronts dir, w.files.isDir q = true) :
    WritesNothing w shell dir ↔ w.files.writeFile? (dir.join ⟨fileName shell⟩) (w.scripts shell).toUTF8 = none ∨
      w.files.readBytes? (dir.join ⟨fileName shell⟩) = some (w.scripts shell).toUTF8 := by
  have hnone : (fronts dir).find? (!w.files.isDir ·) = none := by simpa using hdirs
  constructor
  · rintro (⟨q, hq, -⟩ | ⟨-, h⟩)
    · rw [hnone] at hq
      cases hq
    · exact h
  · exact fun h => .inr ⟨hdirs, h⟩

theorem writesNothing_iff_of_missing {q : Path} (hq : (fronts dir).find? (!w.files.isDir ·) = some q) :
    WritesNothing w shell dir ↔ w.files.makeDir? q = none := by
  constructor
  · rintro (⟨q', hq', h⟩ | ⟨hdirs, -⟩)
    · obtain rfl := Option.some.inj (hq'.symm.trans hq)
      exact h
    · have hmissing := List.find?_some hq
      simp [hdirs q (List.mem_of_find?_eq_some hq)] at hmissing
  · exact fun h => .inl ⟨q, hq, h⟩

end

theorem write_sameItems_iff (w : World) (shell : Shell) (dir : Path) :
    (write w shell dir).files.SameItems w.files ↔ WritesNothing w shell dir := by
  have hmade := makeAll_dirsMade w.files (fronts dir)
  have hsame := makeAll_sameItems_iff w.files (fronts dir)
  unfold write
  rw [makeDirs_eq]
  by_cases hdirs : ∀ q ∈ fronts dir, w.files.isDir q = true
  · rw [makeAll_of_dirs hdirs, writesNothing_iff_of_dirs hdirs]
    dsimp only
    cases hwrite : w.files.writeFile? (dir.join ⟨fileName shell⟩) (w.scripts shell).toUTF8 with
    | none => exact iff_of_true (.refl w.files) (.inl rfl)
    | some fs =>
      dsimp only
      rw [writeFile?_sameItems_iff hwrite]
      simp
  · obtain ⟨q, hq⟩ : ∃ q, (fronts dir).find? (!w.files.isDir ·) = some q := by
      rw [← Option.isSome_iff_exists, List.find?_isSome]
      simpa using hdirs
    rw [writesNothing_iff_of_missing hq]
    simp only [hq, Option.some.injEq, forall_eq'] at hsame
    rcases hall : w.files.makeAll (fronts dir) with ⟨fs, done⟩
    rw [hall] at hmade hsame
    dsimp only at hmade hsame ⊢
    cases done with
    | false => exact hsame
    | true =>
      -- A directory that was made stays whatever becomes of the script.
      have hchanged : ¬ fs.SameItems w.files := fun h =>
        hdirs (isDir_of_makeAll (by rw [hall]) (by rw [hall]; exact h))
      obtain ⟨loc, hnone, hloc⟩ := hmade.exists_made hchanged
      refine iff_of_false ?_ fun hmake => hchanged (hsame.2 hmake)
      dsimp only
      split
      · rename_i fs' hwrite
        intro h
        have hkept := h loc
        rw [lookup_dir_of_writeFile? hwrite hloc, hnone] at hkept
        cases hkept
      · exact hchanged

theorem run_sameItems_iff (w : World) (a : CompletionsArguments) : (run w a).files.SameItems w.files ↔
    ∀ dir, a.toOutput = false → a.outDir = some dir → WritesNothing w a.shell dir := by
  unfold run
  cases a.toOutput with
  | true => exact iff_of_true (.refl w.files) (by simp)
  | false =>
    cases a.outDir with
    | none => exact iff_of_true (.refl w.files) (by simp)
    | some dir => simpa using write_sameItems_iff w a.shell dir

end Completions

namespace CommandLine

/-- Every command but the one for scripts keeps to a dry run. -/
theorem Invocation.files_of_dryRun {i : Invocation} (dry : i.options.dryRun = true)
    (hother : ¬ ∃ a, i.command = .completions a) : (i.run w).files = w.files := by
  obtain ⟨options, command⟩ := i
  cases command with
  | pack a => exact Pack.files_of_dryRun dry a
  | compress a => exact Compress.files_run w options a
  | tree a => exact Tree.files_run w options a
  | excludes a => exact Excludes.files_run w options a
  | template => rfl
  | init a => exact Init.files_of_dryRun dry a
  | completions a => exact absurd ⟨a, rfl⟩ hother

/-- A world with one note in it. -/
def noteWorld : World where
  files := { items := [(["note.txt"], .file "hi".toUTF8)], cwd := [] }
  home := ⟨"/"⟩
  encoder := fun _ _ => []
  scripts := fun _ => "complete"

end CommandLine

end PromptPack
