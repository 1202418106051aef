import PromptPack.Delivery
import PromptPack.Proofs.FileSystem.Writing
/-!
# What a delivery does to the files

A delivery touches files only where it writes the prompt to an output file, which a dry run never does
(`Delivery.deliver_cases`). Where the writing fails, no more has happened than that directories above the
output file were made (`writeOutput_error`).
-/

namespace PromptPack

open FileSystem

variable {fs fs' : FileSystem} {p : Path} {e : Failure}

/-- The directories above a path, the outermost first. -/
def dirsAbove (p : Path) : List Path :=
  match p.parent? with
  | some dir => fronts dir
  | none => []

theorem makeParents_dirsMade (fs : FileSystem) (p : Path) : fs.DirsMade (makeParents fs p).1 (dirsAbove p) := by
  unfold makeParents dirsAbove
  cases p.parent? with
  | none => exact .refl fs []
  | some dir =>
    dsimp only
    split
    · exact .refl fs _
    · have hmade := makeAll_dirsMade fs (fronts dir)
      rw [← makeDirs_eq] at hmade
      split
      · rename_i heq
        rwa [heq] at hmade
      · rename_i heq
        rwa [heq] at hmade

theorem makeParents_error (h : makeParents fs p = (fs', .error e)) : ∃ dir, p.parent? = some dir ∧ e = .unmade dir := by
  unfold makeParents at h
  cases hparent : p.parent? with
  | none =>
    rw [hparent] at h
    cases h
  | some dir =>
    rw [hparent] at h
    dsimp only at h
    split at h
    · cases h
    · split at h
      · cases h
      · cases h
        exact ⟨dir, rfl, rfl⟩

/-- What went wrong where a prompt could not be written to a path. -/
def IsWriteFailure (p : Path) (e : Failure) : Prop :=
  e = .unwritten p ∨ ∃ dir, p.parent? = some dir ∧ e = .unmade dir

theorem writeOutput_error {text : String} (h : writeOutput fs p text = (fs', .error e)) :
    fs.DirsMade fs' (dirsAbove p) ∧ IsWriteFailure p e := by
  have hmade := makeParents_dirsMade fs p
  unfold writeOutput at h
  split at h
  · rename_i heq
    cases h
    rw [heq] at hmade
    exact ⟨hmade, .inr (makeParents_error heq)⟩
  · rename_i heq
    split at h
    · cases h
    · cases h
      rw [heq] at hmade
      exact ⟨hmade, .inl rfl⟩

namespace Delivery

variable (d : Delivery) (clipboard : Clipboard) (o : DeliveryOptions) (g : GlobalOptions) (fs : FileSystem)

/-- The outcome of a delivery that went well without touching a file. -/
def Untouched (r : Outcome) (fs : FileSystem) : Prop := r.result = .ok () ∧ r.files = fs

/-- The outcome of writing the prompt to the output file. -/
def Written (r : Outcome) (fs : FileSystem) (d : Delivery) (o : DeliveryOptions) : Prop :=
  ∃ p, o.output = some p ∧ r.out = "" ∧ writeOutput fs p d.prompt = (r.files, r.result)

theorem handOver_cases : Untouched (d.handOver clipboard o g fs) fs ∨ Written (d.handOver clipboard o g fs) fs d o := by
  unfold handOver
  cases houtput : o.output with
  | none => exact .inl ⟨rfl, rfl⟩
  | some p =>
    right
    refine ⟨p, houtput, ?_⟩
    rcases hwrite : writeOutput fs p d.prompt with ⟨fs', _ | _⟩ <;> simp [hwrite]

/-- A delivery leaves the files alone and goes well, or it is no dry run and what it does is to write the
prompt to the output file; then standard output stays empty. -/
theorem deliver_cases (counter : Option TokenCounter) :
    Untouched (d.deliver counter clipboard o g fs) fs ∨
      g.dryRun = false ∧ Written (d.deliver counter clipboard o g fs) fs d o := by
  have hhand : Untouched (d.handOverOrTell clipboard o g fs) fs ∨
      g.dryRun = false ∧ Written (d.handOverOrTell clipboard o g fs) fs d o := by
    unfold handOverOrTell
    split
    · exact .inl ⟨rfl, rfl⟩
    · rename_i hdry
      exact (handOver_cases d clipboard o g fs).imp_right fun h => ⟨by simpa using hdry, h⟩
  cases counter with
  | none => exact hhand
  | some counter =>
    unfold deliver
    dsimp only
    split
    · exact .inl ⟨rfl, rfl⟩
    · exact hhand

end Delivery

end PromptPack
