import Mathlib.Data.List.TakeWhile
import PromptPack.Proofs.Text.Pieces
import PromptPack.Text.Fence
/-!
# Reading fenced blocks

A fence always has three backquotes, so a reader takes the first row that looks like a fence for the end of the block.
A text comes back from its block exactly when it has no such row (`fence_reads_back_iff`).
-/

namespace PromptPack.Text

/-- The backquote. -/
def backquote : Char := '\x60'

/-! ## Rows that close a block -/

/-- The row ends a block that three backquotes began: behind at most three spaces it has three backquotes or more, and
then nothing but blanks. -/
def ClosesFence (row : List Char) : Prop :=
  let body := row.dropWhile (· == ' ')
  (row.takeWhile (· == ' ')).length ≤ 3 ∧ 3 ≤ (body.takeWhile (· == backquote)).length ∧
    ∀ c ∈ body.dropWhile (· == backquote), c = ' ' ∨ c = '\t' ∨ c = '\r'

instance : DecidablePred ClosesFence := fun row =>
  -- Going through the characters of the row, not through all characters.
  have := List.decidableBAll (fun c => c = ' ' ∨ c = '\t' ∨ c = '\r')
    ((row.dropWhile (· == ' ')).dropWhile (· == backquote))
  inferInstanceAs (Decidable (_ ∧ _ ∧ _))

theorem closesFence_fenceMark : ClosesFence fenceMark.toList := by decide

/-- A row that closes a block has no other characters than spaces, tabs, carriage returns and backquotes. -/
theorem ClosesFence.mem {row : List Char} (h : ClosesFence row) {c : Char} (hc : c ∈ row) :
    c = ' ' ∨ c = '\t' ∨ c = '\r' ∨ c = backquote := by
  rw [← List.takeWhile_append_dropWhile (p := (· == ' ')) (l := row), List.mem_append] at hc
  rcases hc with hc | hc
  · exact .inl (by simpa using List.mem_takeWhile_imp hc)
  · rw [← List.takeWhile_append_dropWhile (p := (· == backquote)) (l := row.dropWhile (· == ' ')),
      List.mem_append] at hc
    rcases hc with hc | hc
    · exact .inr (.inr (.inr (by simpa using List.mem_takeWhile_imp hc)))
    · grind [h.2.2 c hc]

/-! ## Blocks -/

/-- A fenced block at the beginning of a text, and the rows behind it. -/
structure FencedBlock where
  label : List Char
  content : List (List Char)
  after : List (List Char)
  deriving DecidableEq, Repr

namespace FencedBlock

/-- Reads a block as markdown does: its first row is three backquotes and a label without any, and it goes on up to the
first row that closes it, or to the end. -/
def read? (s : String) : Option FencedBlock :=
  match rows s with
  | [] => none
  | first :: rest =>
    match dropStart? fenceMark.toList first with
    | none => none
    | some label =>
      if backquote ∈ label then none
      else some {
        label := label
        content := rest.takeWhile fun row => !decide (ClosesFence row)
        after := (rest.dropWhile fun row => !decide (ClosesFence row)).tail }

/-- The text in a block. -/
def text (b : FencedBlock) : String := ofRows b.content

end FencedBlock

/-! ## The rows of a fenced text -/

theorem fenceLabel_subset (extension : String) : fenceLabel extension ⊆ extension.toList := by
  unfold fenceLabel
  split
  · rename_i label heq
    rw [heq]
    exact List.subset_cons_self '.' label
  · exact List.Subset.refl _

/-- A fenced text has the rows of its fence and label, those of the text, and one more fence. -/
theorem rows_fence (code extension : String) : rows (fence code extension) =
    rows (fenceMark ++ String.ofList (fenceLabel extension)) ++ (rows code ++ [fenceMark.toList]) := by
  have hmark : rows fenceMark = [fenceMark.toList] := rfl
  rw [fence, rows_append_newline, rows_append_newline, hmark, List.append_assoc]

variable {code extension : String}

/-- A label without line feeds is on one row. -/
theorem rows_fence_of_label (h : '\n' ∉ extension.toList) : rows (fence code extension) =
    (fenceMark.toList ++ fenceLabel extension) :: (rows code ++ [fenceMark.toList]) := by
  have hmark : '\n' ∉ fenceMark.toList := by decide
  have hlabel : '\n' ∉ fenceLabel extension := fun hmem => h (fenceLabel_subset extension hmem)
  rw [rows_fence, rows_of_not_mem (by simpa [hmark] using hlabel)]
  simp

/-- What a reader makes of a fenced text: the rows of the text up to the first that looks like a fence. -/
theorem read?_fence (hmark : backquote ∉ extension.toList) (hrow : '\n' ∉ extension.toList) :
    FencedBlock.read? (fence code extension) = some {
      label := fenceLabel extension
      content := (rows code).takeWhile fun row => !decide (ClosesFence row)
      after := ((rows code ++ [fenceMark.toList]).dropWhile fun row => !decide (ClosesFence row)).tail } := by
  have hlabel : backquote ∉ fenceLabel extension := fun hmem => hmark (fenceLabel_subset extension hmem)
  have hcut : dropStart? fenceMark.toList (fenceMark.toList ++ fenceLabel extension) = some (fenceLabel extension) :=
    dropStart?_eq_some_iff.2 rfl
  have hend : (rows code ++ [fenceMark.toList]).takeWhile (fun row => !decide (ClosesFence row)) =
      (rows code).takeWhile fun row => !decide (ClosesFence row) := by
    rw [List.takeWhile_append]
    split
    · rename_i hall
      rw [(List.takeWhile_sublist _).eq_of_length hall]
      simp [closesFence_fenceMark]
    · rfl
  rw [FencedBlock.read?, rows_fence_of_label hrow]
  simp only [hcut, if_neg hlabel, hend]

/-- A fenced text reads back, with nothing behind its block, exactly when none of its rows looks like a fence. -/
theorem fence_reads_back_iff {code extension : String} (hmark : backquote ∉ extension.toList)
    (hrow : '\n' ∉ extension.toList) :
    (∃ block, FencedBlock.read? (fence code extension) = some block ∧ block.text = code ∧ block.after = []) ↔
      ∀ row ∈ rows code, ¬ ClosesFence row := by
  rw [read?_fence hmark hrow]
  constructor
  · rintro ⟨block, hblock, -, hafter⟩
    obtain rfl := Option.some.inj hblock
    intro row hmem hcloses
    -- The row, or one before it, ends the block, and the last fence at least is left behind.
    have hrest : (rows code).dropWhile (fun row => !decide (ClosesFence row)) ≠ [] := by
      intro hnil
      have := List.dropWhile_eq_nil_iff.1 hnil row hmem
      simp [hcloses] at this
    rw [List.dropWhile_append, if_neg (by simpa using hrest), List.tail_append_of_ne_nil hrest] at hafter
    simp at hafter
  · intro hopen
    have hall : ∀ row ∈ rows code, (!decide (ClosesFence row)) = true := by simpa using hopen
    refine ⟨_, rfl, ?_, ?_⟩
    · rw [FencedBlock.text, List.takeWhile_eq_self_iff.2 hall, ofRows_rows]
    · rw [List.dropWhile_append, List.dropWhile_eq_nil_iff.2 hall]
      simp [closesFence_fenceMark]

/-- Two backquotes do not close a block, and neither do three that are indented by four spaces. -/
theorem fence_around_marks_reads_back :
    backquote ∉ ".md".toList ∧ '\n' ∉ ".md".toList ∧
      (∀ row ∈ rows "a\n\x60\x60\n    \x60\x60\x60\n", ¬ ClosesFence row) ∧
      ∃ block, FencedBlock.read? (fence "a\n\x60\x60\n    \x60\x60\x60\n" ".md") = some block ∧
        block.text = "a\n\x60\x60\n    \x60\x60\x60\n" ∧ block.after = [] := by
  have hmark : backquote ∉ ".md".toList := by decide
  have hrow : '\n' ∉ ".md".toList := by decide
  have hopen : ∀ row ∈ rows "a\n\x60\x60\n    \x60\x60\x60\n", ¬ ClosesFence row := by decide
  exact ⟨hmark, hrow, hopen, (fence_reads_back_iff hmark hrow).2 hopen⟩

/-- A fence in the text ends the block: what follows it in the text stands outside. -/
theorem fence_in_text_ends_block :
    backquote ∉ ".md".toList ∧ '\n' ∉ ".md".toList ∧
      FencedBlock.read? (fence "a\n\x60\x60\x60\nb" ".md") = some ⟨['m', 'd'], [['a']], [['b'], fenceMark.toList]⟩ ∧
      ¬ ∃ block, FencedBlock.read? (fence "a\n\x60\x60\x60\nb" ".md") = some block ∧
        block.text = "a\n\x60\x60\x60\nb" ∧ block.after = [] := by
  have hread : FencedBlock.read? (fence "a\n\x60\x60\x60\nb" ".md") =
      some ⟨['m', 'd'], [['a']], [['b'], fenceMark.toList]⟩ := by decide
  refine ⟨by decide, by decide, hread, ?_⟩
  rintro ⟨block, hblock, -, hafter⟩
  obtain rfl := Option.some.inj (hread.symm.trans hblock)
  cases hafter

end PromptPack.Text
