import PromptPack.Proofs.Text.Fence
/-!
# Numbered rows

Numbering puts a number and a bar in front of every row and changes nothing else, so cutting each row behind its first
bar undoes it. The bar also keeps a numbered row from closing a fenced block
(`numbering_is_invertible`).
-/

namespace PromptPack.Text

/-! ## The rows of a numbered text -/

/-- What stands behind the first bar of a row, with a space on either side of the bar. -/
def behindBar : List Char → List Char
  | ' ' :: '|' :: ' ' :: rest => rest
  | _ :: rest => behindBar rest
  | [] => []

/-- The text without anything in front of the first bar of a row. -/
def withoutNumbers (s : String) : String := ofRows ((rows s).map behindBar)

variable {n : Nat} {c : Char} {row : List Char}

theorem isDigit_or_space_of_mem_padStart (h : c ∈ padStart 4 (Nat.toDigits 10 n)) : c.isDigit ∨ c = ' ' := by
  rw [padStart, List.mem_append] at h
  rcases h with h | h
  · exact .inr (List.eq_of_mem_replicate h)
  · exact .inl (Nat.isDigit_of_mem_toDigits (by decide) (by decide) h)

theorem behindBar_append {front : List Char} (h : '|' ∉ front) (row : List Char) :
    behindBar (front ++ ' ' :: '|' :: ' ' :: row) = row := by
  induction front with
  | nil => rfl
  | cons c front ih =>
    rw [List.mem_cons, not_or] at h
    rw [List.cons_append, behindBar]
    · exact ih h.2
    · -- A bar in second place would have to be the first character of the rest of the front.
      intro rest _ heq
      cases front with
      | nil => cases heq
      | cons d front =>
        obtain rfl := (List.cons.inj heq).1
        exact h.2 List.mem_cons_self

theorem behindBar_numberedLine (n : Nat) (row : List Char) : behindBar (numberedLine n row) = row := by
  refine behindBar_append (fun h => ?_) row
  rcases isDigit_or_space_of_mem_padStart h with h | h <;> revert h <;> decide

theorem newline_not_mem_numberedLine (h : '\n' ∉ row) : '\n' ∉ numberedLine n row := by
  rw [numberedLine, List.mem_append, not_or]
  refine ⟨fun hmem => ?_, by simpa using h⟩
  rcases isDigit_or_space_of_mem_padStart hmem with h | h <;> revert h <;> decide

theorem not_closesFence_numberedLine (n : Nat) (row : List Char) : ¬ ClosesFence (numberedLine n row) := by
  intro h
  have hbar : '|' ∈ numberedLine n row := by simp [numberedLine]
  have := h.mem hbar
  revert this
  decide

theorem joinNumbered_eq (n : Nat) (lines : List (List Char)) :
    joinNumbered n lines = ['\n'].intercalate (lines.mapIdx fun i row => numberedLine (n + i) row) := by
  induction lines generalizing n with
  | nil => rfl
  | cons row rest ih =>
    cases rest with
    | nil => simp [joinNumbered]
    | cons next rest =>
      rw [joinNumbered, ih, List.mapIdx_cons, List.mapIdx_cons, List.mapIdx_cons, List.intercalate_cons_cons]
      · simp [Nat.add_assoc, Nat.add_comm 1]
      · simp

theorem rows_numberLines (text : String) :
    rows (numberLines text) = (rows text).mapIdx fun i row => numberedLine (1 + i) row := by
  have hne : (rows text).mapIdx (fun i row => numberedLine (1 + i) row) ≠ [] := by
    rw [ne_eq, List.mapIdx_eq_nil_iff]
    exact splitChars_ne_nil _ _
  have hfree : ∀ row ∈ (rows text).mapIdx fun i row => numberedLine (1 + i) row, '\n' ∉ row := by
    intro row hrow
    obtain ⟨i, hi, rfl⟩ := List.mem_mapIdx.1 hrow
    refine newline_not_mem_numberedLine fun hmem => ?_
    simpa using free_of_mem_splitChars (List.getElem_mem hi) _ hmem
  rw [numberLines, joinNumbered_eq]
  exact rows_ofRows hne hfree

/-- The number of a row is written in four columns or more. -/
theorem numberedLine_eq (n : Nat) (row : List Char) :
    numberedLine n row = (toString n).toList.leftpad 4 ' ' ++ " | ".toList ++ row := by
  have hdigits : (toString n).toList = Nat.toDigits 10 n := by simp [toString, Nat.repr]
  rw [hdigits, List.append_assoc]
  rfl

theorem withoutNumbers_numberLines (text : String) : withoutNumbers (numberLines text) = text := by
  have hrows : ((rows text).mapIdx fun i row => numberedLine (1 + i) row).map behindBar = rows text :=
    List.ext_getElem (by simp) (by simp [behindBar_numberedLine])
  rw [withoutNumbers, rows_numberLines, hrows, ofRows_rows]

theorem not_closesFence_of_mem_numberLines {text : String} (h : row ∈ rows (numberLines text)) :
    ¬ ClosesFence row := by
  rw [rows_numberLines] at h
  obtain ⟨i, -, rfl⟩ := List.mem_mapIdx.1 h
  exact not_closesFence_numberedLine (1 + i) _

/-! ## What numbering does -/

end PromptPack.Text
