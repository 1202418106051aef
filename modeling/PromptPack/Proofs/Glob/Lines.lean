import PromptPack.Glob.Lines
import PromptPack.Proofs.Text.Pieces
/-!
# What pattern files spell

A pattern file is read row by row, so files put one behind the other give the globs of the one and then those of the
other. It gives a list of globs exactly when its rows spell the list: each glob has a row with blanks around it, and
the other rows are blank or comments (`parseLines_eq_iff`).
-/

namespace PromptPack.Text

variable {p : Char → Bool} {c : Char}

/-- A character that separates nothing goes to the end of the last piece. -/
theorem exists_splitChars_concat (cs : List Char) (hc : p c = false) :
    ∃ front last, splitChars p cs = front ++ [last] ∧ splitChars p (cs ++ [c]) = front ++ [last ++ [c]] := by
  induction cs with
  | nil => exact ⟨[], [], rfl, by simp [splitChars, hc]⟩
  | cons d cs ih =>
    obtain ⟨front, last, hcs, hconcat⟩ := ih
    rw [List.cons_append, splitChars, splitChars, hcs, hconcat]
    split
    · exact ⟨[] :: front, last, rfl, rfl⟩
    · cases front with
      | nil => exact ⟨[], d :: last, rfl, rfl⟩
      | cons piece front => exact ⟨(d :: piece) :: front, last, rfl, rfl⟩

end PromptPack.Text

namespace PromptPack.Glob

open Text

variable {text glob : String} {globs : List String} {row w w' : List Char} {lines : List (List Char)}

/-! ## One row -/

/-- The glob on a row of a pattern file, if there is one. -/
def globOnRow? (row : List Char) : Option String :=
  let glob := String.ofList (trimChars row)
  if isGlobLine glob then some glob else none

theorem isGlobLine_iff : isGlobLine glob = true ↔ glob ≠ "" ∧ glob.toList.head? ≠ some '#' := by
  have hmark : startsWith glob "#" = true ↔ glob.toList.head? = some '#' := by
    rw [startsWith_iff, List.head?_eq_some_iff]
    rfl
  rw [isGlobLine, Bool.and_eq_true, Bool.not_eq_true', Bool.not_eq_true', ← Bool.not_eq_true, ← Bool.not_eq_true,
    hmark, String.isEmpty_iff]

theorem globOnRow?_eq_some_iff : globOnRow? row = some glob ↔
    trimChars row = glob.toList ∧ glob ≠ "" ∧ glob.toList.head? ≠ some '#' := by
  rw [globOnRow?, Option.ite_none_right_eq_some, Option.some.injEq, ← String.toList_inj, String.toList_ofList,
    isGlobLine_iff]
  constructor
  · rintro ⟨hline, htrim⟩
    rw [htrim, String.ofList_toList] at hline
    exact ⟨htrim, hline⟩
  · rintro ⟨htrim, hline⟩
    rw [htrim, String.ofList_toList]
    exact ⟨hline, rfl⟩

theorem globOnRow?_eq_none_iff : globOnRow? row = none ↔ AllBlank row ∨ (trimStartChars row).head? = some '#' := by
  rw [globOnRow?, ite_eq_right_iff, ← head?_trimChars, ← trimChars_eq_nil_iff]
  simp only [reduceCtorEq, imp_false, isGlobLine_iff, not_and_or, not_not, String.toList_ofList,
    String.ofList_eq_empty_iff]

theorem globOnRow?_append_blank (row : List Char) (hw : AllBlank w) : globOnRow? (row ++ w) = globOnRow? row := by
  rw [globOnRow?, trimChars_append_blank row hw, globOnRow?]

theorem globOnRow?_dropReturn (row : List Char) : globOnRow? (dropReturn row) = globOnRow? row := by
  unfold dropReturn
  split
  · rename_i hlast
    obtain ⟨front, rfl⟩ := List.getLast?_eq_some_iff.1 hlast
    rw [List.dropLast_concat, globOnRow?_append_blank front (by decide +kernel)]
  · rfl

/-! ## All rows -/

theorem filterMap_linesOfPieces (pieces : List (List Char)) :
    (linesOfPieces pieces).filterMap globOnRow? = pieces.filterMap globOnRow? := by
  fun_induction linesOfPieces pieces with
  | case1 => rfl
  | case2 last hempty =>
    rw [List.isEmpty_iff.1 hempty]
    rfl
  | case3 last => rfl
  | case4 row rest _ ih => rw [List.filterMap_cons, List.filterMap_cons, globOnRow?_dropReturn, ih]

/-- A pattern file is read row by row. -/
theorem parseLines_eq_filterMap (text : String) : parseLines text = (rows text).filterMap globOnRow? := by
  have hrow : Option.guard isGlobLine ∘ trim ∘ String.ofList = globOnRow? := by
    funext row
    simp [Option.guard, trim, globOnRow?]
  rw [rows, ← filterMap_linesOfPieces, parseLines, Text.lines, List.map_map, ← List.filterMap_eq_filter,
    List.filterMap_map, hrow]

theorem parseLines_append_newline (a b : String) : parseLines (a ++ "\n" ++ b) = parseLines a ++ parseLines b := by
  simp only [parseLines_eq_filterMap, rows_append_newline, List.filterMap_append]

theorem filterMap_splitChars_append_blank (cs : List Char) (hw : AllBlank w) :
    (splitChars (· == '\n') (cs ++ w)).filterMap globOnRow? = (splitChars (· == '\n') cs).filterMap globOnRow? := by
  induction w generalizing cs with
  | nil => rw [List.append_nil]
  | cons c w ih =>
    obtain ⟨hc, hw⟩ := List.forall_mem_cons.1 hw
    rw [List.append_cons, ih _ hw]
    by_cases hfeed : c = '\n'
    · subst hfeed
      rw [splitChars_append (p := (· == '\n')) cs [] rfl, List.filterMap_append]
      exact List.append_nil _
    · obtain ⟨front, last, hcs, hconcat⟩ := exists_splitChars_concat (p := (· == '\n')) cs (by simpa using hfeed)
      have hlast : globOnRow? (last ++ [c]) = globOnRow? last :=
        globOnRow?_append_blank last (List.forall_mem_singleton.2 hc)
      rw [hcs, hconcat, List.filterMap_append, List.filterMap_append, List.filterMap_cons, List.filterMap_cons, hlast]

/-- Blanks at the end of a pattern file do not show, line endings of either kind among them. -/
theorem parseLines_append_blank (text : String) {w : String} (hw : AllBlank w.toList) :
    parseLines (text ++ w) = parseLines text := by
  rw [parseLines_eq_filterMap, parseLines_eq_filterMap, rows, rows, String.toList_append,
    filterMap_splitChars_append_blank _ hw]

/-! ## What rows spell -/

/-- A glob that a pattern file can give as it stands. -/
structure IsListed (glob : String) : Prop where
  nonempty : glob ≠ ""
  trimmed : IsTrimmed glob.toList
  noFeed : '\n' ∉ glob.toList
  noComment : glob.toList.head? ≠ some '#'

/-- The rows spell the globs: each glob has a row with blanks around it, and the other rows are blank or comments. -/
inductive Spells : List (List Char) → List String → Prop
  | nil : Spells [] []
  | blank {w : List Char} {lines : List (List Char)} {globs : List String} (hw : AllBlank w)
    (rest : Spells lines globs) : Spells (w :: lines) globs
  | comment {w text : List Char} {lines : List (List Char)} {globs : List String} (hw : AllBlank w)
    (rest : Spells lines globs) : Spells ((w ++ '#' :: text) :: lines) globs
  | glob {w w' : List Char} {glob : String} {lines : List (List Char)} {globs : List String} (hw : AllBlank w)
    (listed : IsListed glob) (hw' : AllBlank w') (rest : Spells lines globs) :
    Spells ((w ++ glob.toList ++ w') :: lines) (glob :: globs)

theorem Spells.isListed (h : Spells lines globs) : ∀ glob ∈ globs, IsListed glob := by
  induction h with
  | nil => exact nofun
  | blank _ _ ih | comment _ _ ih => exact ih
  | glob _ listed _ _ ih => exact List.forall_mem_cons.2 ⟨listed, ih⟩

theorem globOnRow?_of_comment (hw : AllBlank w) (text : List Char) : globOnRow? (w ++ '#' :: text) = none := by
  refine globOnRow?_eq_none_iff.2 (.inr ?_)
  rw [trimStartChars_append hw]
  rfl

theorem globOnRow?_of_isListed (hw : AllBlank w) (h : IsListed glob) (hw' : AllBlank w') :
    globOnRow? (w ++ glob.toList ++ w') = some glob :=
  globOnRow?_eq_some_iff.2 ⟨trimChars_padded hw h.trimmed hw', h.nonempty, h.noComment⟩

theorem Spells.filterMap_eq (h : Spells lines globs) : lines.filterMap globOnRow? = globs := by
  induction h with
  | nil => rfl
  | blank hw _ ih => rw [List.filterMap_cons_none (globOnRow?_eq_none_iff.2 (.inl hw)), ih]
  | comment hw _ ih => rw [List.filterMap_cons_none (globOnRow?_of_comment hw _), ih]
  | glob hw listed hw' _ ih => rw [List.filterMap_cons_some (globOnRow?_of_isListed hw listed hw'), ih]

/-- Rows without line feeds spell the globs that are on them. -/
theorem spells_filterMap (h : ∀ line ∈ lines, '\n' ∉ line) : Spells lines (lines.filterMap globOnRow?) := by
  induction lines with
  | nil => exact .nil
  | cons line lines ih =>
    obtain ⟨hline, hlines⟩ := List.forall_mem_cons.1 h
    cases hglob : globOnRow? line with
    | none =>
      rw [List.filterMap_cons_none hglob]
      rcases globOnRow?_eq_none_iff.1 hglob with hblank | hmark
      · exact .blank hblank (ih hlines)
      · obtain ⟨text, htext⟩ := List.head?_eq_some_iff.1 hmark
        rw [← List.takeWhile_append_dropWhile (p := isBlank) (l := line),
          show line.dropWhile isBlank = '#' :: text from htext]
        exact .comment (fun c => List.mem_takeWhile_imp) (ih hlines)
    | some glob =>
      rw [List.filterMap_cons_some hglob]
      obtain ⟨htrim, hne, hmark⟩ := globOnRow?_eq_some_iff.1 hglob
      obtain ⟨htrimmed, w, w', hw, hw', rfl⟩ := trimChars_eq_iff.1 htrim
      have hfeed : '\n' ∉ glob.toList := fun hmem => hline (by simp [hmem])
      exact .glob hw ⟨hne, htrimmed, hfeed, hmark⟩ hw' (ih hlines)

theorem not_mem_newline_of_mem_rows (h : row ∈ rows text) : '\n' ∉ row := fun hmem =>
  absurd (free_of_mem_splitChars h '\n' hmem) (by decide)

/-- A pattern file gives exactly the globs that its rows spell. -/
theorem parseLines_eq_iff : parseLines text = globs ↔ Spells (rows text) globs := by
  rw [parseLines_eq_filterMap]
  constructor
  · rintro rfl
    exact spells_filterMap fun row => not_mem_newline_of_mem_rows
  · exact Spells.filterMap_eq

theorem Spells.parseLines_ofRows (h : Spells lines globs) (hfeed : ∀ line ∈ lines, '\n' ∉ line) :
    parseLines (ofRows lines) = globs := by
  cases lines with
  | nil =>
    cases h
    rfl
  | cons line rest =>
    rw [parseLines_eq_iff, rows_ofRows (List.cons_ne_nil line rest) hfeed]
    exact h

theorem intercalate_eq_ofRows (globs : List String) :
    "\n".intercalate globs = ofRows (globs.map String.toList) := by
  rw [← String.toList_inj, String.toList_intercalate, ofRows, String.toList_ofList (l := ['\n'].intercalate _)]
  rfl

theorem spells_of_isListed (h : ∀ glob ∈ globs, IsListed glob) : Spells (globs.map String.toList) globs := by
  induction globs with
  | nil => exact .nil
  | cons glob globs ih =>
    obtain ⟨hglob, hglobs⟩ := List.forall_mem_cons.1 h
    have hspells : Spells (([] ++ glob.toList ++ []) :: globs.map String.toList) (glob :: globs) :=
      .glob (by simp [AllBlank]) hglob (by simp [AllBlank]) (ih hglobs)
    rwa [List.nil_append, List.append_nil] at hspells

/-- Globs printed one on a line are read back. -/
theorem parseLines_intercalate (h : ∀ glob ∈ globs, IsListed glob) : parseLines ("\n".intercalate globs) = globs := by
  rw [intercalate_eq_ofRows]
  refine (spells_of_isListed h).parseLines_ofRows fun line hline => ?_
  obtain ⟨glob, hglob, rfl⟩ := List.mem_map.1 hline
  exact (h glob hglob).noFeed

/-- Pattern files put one behind the other give the globs of both, whichever line ending is between them and however
many blanks end the first. A file gives exactly the globs that its rows spell, so what was printed is read back, with
whatever blank rows, comments and blanks were put in; and the globs of any file are read back from the globs alone. -/
theorem pattern_files_compose_and_read_back :
    (∀ a b, parseLines (a ++ "\n" ++ b) = parseLines a ++ parseLines b) ∧
      (∀ a w b, AllBlank w.toList → parseLines (a ++ w ++ "\n" ++ b) = parseLines a ++ parseLines b) ∧
      (∀ text globs, parseLines text = globs ↔ Spells (rows text) globs) ∧
      (∀ lines globs, Spells lines globs → (∀ line ∈ lines, '\n' ∉ line) → parseLines (ofRows lines) = globs) ∧
      (∀ globs, (∀ glob ∈ globs, IsListed glob) → parseLines ("\n".intercalate globs) = globs) ∧
      ∀ text, parseLines ("\n".intercalate (parseLines text)) = parseLines text := by
  refine ⟨parseLines_append_newline, fun a w b hw => ?_, fun text globs => parseLines_eq_iff,
    fun lines globs h => h.parseLines_ofRows, fun globs => parseLines_intercalate, fun text => ?_⟩
  · rw [parseLines_append_newline, parseLines_append_blank a hw]
  · exact parseLines_intercalate (parseLines_eq_iff.1 rfl).isListed

/-- Two globs with blanks around them, on lines that end in a carriage return too, with a comment in between. -/
theorem spaced_globs_read_back :
    let lines : List (List Char) := [[' ', ' '] ++ "**/*.log".toList ++ ['\t', '\r'],
      ['\u00a0'] ++ '#' :: " notes\r".toList, [' ', '\r'], [] ++ "a #b".toList ++ []]
    Spells lines ["**/*.log", "a #b"] ∧ (∀ line ∈ lines, '\n' ∉ line) ∧ AllBlank "\r".toList ∧
      (∀ glob ∈ ["**/*.log", "a #b"], IsListed glob) ∧ parseLines (ofRows lines) = ["**/*.log", "a #b"] ∧
      parseLines ("x" ++ "\r" ++ "\n" ++ "#y") = parseLines "x" ++ parseLines "#y" ∧
      parseLines ("\n".intercalate ["**/*.log", "a #b"]) = ["**/*.log", "a #b"] := by
  intro lines
  obtain ⟨-, hcompose, -, hread, hprinted, -⟩ := pattern_files_compose_and_read_back
  have hlog : IsListed "**/*.log" := by
    constructor <;> decide +kernel
  have hspaced : IsListed "a #b" := by
    constructor <;> decide +kernel
  have hspells : Spells lines ["**/*.log", "a #b"] :=
    .glob (by decide +kernel) hlog (by decide +kernel) <| .comment (by decide +kernel) <|
      .blank (by decide +kernel) <| .glob (by decide +kernel) hspaced (by decide +kernel) .nil
  have hfeed : ∀ line ∈ lines, '\n' ∉ line := by decide +kernel
  have hlisted : ∀ glob ∈ ["**/*.log", "a #b"], IsListed glob := by simp [hlog, hspaced]
  have hreturn : AllBlank "\r".toList := by decide +kernel
  exact ⟨hspells, hfeed, hreturn, hlisted, hread _ _ hspells hfeed, hcompose "x" "\r" "#y" hreturn,
    hprinted _ hlisted⟩

end PromptPack.Glob
