import Mathlib.Data.List.DropRight
import PromptPack.Text.Blank
/-!
# Texts put together and taken apart

What was put together from pieces splits into the same pieces, no piece or line has characters that
the text does not have, and what stands in front of a text or at its end can be told. Trimming gives the one text
without blanks at its ends from which the text at hand comes about by blanks in front and behind (`trimChars_eq_iff`).
-/

namespace PromptPack.Text

/-! ## Splitting -/

variable {p : Char → Bool}

theorem splitChars_of_not_mem {cs : List Char} (h : ∀ c ∈ cs, p c = false) : splitChars p cs = [cs] := by
  induction cs with
  | nil => rfl
  | cons c cs ih =>
    simp only [List.forall_mem_cons] at h
    simp only [splitChars, h.1, ih h.2, Bool.false_eq_true, if_false]

theorem splitChars_ne_nil (p : Char → Bool) (cs : List Char) : splitChars p cs ≠ [] := by
  induction cs with
  | nil => simp [splitChars]
  | cons c cs ih =>
    unfold splitChars
    split
    · simp
    · split <;> simp

/-- A text splits at the separator in front of any part of it. -/
theorem splitChars_append (cs rest : List Char) {d : Char} (hd : p d = true) :
    splitChars p (cs ++ d :: rest) = splitChars p cs ++ splitChars p rest := by
  induction cs with
  | nil => simp [splitChars, hd]
  | cons c cs ih =>
    rw [List.cons_append, splitChars, splitChars, ih]
    split
    · rfl
    · cases hpieces : splitChars p cs with
      | nil => exact absurd hpieces (splitChars_ne_nil p cs)
      | cons piece pieces => rfl

/-- Splitting pieces that were put together gives the pieces again. -/
theorem splitChars_intercalate {d : Char} {pieces : List (List Char)} (hne : pieces ≠ [])
    (h : ∀ cs ∈ pieces, d ∉ cs) : splitChars (· == d) (List.intercalate [d] pieces) = pieces := by
  have hfree : ∀ cs ∈ pieces, ∀ c ∈ cs, (c == d) = false := by
    intro cs hcs c hc
    rw [beq_eq_false_iff_ne]
    rintro rfl
    exact h cs hcs hc
  induction pieces with
  | nil => exact absurd rfl hne
  | cons cs rest ih =>
    simp only [List.forall_mem_cons] at h hfree
    cases rest with
    | nil => rw [List.intercalate_singleton, splitChars_of_not_mem hfree.1]
    | cons next rest =>
      rw [List.intercalate_cons_cons, List.append_assoc, List.singleton_append, splitChars_append _ _ (by simp),
        splitChars_of_not_mem hfree.1, ih (by simp) h.2 hfree.2, List.singleton_append]

/-- Putting the pieces of a text together gives the text again. -/
theorem intercalate_splitChars (d : Char) (cs : List Char) : [d].intercalate (splitChars (· == d) cs) = cs := by
  induction cs with
  | nil => rfl
  | cons c cs ih =>
    unfold splitChars
    split
    · rename_i hc
      obtain ⟨piece, pieces, hpieces⟩ := List.exists_cons_of_ne_nil (splitChars_ne_nil (· == d) cs)
      rw [hpieces] at ih ⊢
      rw [List.intercalate_cons_cons, ih, eq_of_beq hc]
      rfl
    · split
      · rename_i hpieces
        exact absurd hpieces (splitChars_ne_nil _ _)
      · rename_i piece rest hpieces
        rw [hpieces] at ih
        cases rest with
        | nil => rw [List.intercalate_singleton] at ih ⊢; rw [ih]
        | cons next rest =>
          rw [List.intercalate_cons_cons] at ih ⊢
          rw [List.cons_append, List.cons_append, ih]

/-- The pieces hold all that does not separate them. -/
theorem flatten_splitChars (p : Char → Bool) (cs : List Char) :
    (splitChars p cs).flatten = cs.filter fun c => !p c := by
  induction cs with
  | nil => rfl
  | cons c cs ih =>
    rw [splitChars, List.filter_cons, ← ih]
    cases p c with
    | true => rfl
    | false =>
      obtain ⟨piece, pieces, hpieces⟩ := List.exists_cons_of_ne_nil (splitChars_ne_nil p cs)
      rw [hpieces]
      rfl

theorem splitAt_intercalate {d : Char} {pieces : List String} (hne : pieces ≠ [])
    (h : ∀ s ∈ pieces, d ∉ s.toList) : splitAt d ((String.singleton d).intercalate pieces) = pieces := by
  have hne' : pieces.map String.toList ≠ [] := by simpa using hne
  have hfree : ∀ cs ∈ pieces.map String.toList, d ∉ cs := by simpa using h
  have hsplit := splitChars_intercalate hne' hfree
  simp only [splitAt, String.toList_intercalate, String.toList_singleton, hsplit, List.map_map]
  conv => rhs; rw [← List.map_id pieces]
  exact List.map_congr_left fun s _ => String.ofList_toList

theorem splitAt_append_slash (s t : String) : splitAt '/' (s ++ "/" ++ t) = splitAt '/' s ++ splitAt '/' t := by
  simp only [splitAt, String.toList_append, List.append_assoc, ← List.map_append]
  exact congrArg _ (splitChars_append s.toList t.toList rfl)

/-! ## Rows -/

/-- The rows of a text: what stands between its line feeds. -/
def rows (s : String) : List (List Char) := splitChars (· == '\n') s.toList

/-- The text that has these rows. -/
def ofRows (lines : List (List Char)) : String := String.ofList (['\n'].intercalate lines)

@[simp]
theorem ofRows_rows (s : String) : ofRows (rows s) = s := by
  rw [ofRows, rows, intercalate_splitChars, String.ofList_toList]

theorem rows_ofRows {lines : List (List Char)} (hne : lines ≠ []) (h : ∀ line ∈ lines, '\n' ∉ line) :
    rows (ofRows lines) = lines := by
  rw [ofRows, rows, String.toList_ofList, splitChars_intercalate hne h]

theorem rows_of_not_mem {s : String} (h : '\n' ∉ s.toList) : rows s = [s.toList] := by
  refine splitChars_of_not_mem fun c hc => ?_
  rw [beq_eq_false_iff_ne]
  rintro rfl
  exact h hc

theorem rows_append_newline (s t : String) : rows (s ++ "\n" ++ t) = rows s ++ rows t := by
  simp only [rows, String.toList_append, List.append_assoc]
  exact splitChars_append s.toList t.toList rfl

/-! ## What the pieces are made of -/

section

variable {cs : List Char} {s t : String}

theorem subset_of_mem_splitChars {piece : List Char} (h : piece ∈ splitChars p cs) : piece ⊆ cs := by
  induction cs generalizing piece with
  | nil =>
    rw [splitChars, List.mem_singleton] at h
    simp [h]
  | cons c cs ih =>
    unfold splitChars at h
    split at h
    · rw [List.mem_cons] at h
      rcases h with rfl | h
      · simp
      · exact List.subset_cons_of_subset c (ih h)
    · split at h
      · simp_all
      · rename_i first rest heq
        rw [heq] at ih
        rw [List.mem_cons] at h
        rcases h with rfl | h
        · exact List.cons_subset_cons c (ih List.mem_cons_self)
        · exact List.subset_cons_of_subset c (ih (List.mem_cons_of_mem _ h))

/-- No piece has a separator in it. -/
theorem free_of_mem_splitChars {piece : List Char} (h : piece ∈ splitChars p cs) : ∀ c ∈ piece, p c = false := by
  induction cs generalizing piece with
  | nil =>
    rw [splitChars, List.mem_singleton] at h
    simp [h]
  | cons c cs ih =>
    unfold splitChars at h
    split at h
    · rcases List.mem_cons.1 h with rfl | h
      · exact nofun
      · exact ih h
    · rename_i hfree
      have hfree : p c = false := by simpa using hfree
      split at h
      · rw [List.mem_singleton.1 h]
        simpa using hfree
      · rename_i first rest heq
        rw [heq] at ih
        rcases List.mem_cons.1 h with rfl | h
        · exact List.forall_mem_cons.2 ⟨hfree, ih List.mem_cons_self⟩
        · exact ih (List.mem_cons_of_mem _ h)

theorem not_mem_of_mem_splitAt {d : Char} (h : t ∈ splitAt d s) : d ∉ t.toList := by
  obtain ⟨piece, hpiece, rfl⟩ := List.mem_map.1 h
  intro hd
  rw [String.toList_ofList] at hd
  simpa using free_of_mem_splitChars hpiece d hd

theorem dropReturn_subset (line : List Char) : dropReturn line ⊆ line := by
  unfold dropReturn
  split
  · exact List.dropLast_subset line
  · exact List.Subset.refl line

theorem exists_of_mem_linesOfPieces {pieces : List (List Char)} {line : List Char} (h : line ∈ linesOfPieces pieces) :
    ∃ piece ∈ pieces, line ⊆ piece := by
  fun_induction linesOfPieces pieces with
  | case1 => simp at h
  | case2 last => simp at h
  | case3 last => exact ⟨last, by simp, by simp_all⟩
  | case4 piece rest _ ih =>
    rw [List.mem_cons] at h
    rcases h with rfl | h
    · exact ⟨piece, by simp, dropReturn_subset piece⟩
    · obtain ⟨other, hother, hsubset⟩ := ih h
      exact ⟨other, by simp [hother], hsubset⟩

theorem toList_subset_of_mem_lines (h : t ∈ lines s) : t.toList ⊆ s.toList := by
  obtain ⟨line, hline, rfl⟩ := List.mem_map.1 h
  obtain ⟨piece, hpiece, hsubset⟩ := exists_of_mem_linesOfPieces hline
  rw [String.toList_ofList]
  exact List.Subset.trans hsubset (subset_of_mem_splitChars hpiece)

theorem trimEndChars_subset (cs : List Char) : trimEndChars cs ⊆ cs := by
  intro c hc
  rw [trimEndChars, List.mem_reverse] at hc
  simpa using (List.dropWhile_sublist _).subset hc

theorem trimChars_subset (cs : List Char) : trimChars cs ⊆ cs :=
  List.Subset.trans (trimEndChars_subset _) (List.dropWhile_sublist _).subset

theorem not_mem_intercalate {c : Char} {separator : String} {texts : List String} (hseparator : c ∉ separator.toList)
    (h : ∀ s ∈ texts, c ∉ s.toList) : c ∉ (separator.intercalate texts).toList := by
  have hmem (pieces : List (List Char)) (hpieces : ∀ cs ∈ pieces, c ∉ cs) :
      c ∉ separator.toList.intercalate pieces := by
    induction pieces with
    | nil => simp
    | cons cs rest ih =>
      rw [List.forall_mem_cons] at hpieces
      cases rest with
      | nil => simpa using hpieces.1
      | cons next rest =>
        rw [List.intercalate_cons_cons]
        simpa [not_or] using ⟨hpieces.1, hseparator, ih hpieces.2⟩
  rw [String.toList_intercalate]
  exact hmem _ (by simpa using h)

theorem toList_trim_subset (s : String) : (trim s).toList ⊆ s.toList := by
  rw [trim, String.toList_ofList]
  exact trimChars_subset _

end

/-! ## Both ends of a text -/

theorem dropStart?_eq_some_iff {front cs rest : List Char} : dropStart? front cs = some rest ↔ cs = front ++ rest := by
  induction front generalizing cs with
  | nil => simp [dropStart?]
  | cons c front ih =>
    cases cs with
    | nil => simp [dropStart?]
    | cons d cs =>
      by_cases hcd : c = d
      · subst hcd
        simp [dropStart?, ih]
      · simp [dropStart?, hcd, Ne.symm hcd]

theorem startsWith_iff {s t : String} : startsWith s t = true ↔ ∃ rest, s.toList = t.toList ++ rest := by
  simp only [startsWith, Option.isSome_iff_exists, dropStart?_eq_some_iff]

theorem endsWith_iff {s t : String} : endsWith s t = true ↔ ∃ front, s.toList = front ++ t.toList := by
  simp only [endsWith, Option.isSome_iff_exists, dropStart?_eq_some_iff, List.reverse_eq_append_iff,
    List.reverse_reverse]
  exact ⟨fun ⟨rest, h⟩ => ⟨_, h⟩, fun ⟨front, h⟩ => ⟨front.reverse, by rwa [List.reverse_reverse]⟩⟩

/-! ## Trimming -/

variable {cs w w' : List Char}

/-- There is nothing but blanks in the text. -/
def AllBlank (cs : List Char) : Prop := ∀ c ∈ cs, isBlank c = true

instance : DecidablePred AllBlank := fun _ => decidable_of_iff _ List.all_eq_true

/-- The text neither begins nor ends with a blank. -/
structure IsTrimmed (cs : List Char) : Prop where
  first : ∀ c ∈ cs.head?, isBlank c = false
  last : ∀ c ∈ cs.getLast?, isBlank c = false

theorem AllBlank.append (hw : AllBlank w) (hw' : AllBlank w') : AllBlank (w ++ w') :=
  List.forall_mem_append.2 ⟨hw, hw'⟩

theorem AllBlank.not_mem {c : Char} (hw : AllBlank w) (hc : isBlank c = false) : c ∉ w := fun hmem =>
  Bool.false_ne_true (hc.symm.trans (hw c hmem))

theorem IsTrimmed.trimStartChars_eq (h : IsTrimmed cs) : trimStartChars cs = cs := by
  cases cs with
  | nil => rfl
  | cons c cs => exact List.dropWhile_cons_of_neg (by simp [h.first c rfl])

theorem IsTrimmed.trimEndChars_eq (h : IsTrimmed cs) : trimEndChars cs = cs := by
  refine List.rdropWhile_eq_self_iff.2 fun hne => ?_
  simp [h.last _ (List.getLast?_eq_some_getLast hne)]

theorem trimStartChars_append (hw : AllBlank w) (cs : List Char) : trimStartChars (w ++ cs) = trimStartChars cs :=
  List.dropWhile_append_of_pos hw

theorem trimEndChars_append (cs : List Char) (hw : AllBlank w) : trimEndChars (cs ++ w) = trimEndChars cs := by
  rw [trimEndChars, List.reverse_append, List.dropWhile_append_of_pos fun c hc => hw c (List.mem_reverse.1 hc),
    trimEndChars]

/-- Blanks at the end of a text do not show, whatever they end. -/
theorem trimChars_append_blank (cs : List Char) (hw : AllBlank w) : trimChars (cs ++ w) = trimChars cs := by
  rw [trimChars, trimChars, trimStartChars, trimStartChars, List.dropWhile_append]
  split
  · rename_i hnil
    rw [List.isEmpty_iff.1 hnil, List.dropWhile_eq_nil_iff.2 hw]
  · exact trimEndChars_append _ hw

theorem trimChars_padded (hw : AllBlank w) (h : IsTrimmed cs) (hw' : AllBlank w') : trimChars (w ++ cs ++ w') = cs := by
  rw [trimChars_append_blank _ hw', trimChars, trimStartChars_append hw, h.trimStartChars_eq, h.trimEndChars_eq]

theorem exists_padding (cs : List Char) : ∃ w w', AllBlank w ∧ AllBlank w' ∧ cs = w ++ trimChars cs ++ w' := by
  let kept := trimStartChars cs
  refine ⟨cs.takeWhile isBlank, kept.rtakeWhile isBlank, fun c => List.mem_takeWhile_imp,
    fun c => List.mem_rtakeWhile_imp, ?_⟩
  have hend : trimEndChars kept ++ kept.rtakeWhile isBlank = kept := List.rdropWhile_append_rtakeWhile
  rw [List.append_assoc, trimChars, hend]
  exact List.takeWhile_append_dropWhile.symm

theorem trimChars_eq_nil_iff : trimChars cs = [] ↔ AllBlank cs := by
  constructor
  · intro h
    obtain ⟨w, w', hw, hw', hcs⟩ := exists_padding cs
    rw [hcs, h, List.append_nil]
    exact hw.append hw'
  · intro h
    rw [← List.nil_append cs, trimChars_append_blank _ h]
    rfl

/-- What trimming leaves begins where the first visible character is. -/
theorem head?_trimChars (cs : List Char) : (trimChars cs).head? = (trimStartChars cs).head? := by
  obtain ⟨rest, hrest⟩ : trimChars cs <+: trimStartChars cs := List.rdropWhile_prefix isBlank _
  cases htrim : trimChars cs with
  | nil =>
    have hnil : trimStartChars cs = [] := List.dropWhile_eq_nil_iff.2 (trimChars_eq_nil_iff.1 htrim)
    rw [hnil]
  | cons c t =>
    rw [← hrest, htrim]
    rfl

theorem isTrimmed_trimChars (cs : List Char) : IsTrimmed (trimChars cs) where
  first c hc := by
    have hkept := List.head?_dropWhile_not isBlank cs
    rw [head?_trimChars] at hc
    rw [show cs.dropWhile isBlank = trimStartChars cs from rfl, hc] at hkept
    exact hkept
  last c hc := by
    have hne : trimChars cs ≠ [] := by
      intro hnil
      rw [hnil] at hc
      cases hc
    rw [Option.mem_def, List.getLast?_eq_some_getLast hne, Option.some.injEq] at hc
    rw [← hc]
    exact Bool.eq_false_iff.2 (List.rdropWhile_last_not isBlank (trimStartChars cs) hne)

/-- The trimmed text is the one without blanks at its ends that the text is but for blanks. -/
theorem trimChars_eq_iff {t : List Char} :
    trimChars cs = t ↔ IsTrimmed t ∧ ∃ w w', AllBlank w ∧ AllBlank w' ∧ cs = w ++ t ++ w' := by
  constructor
  · rintro rfl
    exact ⟨isTrimmed_trimChars cs, exists_padding cs⟩
  · rintro ⟨ht, w, w', hw, hw', rfl⟩
    exact trimChars_padded hw ht hw'

/-- So what is trimmed is what trimming leaves alone, which can be computed. -/
theorem trimChars_eq_self_iff : trimChars cs = cs ↔ IsTrimmed cs := by
  rw [trimChars_eq_iff, and_iff_left]
  exact ⟨[], [], nofun, nofun, (List.append_nil _).symm⟩

instance : DecidablePred IsTrimmed := fun _ => decidable_of_iff _ trimChars_eq_self_iff

end PromptPack.Text
