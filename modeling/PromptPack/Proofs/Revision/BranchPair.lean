import PromptPack.Proofs.Text.Pieces
import PromptPack.Revision.BranchPair
/-!
# Reading pairs of branches

A text names a pair exactly when it is one name, a comma and one more name, with blanks around the names
(`BranchPair.parse?_eq_some_iff`). What names no pair has no comma, more than one, or nothing but blanks on a side.
-/

namespace PromptPack

open Text

/-! ## Splitting in two -/

namespace Text

variable {d : Char} {cs left right : List Char}

/-- There is one piece more than there are separators. -/
theorem length_splitChars (p : Char → Bool) (cs : List Char) : (splitChars p cs).length = cs.countP p + 1 := by
  induction cs with
  | nil => rfl
  | cons c cs ih =>
    unfold splitChars
    split
    · rename_i hc
      rw [List.length_cons, ih, List.countP_cons_of_pos hc]
    · rename_i hc
      rw [List.countP_cons_of_neg hc, ← ih]
      cases hpieces : splitChars p cs with
      | nil => exact absurd hpieces (splitChars_ne_nil p cs)
      | cons piece rest => rfl

theorem splitChars_eq_pair_iff :
    splitChars (· == d) cs = [left, right] ↔ cs = left ++ d :: right ∧ d ∉ left ∧ d ∉ right := by
  have hfree {piece : List Char} (h : d ∉ piece) : ∀ c ∈ piece, (c == d) = false := by
    intro c hc
    rw [beq_eq_false_iff_ne]
    rintro rfl
    exact h hc
  constructor
  · intro h
    have hmem {piece : List Char} (hpiece : piece ∈ [left, right]) : d ∉ piece := fun hd =>
      absurd (free_of_mem_splitChars (h ▸ hpiece) d hd) (by simp)
    refine ⟨?_, hmem (by simp), hmem (by simp)⟩
    rw [← intercalate_splitChars d cs, h, List.intercalate_cons_cons, List.intercalate_singleton, List.append_assoc,
      List.singleton_append]
  · rintro ⟨rfl, hleft, hright⟩
    rw [splitChars_append (p := (· == d)) left right (beq_self_eq_true d), splitChars_of_not_mem (hfree hleft),
      splitChars_of_not_mem (hfree hright)]
    rfl

/-- A text with one separator is what stands on either side of it. -/
theorem exists_splitChars_eq_pair (h : cs.count d = 1) : ∃ left right, splitChars (· == d) cs = [left, right] := by
  have hlength := length_splitChars (· == d) cs
  rw [← List.count_eq_countP, h] at hlength
  exact List.length_eq_two.1 hlength

end Text

/-! ## Names of branches -/

/-- A name that a text can give in a pair. -/
structure IsBranchName (name : String) : Prop where
  nonempty : name ≠ ""
  noComma : ',' ∉ name.toList
  trimmed : IsTrimmed name.toList

/-- What is left of a side without commas is a name, unless the side is blank. -/
theorem isBranchName_trimChars {cs : List Char} (hcomma : ',' ∉ cs) (h : ¬ AllBlank cs) :
    IsBranchName (String.ofList (trimChars cs)) where
  nonempty heq := h (trimChars_eq_nil_iff.1 (String.ofList_eq_empty_iff.1 heq))
  noComma := by
    rw [String.toList_ofList]
    exact fun hmem => hcomma (trimChars_subset cs hmem)
  trimmed := by
    rw [String.toList_ofList]
    exact isTrimmed_trimChars cs

/-! ## Texts of pairs -/

namespace BranchPair

variable {spec : String} {pair : BranchPair} {left right : List Char}

/-- The text is the pair written down: its names on either side of a comma, with blanks around them. -/
structure WrittenAs (pair : BranchPair) (spec : String) : Prop where
  base : IsBranchName pair.base
  tip : IsBranchName pair.tip
  padded : ∃ w₁ w₂ w₃ w₄, AllBlank w₁ ∧ AllBlank w₂ ∧ AllBlank w₃ ∧ AllBlank w₄ ∧
    spec.toList = (w₁ ++ pair.base.toList ++ w₂) ++ ',' :: (w₃ ++ pair.tip.toList ++ w₄)

/-- Of two sides without commas neither may be blank, and what is left of them are the names. -/
theorem parse?_of_sides (h : splitChars (· == ',') spec.toList = [left, right]) :
    parse? spec = if AllBlank left ∨ AllBlank right then none
      else some ⟨String.ofList (trimChars left), String.ofList (trimChars right)⟩ := by
  have hblank (cs : List Char) : (trim (String.ofList cs)).isEmpty = true ↔ AllBlank cs := by
    rw [String.isEmpty_iff, trim, String.toList_ofList, String.ofList_eq_empty_iff, trimChars_eq_nil_iff]
  simp only [parse?, splitAt, h, List.map_cons, List.map_nil, Bool.or_eq_true, hblank]
  simp only [trim, String.toList_ofList]

/-- A text is cut in two when it has one comma; in more or fewer pieces it names no pair. -/
theorem parse?_of_count (h : spec.toList.count ',' ≠ 1) : parse? spec = none := by
  unfold parse?
  split
  · rename_i base tip hpieces
    have hlength := congrArg List.length hpieces
    rw [List.length_map, splitAt, List.length_map, length_splitChars, ← List.count_eq_countP] at hlength
    simp only [List.length_cons, List.length_nil] at hlength
    exact absurd (by omega) h
  · rfl

theorem parse?_eq_some_iff : parse? spec = some pair ↔ pair.WrittenAs spec := by
  constructor
  · intro h
    have hcount : spec.toList.count ',' = 1 := by
      by_contra hcount
      rw [parse?_of_count hcount] at h
      cases h
    obtain ⟨left, right, hsides⟩ := exists_splitChars_eq_pair hcount
    obtain ⟨hspec, hleft, hright⟩ := splitChars_eq_pair_iff.1 hsides
    rw [parse?_of_sides hsides] at h
    split at h
    · cases h
    · rename_i hblank
      rw [not_or] at hblank
      cases h
      -- What trimming takes off is the padding of the sides.
      obtain ⟨w₁, w₂, hw₁, hw₂, hbase⟩ := exists_padding left
      obtain ⟨w₃, w₄, hw₃, hw₄, htip⟩ := exists_padding right
      refine ⟨isBranchName_trimChars hleft hblank.1, isBranchName_trimChars hright hblank.2,
        w₁, w₂, w₃, w₄, hw₁, hw₂, hw₃, hw₄, ?_⟩
      rw [String.toList_ofList, String.toList_ofList, ← hbase, ← htip, hspec]
  · rintro ⟨hbase, htip, w₁, w₂, w₃, w₄, hw₁, hw₂, hw₃, hw₄, hspec⟩
    have hside {name : String} {w w' : List Char} (hname : IsBranchName name) (hw : AllBlank w) (hw' : AllBlank w') :
        ',' ∉ w ++ name.toList ++ w' ∧ trimChars (w ++ name.toList ++ w') = name.toList ∧
          ¬ AllBlank (w ++ name.toList ++ w') := by
      have htrim := trimChars_padded hw hname.trimmed hw'
      have hcomma : isBlank ',' = false := by decide +kernel
      refine ⟨by simp [hw.not_mem hcomma, hname.noComma, hw'.not_mem hcomma], htrim, fun hblank => hname.nonempty ?_⟩
      rw [← trimChars_eq_nil_iff, htrim] at hblank
      exact String.toList_eq_nil_iff.1 hblank
    obtain ⟨hleft, hbase', hleftBlank⟩ := hside hbase hw₁ hw₂
    obtain ⟨hright, htip', hrightBlank⟩ := hside htip hw₃ hw₄
    rw [parse?_of_sides (splitChars_eq_pair_iff.2 ⟨hspec, hleft, hright⟩),
      if_neg (not_or.2 ⟨hleftBlank, hrightBlank⟩), hbase', htip', String.ofList_toList, String.ofList_toList]

theorem parse?_eq_none_iff : parse? spec = none ↔ spec.toList.count ',' ≠ 1 ∨
    ∃ left right, spec.toList = left ++ ',' :: right ∧ (AllBlank left ∨ AllBlank right) := by
  by_cases hcount : spec.toList.count ',' = 1
  · obtain ⟨left, right, hsides⟩ := exists_splitChars_eq_pair hcount
    obtain ⟨hspec, hleft, hright⟩ := splitChars_eq_pair_iff.1 hsides
    rw [parse?_of_sides hsides]
    constructor
    · intro h
      by_contra hblank
      rw [if_neg fun hor => hblank (.inr ⟨left, right, hspec, hor⟩)] at h
      cases h
    · rintro (h | ⟨left', right', hspec', hor⟩)
      · exact absurd hcount h
      · -- With one comma there is one way to cut the text.
        have hfree : ',' ∉ left' ∧ ',' ∉ right' := by
          rw [hspec', List.count_append, List.count_cons_self] at hcount
          exact ⟨List.count_eq_zero.1 (by omega), List.count_eq_zero.1 (by omega)⟩
        have hsame := hsides.symm.trans (splitChars_eq_pair_iff.2 ⟨hspec', hfree⟩)
        cases hsame
        exact if_pos hor
  · exact ⟨fun _ => .inl hcount, fun _ => parse?_of_count hcount⟩

theorem writtenAs_joined (hbase : IsBranchName pair.base) (htip : IsBranchName pair.tip) :
    pair.WrittenAs (pair.base ++ "," ++ pair.tip) where
  base := hbase
  tip := htip
  padded := ⟨[], [], [], [], by simp [AllBlank], by simp [AllBlank], by simp [AllBlank], by simp [AllBlank], by simp⟩

/-- A text names a pair exactly when the pair is written down in it, so it names no two pairs, and each pair of names is
read back from the names with a comma between them. The texts that name none have no comma or more than one, or are
blank on a side of it. -/
theorem pairs_parsed_exactly :
    (∀ spec pair, parse? spec = some pair ↔ pair.WrittenAs spec) ∧
      (∀ pair, IsBranchName pair.base → IsBranchName pair.tip → parse? (pair.base ++ "," ++ pair.tip) = some pair) ∧
      (∀ (pair pair' : BranchPair) spec, pair.WrittenAs spec → pair'.WrittenAs spec → pair = pair') ∧
      ∀ spec, parse? spec = none ↔ spec.toList.count ',' ≠ 1 ∨
        ∃ left right, spec.toList = left ++ ',' :: right ∧ (AllBlank left ∨ AllBlank right) := by
  refine ⟨fun spec pair => parse?_eq_some_iff, fun pair hbase htip => ?_, fun pair pair' spec h h' => ?_,
    fun spec => parse?_eq_none_iff⟩
  · exact parse?_eq_some_iff.2 (writtenAs_joined hbase htip)
  · exact Option.some.inj ((parse?_eq_some_iff.2 h).symm.trans (parse?_eq_some_iff.2 h'))

/-- Blanks within a name stay, and blanks around it go, whichever they are. -/
theorem pair_of_spaced_names_parsed :
    let pair : BranchPair := ⟨"a b", "日"⟩
    IsBranchName pair.base ∧ IsBranchName pair.tip ∧ pair.WrittenAs "\u00a0a b ,\t日\n" ∧
      parse? "\u00a0a b ,\t日\n" = some pair ∧ parse? (pair.base ++ "," ++ pair.tip) = some pair ∧
      parse? "a,b," = none := by
  have hbase : IsBranchName "a b" := by
    constructor <;> decide +kernel
  have htip : IsBranchName "日" := by
    constructor <;> decide +kernel
  obtain ⟨hparse, hjoined, -, hnone⟩ := pairs_parsed_exactly
  have hwritten : BranchPair.WrittenAs ⟨"a b", "日"⟩ "\u00a0a b ,\t日\n" := by
    refine ⟨hbase, htip, ['\u00a0'], [' '], ['\t'], ['\n'], ?_, ?_, ?_, ?_, ?_⟩ <;> decide +kernel
  have hmany : "a,b,".toList.count ',' ≠ 1 := by decide +kernel
  exact ⟨hbase, htip, hwritten, (hparse _ _).2 hwritten, hjoined _ hbase htip, (hnone _).2 (.inl hmany)⟩

end BranchPair

end PromptPack
