import Mathlib
import PromptPack.Console
import PromptPack.Path
import PromptPack.Text.Grouped
import PromptPack.Proofs.Text.Fence
/-!
# Texts without escapes

Every escape sequence begins with the same character. A text without it stays so when it is cut, numbered, fenced or
put together with others like it; a styled text never is without it.
-/

namespace PromptPack

open Text

/-- The character that begins an escape sequence. -/
def escapeMark : Char := '\x1b'

/-- No escape sequence begins in the text. -/
def EscapeFree (s : String) : Prop := escapeMark ∉ s.toList

instance : DecidablePred EscapeFree := fun s => inferInstanceAs (Decidable (escapeMark ∉ s.toList))

variable {s t : String} {cs : List Char}

/-! ## Putting together -/

@[simp]
theorem escapeFree_append : EscapeFree (s ++ t) ↔ EscapeFree s ∧ EscapeFree t := by
  simp [EscapeFree, String.toList_append, not_or]

@[simp]
theorem escapeFree_ofList : EscapeFree (String.ofList cs) ↔ escapeMark ∉ cs := by
  simp [EscapeFree]

/-- A text that is given by its characters. -/
theorem escapeFree_literal (h : cs.all (· != escapeMark) = true) : EscapeFree (String.ofList cs) := by
  rw [escapeFree_ofList]
  intro hmem
  have := List.all_eq_true.1 h escapeMark hmem
  simp at this

@[simp]
theorem escapeFree_empty : EscapeFree "" := by simp [EscapeFree]

theorem escapeFree_newline : EscapeFree "\n" := escapeFree_literal rfl

theorem escapeFree_space : EscapeFree " " := escapeFree_literal rfl

theorem escapeFree_slash : EscapeFree "/" := escapeFree_literal rfl

theorem EscapeFree.append (hs : EscapeFree s) (ht : EscapeFree t) : EscapeFree (s ++ t) := escapeFree_append.2 ⟨hs, ht⟩

/-- A text whose characters are all in a text without escapes. -/
theorem EscapeFree.of_subset (hs : EscapeFree s) (h : t.toList ⊆ s.toList) : EscapeFree t := fun ht => hs (h ht)

theorem escapeFree_join {texts : List String} (h : ∀ s ∈ texts, EscapeFree s) : EscapeFree (String.join texts) := by
  induction texts with
  | nil => simp
  | cons s texts ih =>
    rw [List.forall_mem_cons] at h
    simp [h.1, ih h.2]

theorem escapeFree_intercalate {separator : String} {texts : List String} (hseparator : EscapeFree separator)
    (h : ∀ s ∈ texts, EscapeFree s) : EscapeFree (separator.intercalate texts) := not_mem_intercalate hseparator h

/-! ## Numbers -/

theorem escapeMark_not_mem_toDigits (n : Nat) : escapeMark ∉ Nat.toDigits 10 n := by
  intro h
  have := Nat.isDigit_of_mem_toDigits (by decide) (by decide) h
  revert this
  decide

theorem escapeFree_toString (n : Nat) : EscapeFree (toString n) := by
  simp [toString, Nat.repr, escapeMark_not_mem_toDigits]

theorem escapeFree_toString_int (n : Int) : EscapeFree (toString n) := by
  have hminus : EscapeFree "-" := escapeFree_literal rfl
  cases n with
  | ofNat n => exact escapeFree_toString n
  | negSucc n => exact hminus.append (escapeFree_toString (n + 1))

theorem escapeMark_not_mem_groupDigits (h : escapeMark ∉ cs) : escapeMark ∉ groupDigits cs := by
  fun_induction groupDigits cs with
  | case1 => exact h
  | case2 => exact h
  | case3 => simp_all [escapeMark]
  | case4 => simp_all

theorem escapeFree_grouped (n : Nat) : EscapeFree (grouped n) :=
  escapeFree_ofList.2 (escapeMark_not_mem_groupDigits (escapeMark_not_mem_toDigits n))

/-! ## Cutting -/

theorem escapeFree_of_mem_splitAt {c : Char} (hs : EscapeFree s) (h : t ∈ splitAt c s) : EscapeFree t := by
  obtain ⟨piece, hpiece, rfl⟩ := List.mem_map.1 h
  exact escapeFree_ofList.2 fun hmark => hs (subset_of_mem_splitChars hpiece hmark)

theorem escapeFree_of_mem_lines (hs : EscapeFree s) (h : t ∈ lines s) : EscapeFree t :=
  hs.of_subset (toList_subset_of_mem_lines h)

/-! ## Numbered lines and fences -/

theorem escapeMark_not_mem_numberedLine (n : Nat) (h : escapeMark ∉ cs) : escapeMark ∉ numberedLine n cs := by
  have hdigits := escapeMark_not_mem_toDigits n
  simp_all [numberedLine, padStart, escapeMark]

theorem escapeMark_not_mem_joinNumbered {pieces : List (List Char)} (n : Nat) (h : ∀ cs ∈ pieces, escapeMark ∉ cs) :
    escapeMark ∉ joinNumbered n pieces := by
  fun_induction joinNumbered n pieces with
  | case1 => simp
  | case2 n line => exact escapeMark_not_mem_numberedLine n (h line (by simp))
  | case3 n line rest _ ih =>
    rw [List.forall_mem_cons] at h
    have hline := escapeMark_not_mem_numberedLine n h.1
    simp_all [escapeMark]

theorem escapeFree_numberLines (hs : EscapeFree s) : EscapeFree (numberLines s) :=
  escapeFree_ofList.2 <| escapeMark_not_mem_joinNumbered 1 fun _ hpiece hmark =>
    hs (subset_of_mem_splitChars hpiece hmark)

theorem escapeFree_fence (hs : EscapeFree s) (ht : EscapeFree t) : EscapeFree (fence s t) := by
  have hlabel : EscapeFree (String.ofList (fenceLabel t)) :=
    escapeFree_ofList.2 fun hmark => ht (fenceLabel_subset t hmark)
  have hmark : EscapeFree fenceMark := escapeFree_literal rfl
  simp only [fence, escapeFree_append]
  exact ⟨⟨⟨⟨⟨hmark, hlabel⟩, escapeFree_newline⟩, hs⟩, escapeFree_newline⟩, hmark⟩

/-! ## Paths -/

namespace Path

variable {p q : Path} {name : String}

theorem escapeFree_join (hp : EscapeFree p.text) (hq : EscapeFree q.text) : EscapeFree (p.join q).text := by
  unfold join
  split
  · exact hq
  · split
    · exact hp.append hq
    · exact (hp.append escapeFree_slash).append hq

theorem escapeFree_component (hp : EscapeFree p.text) {c : Component} (h : c ∈ p.components) : EscapeFree c.text := by
  have hnamed (c : Component) (hc : c ∈ p.pieces.filterMap Component.ofPiece?) : EscapeFree c.text := by
    obtain ⟨piece, hpiece, hc⟩ := List.mem_filterMap.1 hc
    unfold Component.ofPiece? at hc
    split at hc
    · cases hc
    · split at hc
      · cases hc
        exact escapeFree_literal rfl
      · cases hc
        exact escapeFree_of_mem_splitAt hp hpiece
  unfold components at h
  dsimp only at h
  -- In front there may be a root or a dot; the others are pieces between slashes.
  split at h
  · rw [List.mem_cons] at h
    rcases h with rfl | h
    · exact escapeFree_literal rfl
    · exact hnamed c h
  · split at h
    · rw [List.mem_cons] at h
      rcases h with rfl | h
      · exact escapeFree_literal rfl
      · exact hnamed c h
    · exact hnamed c h

theorem escapeFree_fileName (hp : EscapeFree p.text) (h : p.fileName? = some name) : EscapeFree name := by
  unfold fileName? at h
  split at h
  · rename_i s hlast
    cases h
    exact escapeFree_component hp (List.mem_of_getLast? hlast)
  · cases h

theorem escapeFree_extension {ext : String} (hp : EscapeFree p.text) (h : p.extension? = some ext) : EscapeFree ext := by
  obtain ⟨name, hname, hext⟩ := Option.bind_eq_some_iff.1 h
  have hfree := escapeFree_fileName hp hname
  unfold extensionOf? at hext
  dsimp only at hext
  split at hext
  · cases hext
  · cases hext
  · cases hext
    refine escapeFree_ofList.2 fun hmark => hfree ?_
    rw [List.mem_reverse] at hmark
    simpa using (List.takeWhile_sublist _).subset hmark

theorem escapeFree_dottedExtension (hp : EscapeFree p.text) : EscapeFree p.dottedExtension := by
  have hdot : EscapeFree "." := escapeFree_literal rfl
  unfold dottedExtension
  split
  · rename_i ext hext
    exact hdot.append (escapeFree_extension hp hext)
  · exact escapeFree_empty

theorem mem_of_mem_dropIdle {pieces : List String} {piece : String} (h : piece ∈ dropIdle pieces) : piece ∈ pieces := by
  fun_induction dropIdle pieces with
  | case1 => exact h
  | case2 => exact h
  | case3 p rest _ _ ih => exact List.mem_cons_of_mem _ (ih h)
  | case4 => exact h

theorem escapeFree_parent (hp : EscapeFree p.text) (h : p.parent? = some q) : EscapeFree q.text := by
  have hpieces (piece : String) (hpiece : piece ∈ dropIdle (dropIdle p.pieces.reverse).tail) : EscapeFree piece := by
    have hmem := mem_of_mem_dropIdle (List.mem_of_mem_tail (mem_of_mem_dropIdle hpiece))
    exact escapeFree_of_mem_splitAt hp (List.mem_reverse.1 hmem)
  unfold parent? at h
  split at h
  · cases h
  · cases h
  · dsimp only at h
    split at h
    · cases h
      exact escapeFree_empty
    · cases h
      exact escapeFree_slash
    · cases h
      exact escapeFree_intercalate escapeFree_slash fun piece hpiece => hpieces piece (List.mem_reverse.1 hpiece)

end Path

/-! ## Styles -/

namespace Console

theorem not_escapeFree_apply (style : Style) (text : String) : ¬ EscapeFree (style.apply text) := by
  intro h
  have hescape : ¬ EscapeFree (escape style.on) := by cases style <;> decide +kernel
  simp only [Style.apply, escapeFree_append] at h
  exact hescape h.1.1

/-- A status line without colours says its message without escapes. -/
theorem escapeFree_statusLine_iff (status : Status) : EscapeFree (statusLine status s true) ↔ EscapeFree s := by
  have hsymbol : EscapeFree ("[" ++ status.symbol ++ "] ") := by cases status <;> decide +kernel
  rw [statusLine, if_pos rfl, escapeFree_append]
  exact and_iff_right hsymbol

end Console

end PromptPack
