import Mathlib.Data.String.Basic
import PromptPack.Outline.Hit
/-!
# Slices of a source

The slice between two byte offsets is what stands between a front part of the source and a back part,
where the offsets are the sizes of the texts up to there (`slice?_eq_some_iff`). Trimming the end of a
slice moves its end back over blanks, and to no other place (`slice?_textStop`).
-/

namespace PromptPack.Outline

open String (utf8Len)
open Text

variable {source text : List Char} {start stop : Nat}

/-! ## Between two offsets -/

theorem slice?_zero_utf8Len (text back : List Char) : slice? (text ++ back) 0 (utf8Len text) = some text := by
  induction text with
  | nil => cases back <;> rfl
  | cons c text ih =>
    have := c.utf8Size_pos
    have hstop : ¬ utf8Len (c :: text) = 0 := by rw [String.utf8Len_cons]; omega
    have hlt : ¬ utf8Len (c :: text) < c.utf8Size := by rw [String.utf8Len_cons]; omega
    simp only [List.cons_append, slice?, beq_self_eq_true, if_true, beq_iff_eq, hstop, hlt, if_false]
    rw [String.utf8Len_cons, Nat.add_sub_cancel, ih, Option.map_some]

theorem slice?_append (front : List Char) (h : start ≤ stop) :
    slice? (front ++ source) (utf8Len front + start) (utf8Len front + stop) = slice? source start stop := by
  induction front with
  | nil => simp
  | cons c front ih =>
    have := c.utf8Size_pos
    have hne : ¬ utf8Len (c :: front) + start = 0 := by rw [String.utf8Len_cons]; omega
    have hle : (decide (utf8Len (c :: front) + start < c.utf8Size) ||
        decide (utf8Len (c :: front) + stop < utf8Len (c :: front) + start)) = false := by
      rw [String.utf8Len_cons, Bool.or_eq_false_iff, decide_eq_false_iff_not, decide_eq_false_iff_not]
      omega
    simp only [List.cons_append, slice?, beq_iff_eq, hne, hle, if_false, Bool.false_eq_true]
    rw [← ih, String.utf8Len_cons]
    congr 1 <;> omega

/-- The slice between two offsets is the text that stands there. -/
theorem slice?_eq_some_iff : slice? source start stop = some text ↔
    ∃ front back, source = front ++ (text ++ back) ∧ utf8Len front = start ∧ utf8Len (front ++ text) = stop := by
  constructor
  · intro h
    fun_induction slice? source start stop generalizing text with
    | case1 start stop hzero =>
      obtain rfl := Option.some.inj h
      simp only [Bool.and_eq_true, beq_iff_eq] at hzero
      exact ⟨[], [], rfl, hzero.1.symm, hzero.2.symm⟩
    | case2 => cases h
    | case3 start stop c cs hstart hstop =>
      obtain rfl := Option.some.inj h
      exact ⟨[], c :: cs, rfl, (beq_iff_eq.1 hstart).symm, (beq_iff_eq.1 hstop).symm⟩
    | case4 => cases h
    | case5 start stop c cs hstart _ hfits ih =>
      obtain ⟨text', htext', rfl⟩ := Option.map_eq_some_iff.1 h
      obtain ⟨front, back, rfl, hfront, hstop⟩ := ih htext'
      obtain rfl : front = [] := String.utf8Len_eq_zero.1 hfront
      refine ⟨[], back, rfl, (beq_iff_eq.1 hstart).symm, ?_⟩
      simp only [List.nil_append, String.utf8Len_cons] at *
      omega
    | case6 => cases h
    | case7 start stop c cs _ hfits ih =>
      obtain ⟨front, back, rfl, hfront, hstop⟩ := ih h
      simp only [Bool.or_eq_true, decide_eq_true_eq, not_or] at hfits
      refine ⟨c :: front, back, rfl, ?_, ?_⟩
      · rw [String.utf8Len_cons]
        omega
      · rw [List.cons_append, String.utf8Len_cons]
        omega
  · rintro ⟨front, back, rfl, rfl, rfl⟩
    rw [String.utf8Len_append, ← Nat.add_zero (utf8Len front), Nat.add_assoc, Nat.zero_add,
      slice?_append front (Nat.zero_le _), slice?_zero_utf8Len]

/-- Of two front parts of one text the smaller is the front part of the other. -/
theorem exists_append_of_utf8Len_le {front front' rest rest' : List Char} (h : front ++ rest = front' ++ rest')
    (hle : utf8Len front ≤ utf8Len front') : ∃ more, front' = front ++ more ∧ rest = more ++ rest' := by
  rcases List.append_eq_append_iff.1 h with hfront | ⟨more, rfl, hrest⟩
  · exact hfront
  · rw [String.utf8Len_append] at hle
    obtain rfl : more = [] := String.utf8Len_eq_zero.1 (by omega)
    exact ⟨[], by simp, hrest.symm⟩

/-! ## Blanks at the end -/

theorem exists_trimEndChars_append (text : List Char) :
    ∃ blanks, trimEndChars text ++ blanks = text ∧ ∀ c ∈ blanks, isBlank c = true := by
  refine ⟨(text.reverse.takeWhile isBlank).reverse, ?_, fun c hc => ?_⟩
  · rw [trimEndChars, ← List.reverse_append, List.takeWhile_append_dropWhile, List.reverse_reverse]
  · exact (List.all_eq_true.1 List.all_takeWhile) c (List.mem_reverse.1 hc)

/-- Where the text that stands in a range ends, but for the blanks at its end. -/
def Region.textStop (source : List Char) (r : Region) : Nat :=
  r.start + utf8Len (trimEndChars ((slice? source r.start r.stop).getD []))

/-- From the end of its text on, a range holds nothing but blanks. -/
theorem slice?_textStop {r : Region} (h : slice? source r.start r.stop = some text) :
    slice? source r.start (r.textStop source) = some (trimEndChars text) ∧
      ∃ blanks, slice? source (r.textStop source) r.stop = some blanks ∧ ∀ c ∈ blanks, isBlank c = true := by
  obtain ⟨blanks, hblanks, hall⟩ := exists_trimEndChars_append text
  have hstop : r.textStop source = r.start + utf8Len (trimEndChars text) := by
    rw [Region.textStop, h, Option.getD_some]
  obtain ⟨front, back, heq, hfront, hback⟩ := slice?_eq_some_iff.1 h
  rw [← hblanks] at heq hback
  refine ⟨slice?_eq_some_iff.2 ⟨front, blanks ++ back, ?_, hfront, ?_⟩, blanks,
    slice?_eq_some_iff.2 ⟨front ++ trimEndChars text, back, ?_, ?_, ?_⟩, hall⟩
  · rw [heq, List.append_assoc]
  · rw [String.utf8Len_append, hstop, hfront]
  · rw [heq, List.append_assoc, List.append_assoc]
  · rw [String.utf8Len_append, hstop, hfront]
  · rw [List.append_assoc, hback]

/-- A character that is not blank stands at the offset. -/
def VisibleAt (source : List Char) (n : Nat) : Prop :=
  ∃ c, slice? source n (n + c.utf8Size) = some [c] ∧ isBlank c = false

/-- Nothing visible begins in a range of blanks. -/
theorem not_visibleAt_of_blanks {blanks : List Char} {n : Nat} (h : slice? source start stop = some blanks)
    (hall : ∀ c ∈ blanks, isBlank c = true) (hstart : start ≤ n) (hstop : n < stop) : ¬ VisibleAt source n := by
  rintro ⟨c, hc, hvisible⟩
  obtain ⟨front, back, heq, rfl, rfl⟩ := slice?_eq_some_iff.1 h
  obtain ⟨front', back', heq', rfl, -⟩ := slice?_eq_some_iff.1 hc
  rw [heq] at heq'
  obtain ⟨before, rfl, hbefore⟩ := exists_append_of_utf8Len_le heq' hstart
  rw [String.utf8Len_append, String.utf8Len_append, Nat.add_lt_add_iff_left] at hstop
  obtain ⟨after, rfl, hafter⟩ := exists_append_of_utf8Len_le hbefore.symm (Nat.le_of_lt hstop)
  -- The blanks go on behind the text in front of `c`, so `c` is one of them.
  cases after with
  | nil => simp at hstop
  | cons d after =>
    obtain rfl := (List.cons.inj hafter).1
    rw [hall c (by simp)] at hvisible
    cases hvisible

end PromptPack.Outline
