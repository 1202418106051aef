import PromptPack.Outline.Search
import PromptPack.Proofs.Outline.Assembly
/-!
# Which extracts make up an outline

Extracts come up by their starts, the longer first, and one is dropped when it ends no later than
one before it. So an extract is kept when it ends behind all that come up before it
(`mem_outermost_iff`). Told by spans alone: no other extract covers its span, and of those with the
same span it was found first (`mem_outline_iff`). An extract that is not kept leaves no trace: the
outline is the same without it (`outline_without`).
-/

namespace PromptPack.Outline

/-! ## The order of extracts -/

theorem Extract.le_iff (a b : Extract) :
    a.le b = true ↔ a.start < b.start ∨ (a.start = b.start ∧ b.stop ≤ a.stop) := by
  unfold Extract.le
  by_cases hstart : a.start = b.start <;> simp [hstart]

theorem Extract.le_trans (a b c : Extract) (hab : a.le b = true) (hbc : b.le c = true) : a.le c = true := by
  rw [Extract.le_iff] at *
  omega

theorem Extract.le_total (a b : Extract) : (a.le b || b.le a) = true := by
  rw [Bool.or_eq_true, Extract.le_iff, Extract.le_iff]
  omega

theorem sorted_extracts (found : List Extract) : (found.mergeSort Extract.le).Pairwise (fun a b => a.le b = true) :=
  List.pairwise_mergeSort Extract.le_trans Extract.le_total found

/-- Sorting keeps the order of extracts that it does not tell apart. -/
theorem filter_mergeSort {p : Extract → Bool} (hp : ∀ a b, p a = true → p b = true → a.le b = true)
    (found : List Extract) : (found.mergeSort Extract.le).filter p = found.filter p :=
  filter_mergeSort_of_tied Extract.le_trans Extract.le_total hp found

/-! ## Kept extracts -/

/-- An extract is kept when it ends behind every extract before it. -/
theorem mem_outermost_iff {x : Extract} {covered : Nat} {es : List Extract} :
    x ∈ outermost covered es ↔
      ∃ before after, es = before ++ x :: after ∧ covered < x.stop ∧ ∀ y ∈ before, y.stop < x.stop := by
  induction es generalizing covered with
  | nil => simp [outermost]
  | cons e es ih =>
    unfold outermost
    constructor
    · intro h
      split at h
      · rename_i hle
        -- `e` is dropped: it ends within what is covered, and `x` ends behind that.
        obtain ⟨before, after, rfl, hlt, hbefore⟩ := ih.1 h
        refine ⟨e :: before, after, rfl, hlt, fun y hy => ?_⟩
        rcases List.mem_cons.1 hy with rfl | hy
        · exact Nat.lt_of_le_of_lt hle hlt
        · exact hbefore y hy
      · rename_i hlt
        rcases List.mem_cons.1 h with rfl | h
        · exact ⟨[], es, rfl, Nat.lt_of_not_le hlt, by simp⟩
        · obtain ⟨before, after, rfl, hlt, hbefore⟩ := ih.1 h
          refine ⟨e :: before, after, rfl, by omega, fun y hy => ?_⟩
          rcases List.mem_cons.1 hy with rfl | hy
          · omega
          · exact hbefore y hy
    · rintro ⟨before, after, heq, hlt, hbefore⟩
      rcases List.cons_eq_append_iff.1 heq with ⟨rfl, hx⟩ | ⟨before', rfl, rfl⟩
      · cases hx
        rw [if_neg (by omega)]
        exact List.mem_cons_self
      · have he := hbefore e (by simp)
        have hin (n : Nat) (hn : n < x.stop) : x ∈ outermost n (before' ++ x :: after) :=
          ih.2 ⟨before', after, rfl, hn, fun y hy => hbefore y (by simp [hy])⟩
        split
        · exact hin _ hlt
        · exact List.mem_cons_of_mem _ (hin _ (by omega))

/-- The outline of a list of extracts. -/
def outlineOf (found : List Extract) : List Extract := outermost 0 (found.mergeSort Extract.le)

theorem extracts_eq (rules : List Rule) (source : List Char) : extracts rules source = outlineOf (found rules source) :=
  rfl

/-- `x` lies within `y`. -/
def Extract.Within (x y : Extract) : Prop := y.start ≤ x.start ∧ x.stop ≤ y.stop

def Extract.sameSpan (x y : Extract) : Bool := x.start == y.start && x.stop == y.stop

theorem Extract.sameSpan_iff {x y : Extract} : x.sameSpan y = true ↔ x.start = y.start ∧ x.stop = y.stop := by
  simp [Extract.sameSpan]

/-- No other span found covers that of `x`, and of the extracts with its span `x` was found first. -/
structure Outermost (found : List Extract) (x : Extract) : Prop where
  alone : ∀ y ∈ found, x.Within y → x.sameSpan y = true
  first : found.find? x.sameSpan = some x

theorem find?_mergeSort (x : Extract) (found : List Extract) :
    (found.mergeSort Extract.le).find? x.sameSpan = found.find? x.sameSpan := by
  rw [← List.head?_filter, ← List.head?_filter, filter_mergeSort]
  intro a b ha hb
  rw [Extract.sameSpan_iff] at ha hb
  rw [Extract.le_iff]
  omega

/-- The outline is made of the outermost extracts. -/
theorem mem_outline_iff {found : List Extract} (hstop : ∀ y ∈ found, 0 < y.stop) {x : Extract} :
    x ∈ outlineOf found ↔ Outermost found x := by
  have hsorted := sorted_extracts found
  unfold outlineOf
  rw [mem_outermost_iff]
  constructor
  · rintro ⟨before, after, heq, -, hbefore⟩
    rw [heq, List.pairwise_append, List.pairwise_cons] at hsorted
    refine ⟨fun y hy hxy => ?_, ?_⟩
    · have hy' : y ∈ before ++ x :: after := heq ▸ List.mem_mergeSort.2 hy
      rw [Extract.sameSpan_iff]
      unfold Extract.Within at hxy
      rcases List.mem_append.1 hy' with hy' | hy'
      · have := hbefore y hy'
        omega
      · rcases List.mem_cons.1 hy' with rfl | hy'
        · exact ⟨rfl, rfl⟩
        · have := (Extract.le_iff _ _).1 (hsorted.2.1.1 y hy')
          omega
    · rw [← find?_mergeSort, heq, List.find?_append, List.find?_eq_none.2]
      · simp [Extract.sameSpan]
      · intro y hy
        have := hbefore y hy
        rw [Extract.sameSpan_iff]
        omega
  · rintro ⟨halone, hfirst⟩
    -- Whatever comes up before `x` starts no later, so if it ended behind `x` too it would have the
    -- span of `x`, and `x` would not be the first of them.
    rw [← find?_mergeSort, List.find?_eq_some_iff_append] at hfirst
    obtain ⟨-, before, after, heq, hbefore⟩ := hfirst
    rw [heq, List.pairwise_append] at hsorted
    have hmem : ∀ y ∈ before ++ x :: after, y ∈ found := fun y hy => List.mem_mergeSort.1 (heq ▸ hy)
    refine ⟨before, after, heq, hstop x (hmem x (by simp)), fun y hy => ?_⟩
    have hle := (Extract.le_iff _ _).1 (hsorted.2.2 y hy x (by simp))
    rcases Nat.lt_or_ge y.stop x.stop with hlt | hge
    · exact hlt
    · have hsame := halone y (hmem y (by simp [hy])) ⟨by omega, hge⟩
      exact absurd hsame (by simpa using hbefore y hy)

/-! ## Extracts that leave no trace -/

theorem outermost_stops (covered : Nat) (es : List Extract) :
    (outermost covered es).Pairwise (fun a b => a.stop < b.stop) := by
  induction es generalizing covered with
  | nil => exact .nil
  | cons e es ih =>
    unfold outermost
    split
    · exact ih covered
    · refine List.pairwise_cons.2 ⟨fun x hx => ?_, ih _⟩
      obtain ⟨_, _, -, hlt, -⟩ := mem_outermost_iff.1 hx
      omega

/-- An outline is known by its members: they come in the order of their ends. -/
theorem outline_ext {found found' : List Extract} (h : ∀ x, x ∈ outlineOf found ↔ x ∈ outlineOf found') :
    outlineOf found = outlineOf found' := by
  have hstops := outermost_stops 0 (found.mergeSort Extract.le)
  have hstops' := outermost_stops 0 (found'.mergeSort Extract.le)
  have hirrefl : ∀ a b : Extract, a.stop < b.stop → a ≠ b := by
    rintro a b hlt rfl
    exact Nat.lt_irrefl _ hlt
  have hperm := (List.perm_ext_iff_of_nodup (hstops.imp (hirrefl _ _)) (hstops'.imp (hirrefl _ _))).2 h
  exact hperm.eq_of_pairwise (fun a b _ _ hab hba => absurd hab (Nat.lt_asymm hba)) hstops hstops'

theorem Extract.Within.trans {x y z : Extract} (h : x.Within y) (h' : y.Within z) : x.Within z :=
  ⟨Nat.le_trans h'.1 h.1, Nat.le_trans h.2 h'.2⟩

theorem Extract.within_of_sameSpan {x y : Extract} (h : x.sameSpan y = true) : x.Within y := by
  rw [Extract.sameSpan_iff] at h
  exact ⟨Nat.le_of_eq h.1.symm, Nat.le_of_eq h.2⟩

/-- Between two extracts with the same span there is only room for that span. -/
theorem Extract.sameSpan_of_between {x y z : Extract} (hzx : z.Within x) (hxy : x.Within y)
    (h : z.sameSpan y = true) : z.sameSpan x = true ∧ x.sameSpan y = true := by
  simp only [Extract.sameSpan_iff, Extract.Within] at *
  omega

/-- What stands in the way of an extract that is not outermost: one with a larger span, or one with
the same span that was found before it. -/
theorem exists_of_not_outermost {before after : List Extract} {x : Extract}
    (hx : ¬ Outermost (before ++ x :: after) x) :
    (∃ y ∈ before ++ after, x.Within y ∧ x.sameSpan y = false) ∨ ∃ y ∈ before, x.sameSpan y = true := by
  by_cases hlarger : ∃ y ∈ before ++ after, x.Within y ∧ x.sameSpan y = false
  · exact .inl hlarger
  · by_cases hsame : ∃ y ∈ before, x.sameSpan y = true
    · exact .inr hsame
    · -- With neither of them it would be outermost.
      simp only [not_exists, not_and, Bool.not_eq_false, Bool.not_eq_true] at hlarger hsame
      refine absurd ⟨fun y hy hxy => ?_, ?_⟩ hx
      · rcases List.mem_append.1 hy with hy | hy
        · exact hlarger y (by simp [hy]) hxy
        · rcases List.mem_cons.1 hy with rfl | hy
          · simp [Extract.sameSpan]
          · exact hlarger y (by simp [hy]) hxy
      · rw [List.find?_append, List.find?_eq_none.2 (by simpa using hsame)]
        simp [Extract.sameSpan]

theorem mem_append_cons_of_mem {before after : List Extract} {x y : Extract} (h : y ∈ before ++ after) :
    y ∈ before ++ x :: after :=
  List.mem_append.2 ((List.mem_append.1 h).imp_right (List.mem_cons_of_mem x))

/-- Taking out an extract that is not outermost makes no other one outermost, and none less so. -/
theorem outermost_without {before after : List Extract} {x z : Extract}
    (hx : ¬ Outermost (before ++ x :: after) x) :
    Outermost (before ++ x :: after) z ↔ Outermost (before ++ after) z := by
  constructor
  · rintro ⟨halone, hfirst⟩
    -- `x` is not the first of its span, or else it would be outermost as `z` is.
    have hzx : z.sameSpan x = true → before.find? z.sameSpan ≠ none := by
      intro hsame hnone
      rw [List.find?_append, hnone, Option.none_or, List.find?_cons, hsame] at hfirst
      cases hfirst
      exact hx ⟨halone, by rw [List.find?_append, hnone, Option.none_or, List.find?_cons, hsame]⟩
    refine ⟨fun y hy => halone y (mem_append_cons_of_mem hy), ?_⟩
    rw [List.find?_append] at *
    cases hbefore : before.find? z.sameSpan with
    | some y => rwa [hbefore] at hfirst
    | none =>
      have hdiff : z.sameSpan x = false := Bool.eq_false_iff.2 fun h => hzx h hbefore
      rwa [hbefore, List.find?_cons, hdiff] at hfirst
  · rintro ⟨halone, hfirst⟩
    -- What stands in the way of `x` covers `z` as well, if `x` does; so it has the span of `z`.
    have hbetween : z.Within x → z.sameSpan x = true ∧ ∃ y ∈ before, z.sameSpan y = true := by
      intro hzx
      rcases exists_of_not_outermost hx with ⟨y, hy, hxy, hdiff⟩ | ⟨y, hy, hsame⟩
      · have := Extract.sameSpan_of_between hzx hxy (halone y hy (hzx.trans hxy))
        simp [hdiff] at this
      · have hxy := Extract.within_of_sameSpan hsame
        have hzy := halone y (by simp [hy]) (hzx.trans hxy)
        exact ⟨(Extract.sameSpan_of_between hzx hxy hzy).1, y, hy, hzy⟩
    refine ⟨fun y hy hzy => ?_, ?_⟩
    · rcases List.mem_append.1 hy with hy | hy
      · exact halone y (by simp [hy]) hzy
      · rcases List.mem_cons.1 hy with rfl | hy
        · exact (hbetween hzy).1
        · exact halone y (by simp [hy]) hzy
    · rw [List.find?_append] at *
      cases hbefore : before.find? z.sameSpan with
      | some y => rwa [hbefore] at hfirst
      | none =>
        have hdiff : z.sameSpan x = false := by
          refine Bool.eq_false_iff.2 fun h => ?_
          obtain ⟨y, hy, hzy⟩ := (hbetween (Extract.within_of_sameSpan h)).2
          exact List.find?_eq_none.1 hbefore y hy hzy
        rw [hbefore] at hfirst
        rwa [List.find?_cons, hdiff]

/-- The outline is the same without an extract that is not in it. -/
theorem outline_without {before after : List Extract} {x : Extract}
    (hstop : ∀ y ∈ before ++ x :: after, 0 < y.stop) (hx : x ∉ outlineOf (before ++ x :: after)) :
    outlineOf (before ++ after) = outlineOf (before ++ x :: after) := by
  refine outline_ext fun z => ?_
  have hstop' : ∀ y ∈ before ++ after, 0 < y.stop := fun y hy => hstop y (mem_append_cons_of_mem hy)
  rw [mem_outline_iff hstop] at hx
  rw [mem_outline_iff hstop, mem_outline_iff hstop', outermost_without hx]

end PromptPack.Outline
