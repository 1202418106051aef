import PromptPack.Outline.Chunk
/-!
# What assembly keeps

Assembly goes through the chunks in their order and keeps those that start outside every region
kept before. Two facts carry everything else: the order is one by start, so a chunk kept earlier
starts no later, and hence each kept region ends before the next kept chunk starts.
-/

namespace PromptPack.Outline

/-! ## The order of assembly -/

theorem Chunk.le_iff (a b : Chunk) : a.le b = true ↔ a.start < b.start ∨
    (a.start = b.start ∧ (b.stop < a.stop ∨ (a.stop = b.stop ∧ a.shape.rank ≤ b.shape.rank))) := by
  unfold Chunk.le
  by_cases hstart : a.start = b.start <;> by_cases hstop : a.stop = b.stop <;> simp [hstart, hstop]

theorem Chunk.le_trans (a b c : Chunk) (hab : a.le b = true) (hbc : b.le c = true) : a.le c = true := by
  rw [Chunk.le_iff] at *
  omega

theorem Chunk.le_total (a b : Chunk) : (a.le b || b.le a) = true := by
  rw [Bool.or_eq_true, Chunk.le_iff, Chunk.le_iff]
  omega

theorem Chunk.start_le_of_le {a b : Chunk} (h : a.le b = true) : a.start ≤ b.start := by
  rw [Chunk.le_iff] at h
  omega

/-- Sorting keeps the order of items that it does not tell apart. -/
theorem filter_mergeSort_of_tied {α : Type} {le : α → α → Bool}
    (htrans : ∀ a b c, le a b = true → le b c = true → le a c = true) (htotal : ∀ a b, (le a b || le b a) = true)
    {p : α → Bool} (hp : ∀ a b, p a = true → p b = true → le a b = true) (items : List α) :
    (items.mergeSort le).filter p = items.filter p := by
  have hsub : (items.filter p).Sublist (items.mergeSort le) := by
    refine List.sublist_mergeSort htrans htotal ?_ List.filter_sublist
    rw [List.pairwise_filter]
    exact List.pairwise_of_forall (fun a b ha hb => hp a b ha hb)
  have hsub' := hsub.filter p
  rw [List.filter_filter] at hsub'
  simp only [Bool.and_self] at hsub'
  exact (hsub'.eq_of_length ((List.mergeSort_perm items _).filter p).length_eq.symm).symm

/-- Chunks come up in the order of their starts. -/
theorem sorted_starts (chunks : List Chunk) :
    (chunks.mergeSort Chunk.le).Pairwise (fun a b => a.start ≤ b.start) :=
  (List.pairwise_mergeSort Chunk.le_trans Chunk.le_total chunks).imp Chunk.start_le_of_le

/-! ## Kept chunks -/

theorem Region.contains_iff (r : Region) (n : Nat) : r.contains n = true ↔ r.start ≤ n ∧ n < r.stop := by
  simp [Region.contains]

/-- `a` is done with before `b` begins. -/
def Chunk.Precedes (a b : Chunk) : Prop := a.start < b.start ∧ a.covers.stop ≤ b.start

theorem Chunk.covers_start (c : Chunk) : c.covers.start = c.start := by
  unfold Chunk.covers
  split <;> rfl

theorem select_sublist (kept cs : List Chunk) : (select kept cs).Sublist cs := by
  induction cs generalizing kept with
  | nil => exact .slnil
  | cons c cs ih =>
    unfold select
    split
    · exact (ih kept).cons c
    · exact (ih _).cons_cons c

/-- A chunk that is not dropped begins behind every chunk kept so far. -/
theorem precedes_of_not_dropped {k c : Chunk} (hstart : k.start ≤ c.start)
    (h : ¬ (k.start == c.start || k.covers.contains c.start) = true) : k.Precedes c := by
  simp only [Region.contains_iff, Chunk.covers_start, Bool.or_eq_true, beq_iff_eq, not_or, not_and,
    Nat.not_lt] at h
  exact ⟨by omega, h.2 hstart⟩

theorem select_precedes (kept cs : List Chunk) (hsorted : cs.Pairwise (fun a b => a.start ≤ b.start))
    (hkept : ∀ k ∈ kept, ∀ c ∈ cs, k.start ≤ c.start) :
    (∀ k ∈ kept, ∀ c ∈ select kept cs, k.Precedes c) ∧ (select kept cs).Pairwise Chunk.Precedes := by
  induction cs generalizing kept with
  | nil => simp [select]
  | cons c cs ih =>
    obtain ⟨hc, hcs⟩ := List.pairwise_cons.1 hsorted
    unfold select
    -- A chunk that is kept joins those that the rest has to stay behind.
    split
    · exact ih kept hcs fun k hk d hd => hkept k hk d (by simp [hd])
    · rename_i hfree
      simp only [List.any_eq_true, not_exists, not_and] at hfree
      obtain ⟨hall, hpair⟩ := ih (c :: kept) hcs fun k hk d hd => by
        rcases List.mem_cons.1 hk with rfl | hk
        · exact hc d hd
        · exact hkept k hk d (by simp [hd])
      refine ⟨fun k hk d hd => ?_, List.pairwise_cons.2 ⟨hall c (by simp), hpair⟩⟩
      rcases List.mem_cons.1 hd with rfl | hd
      · exact precedes_of_not_dropped (hkept k hk d (by simp)) (hfree k hk)
      · exact hall k (by simp [hk]) d hd

/-- Each chunk of an outline is done with before the next one begins. -/
theorem selected_precedes (chunks : List Chunk) : (selected chunks).Pairwise Chunk.Precedes :=
  (select_precedes [] _ (sorted_starts chunks) (by simp)).2

theorem mem_of_mem_selected {chunks : List Chunk} {c : Chunk} (h : c ∈ selected chunks) : c ∈ chunks :=
  List.mem_mergeSort.1 ((select_sublist [] _).subset h)

/-! ## The text of an outline -/

/-- Texts with a separator behind each are no notice with a full stop at its end. -/
theorem join_separated_ne {contents : List String} (hne : contents ≠ []) (front : String) {notice : String}
    (hnotice : notice.toList.reverse.take 2 = ['\n', '.']) :
    String.join (contents.map (· ++ separator)) ≠ front ++ notice := by
  intro h
  obtain ⟨before, last, rfl⟩ := (List.eq_nil_or_concat contents).resolve_left hne
  rw [List.concat_eq_append] at h
  have hend (cs : List Char) : (cs ++ separator.toList).reverse.take 2 = ['\n', '-'] := by
    rw [List.reverse_append, List.take_append_of_le_length (by decide)]
    decide
  have hend' : (front ++ notice).toList.reverse.take 2 = ['\n', '.'] := by
    have hlength : 2 ≤ notice.toList.reverse.length := by
      have := congrArg List.length hnotice
      simp only [List.length_take, List.length_cons, List.length_nil] at this
      omega
    rw [String.toList_append, List.reverse_append, List.take_append_of_le_length hlength, hnotice]
  have hshown : (String.join ((before ++ [last]).map (· ++ separator))).toList =
      (String.join (before.map (· ++ separator)) ++ last).toList ++ separator.toList := by
    rw [List.map_append, String.join_append, List.map_singleton, String.join_cons, String.join_nil, String.append_empty,
      ← String.append_assoc, String.toList_append]
  have hsame := hend (String.join (before.map (· ++ separator)) ++ last).toList
  rw [← hshown, h, hend'] at hsame
  cases hsame

/-- The text is empty only when no chunk is kept: a separator follows each of them. -/
theorem assemble_eq (chunks : List Chunk) : assemble chunks =
    if selected chunks = [] then nothingFound
    else String.join ((selected chunks).map (·.content ++ separator)) := by
  unfold assemble
  cases selected chunks with
  | nil => simp
  | cons c cs => simp [separator]

end PromptPack.Outline
