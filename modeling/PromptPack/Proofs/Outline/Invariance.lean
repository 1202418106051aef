import Mathlib
import PromptPack.Proofs.Outline.Greedy
/-!
# What an outline does not depend on

Assembly looks at chunks with two questions only: which of two comes first, and whether one accounts for the start of
another. So an outline stays the same when chunks are found in another order (`assemble_eq_of_perm`) and when their
offsets are replaced by others in the same order (`assemble_mapOffsets`). Behind an offset that no region reaches over,
nothing that comes before it makes a difference (`assemble_splitsAt`).
-/

namespace PromptPack.Outline

variable {chunks chunks' cs ks ks' front back : List Chunk} {a b c : Chunk} {k n : Nat}

/-! ## The order in which chunks are found -/

theorem Chunk.ties_iff_agree : a.ties b = true ↔
    a.start = b.start ∧ a.stop = b.stop ∧ a.shape.rank = b.shape.rank := by
  simp only [Chunk.ties, Bool.and_eq_true, beq_iff_eq, and_assoc]

/-- Chunks come up in one order, unless two that differ tie. -/
theorem mergeSort_eq_of_perm (hperm : chunks.Perm chunks')
    (hties : ∀ a ∈ chunks, ∀ b ∈ chunks, a.ties b = true → a = b) :
    chunks.mergeSort Chunk.le = chunks'.mergeSort Chunk.le := by
  have hsorted := List.pairwise_mergeSort Chunk.le_trans Chunk.le_total chunks
  have hsorted' := List.pairwise_mergeSort Chunk.le_trans Chunk.le_total chunks'
  have hsame : (chunks.mergeSort Chunk.le).Perm (chunks'.mergeSort Chunk.le) :=
    ((List.mergeSort_perm chunks _).trans hperm).trans (List.mergeSort_perm chunks' _).symm
  refine hsame.eq_of_pairwise (fun a b ha hb hab hba => ?_) hsorted hsorted'
  have ha : a ∈ chunks := List.mem_mergeSort.1 ha
  have hb : b ∈ chunks := hperm.mem_iff.2 (List.mem_mergeSort.1 hb)
  exact hties a ha b hb (Chunk.ties_iff.2 ⟨hab, hba⟩)

/-- The order in which chunks are found makes no difference, as long as those that agree in start, end and rank are the
same. -/
theorem assemble_eq_of_perm (hperm : chunks.Perm chunks')
    (hties : ∀ a ∈ chunks, ∀ b ∈ chunks,
      a.start = b.start → a.stop = b.stop → a.shape.rank = b.shape.rank → a = b) :
    assemble chunks = assemble chunks' := by
  have hsorted := mergeSort_eq_of_perm hperm fun a ha b hb htie => by
    obtain ⟨hstart, hstop, hrank⟩ := Chunk.ties_iff_agree.1 htie
    exact hties a ha b hb hstart hstop hrank
  unfold assemble selected
  rw [hsorted]

/-- The exported function of one node, found as an export and as a function, and twice as the latter. -/
def exported : List Chunk :=
  [⟨"export default 1", 0, 30, .verbatim⟩, ⟨"import a", 40, 48, .verbatim⟩, ⟨"export default f()", 0, 30, .elided⟩,
    ⟨"export default f()", 0, 30, .elided⟩]

theorem assemble_exported_eq_of_perm : exported.Perm exported.reverse ∧
    (∀ a ∈ exported, ∀ b ∈ exported, a.start = b.start → a.stop = b.stop → a.shape.rank = b.shape.rank → a = b) ∧
    assemble exported.reverse = "export default f()\n// -----\nimport a\n// -----\n" := by
  have hperm : exported.Perm exported.reverse := (List.reverse_perm exported).symm
  have hties : ∀ a ∈ exported, ∀ b ∈ exported, a.start = b.start → a.stop = b.stop → a.shape.rank = b.shape.rank →
      a = b := by decide
  refine ⟨hperm, hties, (assemble_eq_of_perm hperm hties).symm.trans ?_⟩
  cbv

/-! ## The order of offsets -/

def Shape.mapOffsets (f : Nat → Nat) : Shape → Shape
  | .elided => .elided
  | .outline headerEnd => .outline (f headerEnd)
  | .verbatim => .verbatim

/-- The chunk with each of its offsets replaced. -/
def Chunk.mapOffsets (f : Nat → Nat) (c : Chunk) : Chunk :=
  { c with start := f c.start, stop := f c.stop, shape := c.shape.mapOffsets f }

/-- The end of the header of an outline, else the end of the node. -/
def Chunk.reach (c : Chunk) : Nat :=
  match c.shape with
  | .outline headerEnd => headerEnd
  | _ => c.stop

def Chunk.offsets (c : Chunk) : List Nat := [c.start, c.stop, c.reach]

theorem Shape.rank_mapOffsets (f : Nat → Nat) (s : Shape) : (s.mapOffsets f).rank = s.rank := by
  cases s <;> rfl

theorem Chunk.reach_mapOffsets (f : Nat → Nat) (c : Chunk) : (c.mapOffsets f).reach = f c.reach := by
  obtain ⟨content, start, stop, shape⟩ := c
  cases shape <;> rfl

/-- An outline covers one offset at least, but this is its start, which it accounts for anyway. -/
theorem Chunk.accountsFor_iff_reach : c.AccountsFor n ↔ c.start = n ∨ (c.start ≤ n ∧ n < c.reach) := by
  rw [Chunk.accountsFor_iff, Chunk.covers, Chunk.reach]
  cases c.shape <;> dsimp only <;> omega

section

variable {f : Nat → Nat} {s : Set Nat} (hf : StrictMonoOn f s)
include hf

theorem Chunk.le_mapOffsets (ha : ∀ n ∈ a.offsets, n ∈ s) (hb : ∀ n ∈ b.offsets, n ∈ s) :
    (a.mapOffsets f).le (b.mapOffsets f) = a.le b := by
  have hstart : a.start ∈ s ∧ b.start ∈ s := ⟨ha _ (by simp [offsets]), hb _ (by simp [offsets])⟩
  have hstop : a.stop ∈ s ∧ b.stop ∈ s := ⟨ha _ (by simp [offsets]), hb _ (by simp [offsets])⟩
  rw [Bool.eq_iff_iff, Chunk.le_iff, Chunk.le_iff]
  simp only [mapOffsets, Shape.rank_mapOffsets, hf.lt_iff_lt hstart.1 hstart.2, hf.lt_iff_lt hstop.2 hstop.1,
    hf.injOn.eq_iff hstart.1 hstart.2, hf.injOn.eq_iff hstop.1 hstop.2]

theorem Chunk.accountsFor_mapOffsets (hc : ∀ n ∈ c.offsets, n ∈ s) (hn : n ∈ s) :
    (c.mapOffsets f).AccountsFor (f n) ↔ c.AccountsFor n := by
  have hstart : c.start ∈ s := hc _ (by simp [offsets])
  have hreach : c.reach ∈ s := hc _ (by simp [offsets])
  rw [Chunk.accountsFor_iff_reach, Chunk.accountsFor_iff_reach, Chunk.reach_mapOffsets]
  simp only [mapOffsets, hf.injOn.eq_iff hstart hn, hf.le_iff_le hstart hn, hf.lt_iff_lt hn hreach]

end

theorem Greedy.subset (h : Greedy cs ks) : ks ⊆ cs := by
  rw [greedy_iff.1 h]
  exact (select_sublist [] cs).subset

/-- The greedy choice goes along with every change of the chunks that keeps which of them account for which. -/
theorem Greedy.map {g : Chunk → Chunk} (h : Greedy cs ks)
    (hg : ∀ k ∈ cs, ∀ c ∈ cs, (g k).AccountsFor (g c).start ↔ k.AccountsFor c.start) :
    Greedy (cs.map g) (ks.map g) := by
  induction h with
  | nil => exact .nil
  | @keep cs ks c h hfree ih =>
    have hfront := ih fun k hk d hd => hg k (List.mem_append_left _ hk) d (List.mem_append_left _ hd)
    rw [List.map_append, List.map_append]
    refine .keep hfront (List.forall_mem_map.2 fun k hk haccounts => hfree k hk ?_)
    exact (hg k (List.mem_append_left _ (h.subset hk)) c (by simp)).1 haccounts
  | @drop cs ks c k h hk haccounts ih =>
    have hfront := ih fun k hk d hd => hg k (List.mem_append_left _ hk) d (List.mem_append_left _ hd)
    rw [List.map_append]
    exact .drop hfront (List.mem_map_of_mem hk) ((hg k (List.mem_append_left _ (h.subset hk)) c (by simp)).2 haccounts)

theorem selected_mapOffsets {f : Nat → Nat} (hf : StrictMonoOn f {n | ∃ c ∈ chunks, n ∈ c.offsets}) :
    selected (chunks.map (Chunk.mapOffsets f)) = (selected chunks).map (Chunk.mapOffsets f) := by
  have hmem (c : Chunk) (hc : c ∈ chunks) : ∀ n ∈ c.offsets, n ∈ {n | ∃ c ∈ chunks, n ∈ c.offsets} :=
    fun n hn => ⟨c, hc, hn⟩
  have hsorted : (chunks.map (Chunk.mapOffsets f)).mergeSort Chunk.le =
      (chunks.mergeSort Chunk.le).map (Chunk.mapOffsets f) :=
    (List.map_mergeSort fun a ha b hb => (Chunk.le_mapOffsets hf (hmem a ha) (hmem b hb)).symm).symm
  have hgreedy := (greedy_select (chunks.mergeSort Chunk.le)).map (g := Chunk.mapOffsets f) fun k hk c hc =>
    Chunk.accountsFor_mapOffsets hf (hmem k (List.mem_mergeSort.1 hk))
      (hmem c (List.mem_mergeSort.1 hc) c.start (by simp [Chunk.offsets]))
  rw [selected, hsorted]
  exact (greedy_iff.1 hgreedy).symm

/-- Only the order of offsets matters: a function that increases from each offset of the chunks to the next leaves the
outline as it is. So does moving all offsets by the same amount. -/
theorem assemble_mapOffsets (chunks : List Chunk) :
    (∀ f : Nat → Nat, StrictMonoOn f {n | ∃ c ∈ chunks, n ∈ c.offsets} →
      assemble (chunks.map (Chunk.mapOffsets f)) = assemble chunks) ∧
    ∀ k, assemble (chunks.map (Chunk.mapOffsets (k + ·))) = assemble chunks := by
  have hsame (f : Nat → Nat) (hf : StrictMonoOn f {n | ∃ c ∈ chunks, n ∈ c.offsets}) :
      assemble (chunks.map (Chunk.mapOffsets f)) = assemble chunks := by
    unfold assemble
    rw [selected_mapOffsets hf, List.map_map]
    rfl
  refine ⟨hsame, fun k => hsame _ ?_⟩
  intro m _ n _ hlt
  exact Nat.add_lt_add_left hlt k

/-- An outline whose header ends before it starts, a member right behind its start, and what that member covers. -/
def crowded : List Chunk :=
  [⟨"inner", 5, 6, .elided⟩, ⟨"member", 4, 6, .verbatim⟩, ⟨"class", 3, 9, .outline 1⟩]

theorem assemble_crowded_mapOffsets : StrictMonoOn (2 * ·) {n | ∃ c ∈ crowded, n ∈ c.offsets} ∧
    assemble (crowded.map (Chunk.mapOffsets (2 * ·))) = "class\n// -----\nmember\n// -----\n" ∧
    assemble (crowded.map (Chunk.mapOffsets (1 + ·))) = "class\n// -----\nmember\n// -----\n" := by
  have hmono : StrictMonoOn (2 * ·) {n | ∃ c ∈ crowded, n ∈ c.offsets} := fun m _ n _ hlt => by
    dsimp only
    omega
  have hcrowded : assemble crowded = "class\n// -----\nmember\n// -----\n" := by cbv
  obtain ⟨hmap, hshift⟩ := assemble_mapOffsets crowded
  exact ⟨hmono, (hmap _ hmono).trans hcrowded, (hshift 1).trans hcrowded⟩

/-! ## Either side of an offset -/

/-- The chunk is done with at the offset, or does not start before it. -/
def Chunk.ClearOf (c : Chunk) (k : Nat) : Prop := c.start < k ∧ c.covers.stop ≤ k ∨ k ≤ c.start

instance (c : Chunk) (k : Nat) : Decidable (c.ClearOf k) := inferInstanceAs (Decidable (_ ∨ _))

def startingBefore (k : Nat) (chunks : List Chunk) : List Chunk := chunks.filter (·.start < k)

def startingFrom (k : Nat) (chunks : List Chunk) : List Chunk := chunks.filter (k ≤ ·.start)

/-- The outline, with nothing instead of the notice where nothing is found. -/
def shownText (chunks : List Chunk) : String := if assemble chunks = nothingFound then "" else assemble chunks

/-- What assembly makes of chunks is put together from what it makes of those on either side of an offset. -/
structure SplitsAt (k : Nat) (chunks : List Chunk) : Prop where
  text : assemble chunks = if startingBefore k chunks = [] ∧ startingFrom k chunks = [] then nothingFound
    else shownText (startingBefore k chunks) ++ shownText (startingFrom k chunks)
  nothing : assemble chunks = nothingFound ↔ startingBefore k chunks = [] ∧ startingFrom k chunks = []
  /-- No edit behind the offset changes the outline before it. -/
  edits : ∀ edited, (∀ c ∈ edited, c.ClearOf k) → startingBefore k edited = startingBefore k chunks →
    startingBefore k chunks ≠ [] → ∃ rest, assemble edited = assemble (startingBefore k chunks) ++ rest

theorem mem_startingBefore_iff : c ∈ startingBefore k chunks ↔ c ∈ chunks ∧ c.start < k := by
  simp [startingBefore]

theorem mem_startingFrom_iff : c ∈ startingFrom k chunks ↔ c ∈ chunks ∧ k ≤ c.start := by
  simp [startingFrom]

theorem sides_perm (k : Nat) (chunks : List Chunk) :
    (startingBefore k chunks ++ startingFrom k chunks).Perm chunks := by
  have hfrom : startingFrom k chunks = chunks.filter fun c => !decide (c.start < k) := by
    simp only [startingFrom, ← Nat.not_lt, decide_not]
  rw [hfrom]
  exact List.filter_append_perm _ chunks

theorem eq_nil_iff_sides : chunks = [] ↔ startingBefore k chunks = [] ∧ startingFrom k chunks = [] := by
  rw [← List.append_eq_nil_iff]
  constructor
  · rintro rfl
    rfl
  · intro hnil
    have hperm := sides_perm k chunks
    rw [hnil] at hperm
    exact hperm.nil_eq.symm

/-- Chunks that tie are on the same side, and there they stand as they came. -/
theorem filter_ties_sides (k : Nat) (chunks : List Chunk) (c : Chunk) :
    (startingBefore k chunks).filter (Chunk.ties c) ++ (startingFrom k chunks).filter (Chunk.ties c) =
      chunks.filter (Chunk.ties c) := by
  have hstart (d : Chunk) (htie : c.ties d = true) : c.start = d.start := (Chunk.ties_iff_agree.1 htie).1
  have hside (p : Chunk → Bool) (hp : ∀ d, c.ties d = true → p d = true) :
      (chunks.filter p).filter (Chunk.ties c) = chunks.filter (Chunk.ties c) := by
    rw [List.filter_filter]
    exact List.filter_congr fun d _ => Bool.and_eq_left_iff_imp.2 (hp d)
  have hother (p : Chunk → Bool) (hp : ∀ d, c.ties d = true → p d = false) :
      (chunks.filter p).filter (Chunk.ties c) = [] := by
    refine List.filter_eq_nil_iff.2 fun d hd htie => ?_
    exact Bool.false_ne_true ((hp d htie).symm.trans (List.mem_filter.1 hd).2)
  rcases Nat.lt_or_ge c.start k with hc | hc
  · rw [startingBefore, hside _ fun d htie => decide_eq_true (hstart d htie ▸ hc), startingFrom,
      hother _ fun d htie => decide_eq_false (Nat.not_le.2 (hstart d htie ▸ hc)), List.append_nil]
  · rw [startingBefore, hother _ fun d htie => decide_eq_false (Nat.not_lt.2 (hstart d htie ▸ hc)), startingFrom,
      hside _ fun d htie => decide_eq_true (hstart d htie ▸ hc), List.nil_append]

/-- In order, the chunks that start before an offset come in front of those that do not, whatever they cover. -/
theorem mergeSort_eq_append (k : Nat) (chunks : List Chunk) : chunks.mergeSort Chunk.le =
    (startingBefore k chunks).mergeSort Chunk.le ++ (startingFrom k chunks).mergeSort Chunk.le := by
  have hfront := sorts_mergeSort (startingBefore k chunks)
  have hback := sorts_mergeSort (startingFrom k chunks)
  refine (sorts_iff.1 ⟨?perm, ?ordered, fun c => ?stable⟩).symm
  case perm => exact (hfront.perm.append hback.perm).trans (sides_perm k chunks)
  case ordered =>
    refine List.pairwise_append.2 ⟨hfront.ordered, hback.ordered, fun a ha b hb => .inl ?_⟩
    have ha := (mem_startingBefore_iff.1 (List.mem_mergeSort.1 ha)).2
    have hb := (mem_startingFrom_iff.1 (List.mem_mergeSort.1 hb)).2
    exact Nat.lt_of_lt_of_le ha hb
  case stable => rw [List.filter_append, hfront.stable, hback.stable, filter_ties_sides]

theorem Greedy.append (hfront : Greedy front ks) (hback : Greedy back ks')
    (h : ∀ k ∈ front, ∀ c ∈ back, ¬ k.AccountsFor c.start) : Greedy (front ++ back) (ks ++ ks') := by
  induction hback with
  | nil => simpa using hfront
  | @keep cs ks' c _ hfree ih =>
    have hbefore := ih fun k hk d hd => h k hk d (List.mem_append_left _ hd)
    rw [← List.append_assoc, ← List.append_assoc]
    refine .keep hbefore (List.forall_mem_append.2 ⟨fun k hk => ?_, hfree⟩)
    exact h k (hfront.subset hk) c (by simp)
  | @drop cs ks' c k _ hk haccounts ih =>
    have hbefore := ih fun k hk d hd => h k hk d (List.mem_append_left _ hd)
    rw [← List.append_assoc]
    exact .drop hbefore (List.mem_append_right _ hk) haccounts

theorem Chunk.ClearOf.not_accountsFor (h : c.ClearOf k) (hstart : c.start < k) (hn : k ≤ n) : ¬ c.AccountsFor n := by
  rw [Chunk.accountsFor_iff]
  rcases h with ⟨-, hstop⟩ | hstart' <;> omega

theorem selected_eq_append (h : ∀ c ∈ chunks, c.ClearOf k) :
    selected chunks = selected (startingBefore k chunks) ++ selected (startingFrom k chunks) := by
  have hgreedy := (greedy_select ((startingBefore k chunks).mergeSort Chunk.le)).append
    (greedy_select ((startingFrom k chunks).mergeSort Chunk.le)) fun a ha b hb => by
      obtain ⟨hmem, hstart⟩ := mem_startingBefore_iff.1 (List.mem_mergeSort.1 ha)
      exact (h a hmem).not_accountsFor hstart (mem_startingFrom_iff.1 (List.mem_mergeSort.1 hb)).2
  rw [selected, mergeSort_eq_append k]
  exact (greedy_iff.1 hgreedy).symm

theorem shownText_eq (chunks : List Chunk) :
    shownText chunks = String.join ((selected chunks).map (·.content ++ separator)) := by
  unfold shownText
  split
  · rename_i hnothing
    rw [selected_eq_nil_iff.2 (assemble_eq_nothingFound_iff.1 hnothing)]
    rfl
  · rename_i hfound
    rw [assemble_eq, if_neg]
    exact fun hnil => hfound (assemble_eq_nothingFound_iff.2 (selected_eq_nil_iff.1 hnil))

theorem shownText_of_ne_nil (h : chunks ≠ []) : shownText chunks = assemble chunks :=
  if_neg (assemble_eq_nothingFound_iff.not.2 h)

theorem shownText_eq_append (h : ∀ c ∈ chunks, c.ClearOf k) :
    shownText chunks = shownText (startingBefore k chunks) ++ shownText (startingFrom k chunks) := by
  rw [shownText_eq, shownText_eq, shownText_eq, selected_eq_append h, List.map_append, String.join_append]

/-- Chunks of which none reaches over an offset, in whatever order they are found, have the outline of those before it
followed by the outline of those behind it. -/
theorem assemble_splitsAt (h : ∀ c ∈ chunks, c.ClearOf k) : SplitsAt k chunks := by
  refine ⟨?text, assemble_eq_nothingFound_iff.trans eq_nil_iff_sides, ?edits⟩
  case text =>
    split
    · rename_i hnil
      exact assemble_eq_nothingFound_iff.2 (eq_nil_iff_sides.2 hnil)
    · rename_i hne
      rw [← shownText_eq_append h, shownText_of_ne_nil (eq_nil_iff_sides.not.2 hne)]
  case edits =>
    intro edited hedited hsame hne
    have hne' : edited ≠ [] := by
      rintro rfl
      exact hne hsame.symm
    refine ⟨shownText (startingFrom k edited), ?_⟩
    rw [← shownText_of_ne_nil hne', shownText_eq_append hedited, hsame, shownText_of_ne_nil hne]

/-- A container around the offset 10 with a header before it, a comment and members on both sides. -/
def members : List Chunk :=
  [⟨"g()", 20, 24, .elided⟩, ⟨"// f", 8, 10, .verbatim⟩, ⟨"f()", 10, 18, .elided⟩, ⟨"impl A", 0, 30, .outline 7⟩,
    ⟨"// in f", 12, 16, .verbatim⟩]

theorem assemble_members_splitsAt : (∀ c ∈ members, c.ClearOf 10) ∧
    shownText (startingBefore 10 members) = "impl A\n// -----\n// f\n// -----\n" ∧
    shownText (startingFrom 10 members) = "f()\n// -----\ng()\n// -----\n" ∧
    assemble members = "impl A\n// -----\n// f\n// -----\nf()\n// -----\ng()\n// -----\n" := by
  have hclear : ∀ c ∈ members, c.ClearOf 10 := by decide
  have hfront : shownText (startingBefore 10 members) = "impl A\n// -----\n// f\n// -----\n" := by
    rw [shownText_eq]
    cbv
  have hback : shownText (startingFrom 10 members) = "f()\n// -----\ng()\n// -----\n" := by
    rw [shownText_eq]
    cbv
  have hne : ¬ (startingBefore 10 members = [] ∧ startingFrom 10 members = []) := by decide
  refine ⟨hclear, hfront, hback, ?_⟩
  rw [(assemble_splitsAt hclear).text, if_neg hne, hfront, hback]
  rfl

end PromptPack.Outline
