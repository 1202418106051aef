import Mathlib
import PromptPack.Proofs.Outline.Headers
/-!
# Assembly as a greedy choice

Chunks come up in a stable order, and each is kept unless a chunk kept before accounts for its start
(`Greedy`). One pass suffices for that (`Pass`): it remembers where the last chunk was kept and the regions that
chunks are held against. A region that is over where a chunk starts is over for all chunks behind it as well, so it
makes no difference whether the pass forgets such regions. The main result is `assembly_is_greedy`.
-/

namespace PromptPack.Outline

variable {chunks sorted sorted' cs ks : List Chunk} {c k : Chunk} {n : Nat}

/-! ## The stable order -/

/-- Chunks that the order of assembly does not tell apart. -/
def Chunk.ties (a b : Chunk) : Bool := a.start == b.start && a.stop == b.stop && a.shape.rank == b.shape.rank

theorem Chunk.ties_iff {a b : Chunk} : a.ties b = true ↔ a.le b = true ∧ b.le a = true := by
  simp only [Chunk.ties, Bool.and_eq_true, beq_iff_eq, Chunk.le_iff]
  omega

/-- The chunks by start, then the longer first, then by rank; those that are equal in all three as they came. -/
structure Sorts (chunks sorted : List Chunk) : Prop where
  perm : sorted.Perm chunks
  ordered : sorted.Pairwise fun a b => a.start < b.start ∨
    (a.start = b.start ∧ (b.stop < a.stop ∨ (a.stop = b.stop ∧ a.shape.rank ≤ b.shape.rank)))
  stable : ∀ c, sorted.filter (Chunk.ties c) = chunks.filter (Chunk.ties c)

theorem sorts_mergeSort (chunks : List Chunk) : Sorts chunks (chunks.mergeSort Chunk.le) := by
  refine ⟨List.mergeSort_perm chunks _, ?_, fun c => ?_⟩
  · exact (List.pairwise_mergeSort Chunk.le_trans Chunk.le_total chunks).imp (Chunk.le_iff _ _).1
  · refine filter_mergeSort_of_tied Chunk.le_trans Chunk.le_total (fun a b ha hb => ?_) chunks
    exact Chunk.le_trans a c b (Chunk.ties_iff.1 ha).2 (Chunk.ties_iff.1 hb).1

/-- There is no other such order: what comes first ties with the first of the other order, and of those that tie with it
both have the same one first. -/
theorem eq_of_ties (hperm : sorted.Perm sorted') (h : sorted.Pairwise fun a b => a.le b = true)
    (h' : sorted'.Pairwise fun a b => a.le b = true)
    (hties : ∀ c, sorted.filter (Chunk.ties c) = sorted'.filter (Chunk.ties c)) : sorted = sorted' := by
  induction sorted generalizing sorted' with
  | nil => exact hperm.nil_eq
  | cons a rest ih =>
    cases sorted' with
    | nil => exact absurd hperm.eq_nil (List.cons_ne_nil a rest)
    | cons b rest' =>
      obtain ⟨ha, hrest⟩ := List.pairwise_cons.1 h
      obtain ⟨hb, hrest'⟩ := List.pairwise_cons.1 h'
      have hself (c : Chunk) : c.ties c = true := by simp [Chunk.ties]
      have htie : a.ties b = true := by
        have hmem : b ∈ a :: rest := hperm.mem_iff.2 List.mem_cons_self
        have hmem' : a ∈ b :: rest' := hperm.mem_iff.1 List.mem_cons_self
        rcases List.mem_cons.1 hmem with rfl | hmem
        · exact hself b
        · rcases List.mem_cons.1 hmem' with rfl | hmem'
          · exact hself a
          · exact Chunk.ties_iff.2 ⟨ha b hmem, hb a hmem'⟩
      obtain rfl : a = b := by
        have hfirst := hties a
        rw [List.filter_cons_of_pos (hself a), List.filter_cons_of_pos htie] at hfirst
        exact (List.cons.inj hfirst).1
      rw [ih ((List.perm_cons a).1 hperm) hrest hrest' fun c => ?_]
      have hc := hties c
      rw [List.filter_cons, List.filter_cons] at hc
      split at hc
      · exact (List.cons.inj hc).2
      · exact hc

theorem sorts_iff : Sorts chunks sorted ↔ sorted = chunks.mergeSort Chunk.le := by
  constructor
  · intro h
    have hmerge := sorts_mergeSort chunks
    refine eq_of_ties (h.perm.trans hmerge.perm.symm) ?_ ?_ fun c => (h.stable c).trans (hmerge.stable c).symm
    · exact h.ordered.imp (Chunk.le_iff _ _).2
    · exact hmerge.ordered.imp (Chunk.le_iff _ _).2
  · rintro rfl
    exact sorts_mergeSort chunks

/-! ## The greedy choice -/

/-- Of chunks that come up one after the other those are kept whose start no chunk kept before accounts for. -/
inductive Greedy : List Chunk → List Chunk → Prop
  | nil : Greedy [] []
  | keep {cs ks : List Chunk} {c : Chunk} : Greedy cs ks → (∀ k ∈ ks, ¬ k.AccountsFor c.start) →
      Greedy (cs ++ [c]) (ks ++ [c])
  | drop {cs ks : List Chunk} {c k : Chunk} : Greedy cs ks → k ∈ ks → k.AccountsFor c.start → Greedy (cs ++ [c]) ks

theorem dropped_iff : ks.any (fun k => k.start == c.start || k.covers.contains c.start) = true ↔
    ∃ k ∈ ks, k.AccountsFor c.start := by
  simp only [List.any_eq_true, Bool.or_eq_true, beq_iff_eq, Chunk.AccountsFor]

/-- What is kept of one chunk more depends on those kept so far. -/
theorem select_concat (kept cs : List Chunk) (c : Chunk) : select kept (cs ++ [c]) = select kept cs ++
    if (kept ++ select kept cs).any (fun k => k.start == c.start || k.covers.contains c.start) then [] else [c] := by
  induction cs generalizing kept with
  | nil => simp [select]
  | cons d cs ih =>
    rw [List.cons_append, select, select]
    split
    · exact ih kept
    · rw [ih]
      simp [Bool.or_left_comm]

theorem greedy_select (cs : List Chunk) : Greedy cs (select [] cs) := by
  induction cs using List.reverseRecOn with
  | nil => exact .nil
  | append_singleton cs c ih =>
    rw [select_concat, List.nil_append]
    split
    · rename_i hdropped
      obtain ⟨k, hk, haccounts⟩ := dropped_iff.1 hdropped
      rw [List.append_nil]
      exact .drop ih hk haccounts
    · rename_i hkept
      exact .keep ih fun k hk haccounts => hkept (dropped_iff.2 ⟨k, hk, haccounts⟩)

theorem greedy_iff : Greedy cs ks ↔ ks = select [] cs := by
  constructor
  · intro h
    induction h with
    | nil => rfl
    | @keep cs ks c _ hfree ih =>
      subst ih
      rw [select_concat, List.nil_append, if_neg]
      rw [dropped_iff]
      rintro ⟨k, hk, haccounts⟩
      exact hfree k hk haccounts
    | @drop cs ks c k _ hk haccounts ih =>
      subst ih
      rw [select_concat, List.nil_append, if_pos (dropped_iff.2 ⟨k, hk, haccounts⟩), List.append_nil]
  · rintro rfl
    exact greedy_select cs

theorem Chunk.Precedes.disjoint {a b : Chunk} (h : a.Precedes b) (n : Nat) :
    ¬ (a.covers.contains n = true ∧ b.covers.contains n = true) := by
  rintro ⟨ha, hb⟩
  exact h.not_accountsFor (.inr ha) (.inr hb)

/-- Something is kept of anything: the first chunk. -/
theorem selected_eq_nil_iff : selected chunks = [] ↔ chunks = [] := by
  constructor
  · intro h
    by_contra hne
    obtain ⟨c, hc⟩ := List.exists_mem_of_ne_nil chunks hne
    obtain ⟨k, ⟨hk, -⟩, -⟩ := existsUnique_accountsFor hc
    rw [h] at hk
    cases hk
  · rintro rfl
    simp [selected, select]

theorem assemble_eq_nothingFound_iff : assemble chunks = nothingFound ↔ chunks = [] := by
  rw [assemble_eq]
  split
  · rename_i hnil
    exact iff_of_true rfl (selected_eq_nil_iff.1 hnil)
  · rename_i hne
    have hcontents : (selected chunks).map (·.content) ≠ [] := by simpa using hne
    have hnotice : nothingFound.toList.reverse.take 2 = ['\n', '.'] := by decide
    refine iff_of_false (fun h => join_separated_ne hcontents "" hnotice ?_) (selected_eq_nil_iff.not.1 hne)
    rw [List.map_map, String.empty_append]
    exact h

/-! ## One pass -/

/-- A pass over chunks in order: the regions that the next chunk is held against, the start of the last chunk kept, and
the text written so far. -/
structure Pass where
  regions : List Region := []
  lastStart : Option Nat := none
  text : String := ""

namespace Pass

/-- The regions of interest at a chunk. A pass that forgets leaves out those that are over where the chunk starts. -/
def current (forgets : Bool) (p : Pass) (c : Chunk) : List Region :=
  if forgets then p.regions.filter fun r => c.start < r.stop else p.regions

/-- Whether a chunk is passed over. -/
def drops (forgets : Bool) (p : Pass) (c : Chunk) : Bool :=
  p.lastStart == some c.start || (p.current forgets c).any (·.contains c.start)

def step (forgets : Bool) (p : Pass) (c : Chunk) : Pass :=
  if p.lastStart == some c.start then p
  else if (p.current forgets c).any (·.contains c.start) then { p with regions := p.current forgets c }
  else ⟨p.current forgets c ++ [c.covers], some c.start, p.text ++ c.content ++ separator⟩

def run (forgets : Bool) (cs : List Chunk) : Pass := cs.foldl (step forgets) {}

/-- The outline that a pass writes. -/
def outline (forgets : Bool) (chunks : List Chunk) : String :=
  let out := (run forgets (chunks.mergeSort Chunk.le)).text
  if out.isEmpty then nothingFound else out

variable {p : Pass} {forgets : Bool} {r : Region}

theorem mem_current_iff : r ∈ p.current forgets c ↔ r ∈ p.regions ∧ (forgets = true → c.start < r.stop) := by
  unfold current
  cases forgets <;> simp

/-- A pass that has got to the offset `n` and has kept the given chunks. -/
structure Tracks (p : Pass) (kept : List Chunk) (n : Nat) : Prop where
  last : p.lastStart = kept.getLast?.map (·.start)
  text : p.text = String.join (kept.map (·.content ++ separator))
  ordered : kept.Pairwise fun a b => a.start ≤ b.start
  before : ∀ k ∈ kept, k.start ≤ n
  covers : ∀ r ∈ p.regions, ∃ k ∈ kept, k.covers = r
  /-- Only regions that are over may be missing. -/
  complete : ∀ k ∈ kept, n < k.covers.stop → k.covers ∈ p.regions

theorem tracks_nil (n : Nat) : Tracks {} [] n :=
  ⟨rfl, rfl, .nil, nofun, nofun, nofun⟩

/-- A chunk kept before has this start exactly when the last one has. -/
theorem Tracks.last_eq_iff (h : Tracks p ks n) (hn : n ≤ c.start) :
    p.lastStart = some c.start ↔ ∃ k ∈ ks, k.start = c.start := by
  rw [h.last]
  constructor
  · intro hlast
    obtain ⟨k, hk, hstart⟩ := Option.map_eq_some_iff.1 hlast
    exact ⟨k, List.mem_of_getLast? hk, hstart⟩
  · rintro ⟨k, hk, hstart⟩
    obtain ⟨front, last, rfl⟩ := (List.eq_nil_or_concat' ks).resolve_left (List.ne_nil_of_mem hk)
    have hle : k.start ≤ last.start := by
      rcases List.mem_append.1 hk with hk | hk
      · exact (List.pairwise_append.1 h.ordered).2.2 k hk last (List.mem_singleton_self last)
      · rw [List.mem_singleton.1 hk]
    have := h.before last (by simp)
    rw [List.getLast?_concat, Option.map_some, Option.some_inj]
    omega

/-- The decision on a chunk is the greedy one, whatever regions the pass has forgotten. -/
theorem Tracks.drops_iff (h : Tracks p ks n) (hn : n ≤ c.start) :
    p.drops forgets c = true ↔ ∃ k ∈ ks, k.AccountsFor c.start := by
  simp only [drops, Bool.or_eq_true, beq_iff_eq, h.last_eq_iff hn, List.any_eq_true, Chunk.AccountsFor]
  constructor
  · rintro (⟨k, hk, hstart⟩ | ⟨r, hr, hcontains⟩)
    · exact ⟨k, hk, .inl hstart⟩
    · obtain ⟨k, hk, rfl⟩ := h.covers r (mem_current_iff.1 hr).1
      exact ⟨k, hk, .inr hcontains⟩
  · rintro ⟨k, hk, hstart | hcontains⟩
    · exact .inl ⟨k, hk, hstart⟩
    · have hstop : c.start < k.covers.stop := ((Region.contains_iff _ _).1 hcontains).2
      exact .inr ⟨k.covers, mem_current_iff.2 ⟨h.complete k hk (by omega), fun _ => hstop⟩, hcontains⟩

theorem Tracks.mono {m : Nat} (h : Tracks p ks n) (hnm : n ≤ m) : Tracks p ks m :=
  { h with
    before := fun k hk => Nat.le_trans (h.before k hk) hnm
    complete := fun k hk hm => h.complete k hk (Nat.lt_of_le_of_lt hnm hm) }

/-- Going on to a chunk, a pass loses no region that is not over there. -/
theorem Tracks.current (h : Tracks p ks n) (hn : n ≤ c.start) :
    Tracks { p with regions := p.current forgets c } ks c.start :=
  { h.mono hn with
    covers := fun r hr => h.covers r (mem_current_iff.1 hr).1
    complete := fun k hk hstop => mem_current_iff.2 ⟨(h.mono hn).complete k hk hstop, fun _ => hstop⟩ }

theorem Tracks.step_of_dropped (h : Tracks p ks n) (hn : n ≤ c.start) (hdropped : p.drops forgets c = true) :
    Tracks (p.step forgets c) ks c.start := by
  unfold step
  split
  · exact h.mono hn
  · rename_i hlast
    have hany : ((p.current forgets c).any (·.contains c.start)) = true := by simpa [drops, hlast] using hdropped
    rw [if_pos hany]
    exact h.current hn

theorem Tracks.step_of_kept (h : Tracks p ks n) (hn : n ≤ c.start) (hkept : p.drops forgets c = false) :
    Tracks (p.step forgets c) (ks ++ [c]) c.start := by
  obtain ⟨hlast, hany⟩ := Bool.or_eq_false_iff.1 hkept
  have hcurrent : Tracks { p with regions := p.current forgets c } ks c.start := h.current hn
  simp only [step, hlast, hany, Bool.false_eq_true, if_false]
  refine ⟨?last, ?text, ?ordered, ?before, ?covers, ?complete⟩
  case last => rw [List.getLast?_concat, Option.map_some]
  case text => rw [h.text, List.map_append, String.join_append, List.map_singleton, String.join_cons,
    String.join_nil, String.append_empty, String.append_assoc]
  case ordered =>
    refine List.pairwise_append.2 ⟨h.ordered, List.pairwise_singleton _ c, fun k hk d hd => ?_⟩
    rw [List.mem_singleton.1 hd]
    exact hcurrent.before k hk
  case before =>
    intro k hk
    rcases List.mem_append.1 hk with hk | hk
    · exact hcurrent.before k hk
    · rw [List.mem_singleton.1 hk]
  case covers =>
    intro r hr
    rcases List.mem_append.1 hr with hr | hr
    · obtain ⟨k, hk, heq⟩ := hcurrent.covers r hr
      exact ⟨k, List.mem_append_left _ hk, heq⟩
    · exact ⟨c, by simp, (List.mem_singleton.1 hr).symm⟩
  case complete =>
    intro k hk hstop
    rcases List.mem_append.1 hk with hk | hk
    · exact List.mem_append_left _ (hcurrent.complete k hk hstop)
    · rw [List.mem_singleton.1 hk]
      exact List.mem_append_right _ (List.mem_singleton_self _)

/-- A pass over sorted chunks keeps what the greedy choice keeps. -/
theorem tracks_run (forgets : Bool) (h : Greedy cs ks) (hsorted : cs.Pairwise fun a b => a.start ≤ b.start)
    (hn : ∀ c ∈ cs, c.start ≤ n) : Tracks (run forgets cs) ks n := by
  induction h generalizing n with
  | nil => exact tracks_nil n
  | @keep cs ks c _ hfree ih =>
    obtain ⟨hfront, -, hlast⟩ := List.pairwise_append.1 hsorted
    have htracks := ih hfront fun d hd => hlast d hd c (List.mem_singleton_self c)
    have hkept : (run forgets cs).drops forgets c = false := by
      rw [Bool.eq_false_iff, Ne, htracks.drops_iff (Nat.le_refl _)]
      rintro ⟨k, hk, haccounts⟩
      exact hfree k hk haccounts
    rw [run, List.foldl_append]
    exact (htracks.step_of_kept (Nat.le_refl _) hkept).mono (hn c (by simp))
  | @drop cs ks c k _ hk haccounts ih =>
    obtain ⟨hfront, -, hlast⟩ := List.pairwise_append.1 hsorted
    have htracks := ih hfront fun d hd => hlast d hd c (List.mem_singleton_self c)
    have hdropped : (run forgets cs).drops forgets c = true := (htracks.drops_iff (Nat.le_refl _)).2 ⟨k, hk, haccounts⟩
    rw [run, List.foldl_append]
    exact (htracks.step_of_dropped (Nat.le_refl _) hdropped).mono (hn c (by simp))

theorem exists_le_start (cs : List Chunk) : ∃ n, ∀ c ∈ cs, c.start ≤ n :=
  ⟨(cs.map (·.start)).sum, fun _ hc => List.le_sum_of_mem (List.mem_map_of_mem hc)⟩

theorem outline_eq_assemble (forgets : Bool) (chunks : List Chunk) : outline forgets chunks = assemble chunks := by
  obtain ⟨n, hn⟩ := exists_le_start (chunks.mergeSort Chunk.le)
  have htracks := tracks_run forgets (greedy_select _) (sorted_starts chunks) hn
  rw [outline, htracks.text]
  rfl

end Pass

/-! ## Assembly -/

/-- What assembly makes of chunks: it puts them in order and keeps some of them. -/
structure Assembles (chunks ordered kept : List Chunk) : Prop where
  sorts : ∀ cs, Sorts chunks cs ↔ cs = ordered
  greedy : ∀ ks, Greedy ordered ks ↔ ks = kept
  increasing : kept.Pairwise fun a b => a.start < b.start
  disjoint : kept.Pairwise fun a b => ∀ n, ¬ (a.covers.contains n = true ∧ b.covers.contains n = true)
  /-- A pass decides on each chunk as the greedy choice does, whether or not it forgets the regions that are over. -/
  decisions : ∀ before c after ks, ordered = before ++ c :: after → Greedy before ks → ∀ forgets,
    ((Pass.run forgets before).drops forgets c = true ↔ ∃ k ∈ ks, k.AccountsFor c.start)
  passes : ∀ forgets, Pass.outline forgets chunks = assemble chunks
  text : assemble chunks = if kept = [] then nothingFound else String.join (kept.map (·.content ++ separator))
  nothing : assemble chunks = nothingFound ↔ chunks = []

/-- Assembly is the greedy choice from the chunks in their stable order, whatever their spans are. -/
theorem assembly_is_greedy (chunks : List Chunk) : Assembles chunks (chunks.mergeSort Chunk.le) (selected chunks) := by
  refine ⟨fun cs => sorts_iff, fun ks => greedy_iff, ?increasing, ?disjoint, ?decisions,
    fun forgets => Pass.outline_eq_assemble forgets chunks, assemble_eq chunks, assemble_eq_nothingFound_iff⟩
  case increasing => exact (selected_precedes chunks).imp And.left
  case disjoint => exact (selected_precedes chunks).imp Chunk.Precedes.disjoint
  case decisions =>
    intro before c after ks hsplit hgreedy forgets
    have hsorted := sorted_starts chunks
    rw [hsplit] at hsorted
    obtain ⟨hbefore, -, hlast⟩ := List.pairwise_append.1 hsorted
    have htracks := Pass.tracks_run forgets hgreedy hbefore fun d hd => hlast d hd c List.mem_cons_self
    exact htracks.drops_iff (Nat.le_refl _)

end PromptPack.Outline
