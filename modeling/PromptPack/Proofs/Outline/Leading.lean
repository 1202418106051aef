import Mathlib
import PromptPack.Proofs.Outline.Greedy
import PromptPack.Proofs.Outline.Repeats
import PromptPack.Proofs.Outline.Shown
/-!
# Chunks that lead

Of the chunks of a kind some lead if each of the others starts in one of them, behind it in the order of assembly, and
no chunk of another kind accounts for where one of them starts. Then they are what an outline shows of the kind
(`selected_filter_eq`).
-/

namespace PromptPack.Outline

variable {chunks cs kept leaders : List Chunk} {c m : Chunk} {p : Chunk → Bool}

/-- The chunk comes before the other in the order of assembly, and covers where that one starts. -/
structure Chunk.Leads (m c : Chunk) : Prop where
  before : c.le m = false
  accountsFor : m.AccountsFor c.start

/-- The chunks lead all those of the kind. -/
structure Lead (p : Chunk → Bool) (chunks leaders : List Chunk) : Prop where
  mem : ∀ m ∈ leaders, m ∈ chunks ∧ p m = true
  apart : leaders.Pairwise Chunk.Precedes
  leads : ∀ c ∈ chunks, p c = true → c ∈ leaders ∨ ∃ m ∈ leaders, m.Leads c
  free : ∀ c ∈ chunks, p c = false → ∀ m ∈ leaders, ¬ c.AccountsFor m.start

/-- While chunks are selected: the leaders that are still to come, behind chunks kept that account for none of them. -/
structure Awaits (p : Chunk → Bool) (kept cs leaders : List Chunk) : Prop where
  sorted : cs.Pairwise fun a b => a.le b = true
  mem : ∀ m ∈ leaders, m ∈ cs ∧ p m = true
  apart : leaders.Pairwise Chunk.Precedes
  leads : ∀ c ∈ cs, p c = true → c ∈ leaders ∨ (∃ m ∈ leaders, m.Leads c) ∨ ∃ k ∈ kept, k.AccountsFor c.start
  free : ∀ c ∈ cs, p c = false → ∀ m ∈ leaders, ¬ c.AccountsFor m.start
  kept : ∀ k ∈ kept, ∀ m ∈ leaders, ¬ k.AccountsFor m.start

namespace Awaits

/-- A chunk that is dropped is no leader. -/
theorem of_dropped {k : Chunk} (h : Awaits p kept (c :: cs) leaders) (hk : k ∈ kept) (hdropped : k.AccountsFor c.start) :
    Awaits p kept cs leaders where
  sorted := (List.pairwise_cons.1 h.sorted).2
  mem m hm := by
    refine ⟨?_, (h.mem m hm).2⟩
    rcases List.mem_cons.1 (h.mem m hm).1 with rfl | hmem
    · exact absurd hdropped (h.kept k hk m hm)
    · exact hmem
  apart := h.apart
  leads d hd := h.leads d (List.mem_cons_of_mem _ hd)
  free d hd := h.free d (List.mem_cons_of_mem _ hd)
  kept := h.kept

/-- A chunk of another kind is kept and changes nothing. -/
theorem of_other (h : Awaits p kept (c :: cs) leaders) (hp : p c = false) : Awaits p (c :: kept) cs leaders where
  sorted := (List.pairwise_cons.1 h.sorted).2
  mem m hm := by
    refine ⟨?_, (h.mem m hm).2⟩
    rcases List.mem_cons.1 (h.mem m hm).1 with rfl | hmem
    · rw [(h.mem m hm).2] at hp
      cases hp
    · exact hmem
  apart := h.apart
  leads d hd hpd := by
    refine (h.leads d (List.mem_cons_of_mem _ hd) hpd).imp_right (Or.imp_right ?_)
    rintro ⟨k, hk, haccounts⟩
    exact ⟨k, List.mem_cons_of_mem _ hk, haccounts⟩
  free d hd := h.free d (List.mem_cons_of_mem _ hd)
  kept := List.forall_mem_cons.2 ⟨h.free c List.mem_cons_self hp, h.kept⟩

/-- A chunk of the kind that is kept is the first of the leaders. -/
theorem exists_eq_cons (h : Awaits p kept (c :: cs) leaders) (hp : p c = true)
    (hnew : ∀ k ∈ kept, ¬ k.AccountsFor c.start) : ∃ later, leaders = c :: later := by
  have hfirst := (List.pairwise_cons.1 h.sorted).1
  have hc : c ∈ leaders := by
    rcases h.leads c List.mem_cons_self hp with hc | ⟨m, hm, hleads⟩ | ⟨k, hk, haccounts⟩
    · exact hc
    · rcases List.mem_cons.1 (h.mem m hm).1 with rfl | hmem
      · exact hm
      · have hbefore := hleads.before
        rw [hfirst m hmem] at hbefore
        cases hbefore
    · exact absurd haccounts (hnew k hk)
  obtain ⟨m, later, rfl⟩ := List.exists_cons_of_ne_nil (List.ne_nil_of_mem hc)
  rcases List.mem_cons.1 hc with rfl | hlater
  · exact ⟨later, rfl⟩
  · -- No other leader can come before it.
    rcases List.mem_cons.1 (h.mem m List.mem_cons_self).1 with rfl | hm
    · exact ⟨later, rfl⟩
    · have hlt := ((List.pairwise_cons.1 h.apart).1 c hlater).1
      have hle := Chunk.start_le_of_le (hfirst m hm)
      omega

theorem of_leader {later : List Chunk} (h : Awaits p kept (c :: cs) (c :: later)) : Awaits p (c :: kept) cs later where
  sorted := (List.pairwise_cons.1 h.sorted).2
  mem m hm := by
    refine ⟨?_, (h.mem m (List.mem_cons_of_mem _ hm)).2⟩
    rcases List.mem_cons.1 (h.mem m (List.mem_cons_of_mem _ hm)).1 with rfl | hmem
    · exact absurd ((List.pairwise_cons.1 h.apart).1 m hm).1 (Nat.lt_irrefl _)
    · exact hmem
  apart := (List.pairwise_cons.1 h.apart).2
  leads d hd hpd := by
    -- What the leader led is accounted for once the leader is kept.
    rcases h.leads d (List.mem_cons_of_mem _ hd) hpd with hd | ⟨m, hm, hleads⟩ | ⟨k, hk, haccounts⟩
    · rcases List.mem_cons.1 hd with rfl | hd
      · exact .inr (.inr ⟨d, List.mem_cons_self, d.accountsFor_start⟩)
      · exact .inl hd
    · rcases List.mem_cons.1 hm with rfl | hm
      · exact .inr (.inr ⟨m, List.mem_cons_self, hleads.accountsFor⟩)
      · exact .inr (.inl ⟨m, hm, hleads⟩)
    · exact .inr (.inr ⟨k, List.mem_cons_of_mem _ hk, haccounts⟩)
  free d hd hpd m hm := h.free d (List.mem_cons_of_mem _ hd) hpd m (List.mem_cons_of_mem _ hm)
  kept := List.forall_mem_cons.2
    ⟨fun m hm haccounts => ((List.pairwise_cons.1 h.apart).1 m hm).not_accountsFor haccounts m.accountsFor_start,
      fun k hk m hm => h.kept k hk m (List.mem_cons_of_mem _ hm)⟩

/-- Of the kind, the leaders are selected. -/
theorem select_filter_eq (h : Awaits p kept cs leaders) : (select kept cs).filter p = leaders := by
  induction cs generalizing kept leaders with
  | nil => exact (List.eq_nil_iff_forall_not_mem.2 fun m hm => nomatch (h.mem m hm).1).symm
  | cons c cs ih =>
    rw [select]
    split
    · rename_i hdropped
      obtain ⟨k, hk, haccounts⟩ := dropped_iff.1 hdropped
      exact ih (h.of_dropped hk haccounts)
    · rename_i hkept
      have hnew : ∀ k ∈ kept, ¬ k.AccountsFor c.start := fun k hk haccounts => hkept (dropped_iff.2 ⟨k, hk, haccounts⟩)
      cases hp : p c with
      | false => rw [List.filter_cons_of_neg (by simp [hp]), ih (h.of_other hp)]
      | true =>
        obtain ⟨later, rfl⟩ := h.exists_eq_cons hp hnew
        rw [List.filter_cons_of_pos hp, ih h.of_leader]

end Awaits

/-- Of a kind, an outline shows the chunks that lead. -/
theorem selected_filter_eq (h : Lead p chunks leaders) : (selected chunks).filter p = leaders := by
  refine Awaits.select_filter_eq ⟨List.pairwise_mergeSort Chunk.le_trans Chunk.le_total chunks,
    fun m hm => ⟨List.mem_mergeSort.2 (h.mem m hm).1, (h.mem m hm).2⟩, h.apart, fun c hc hp => ?_,
    fun c hc => h.free c (List.mem_mergeSort.1 hc), nofun⟩
  exact (h.leads c (List.mem_mergeSort.1 hc) hp).imp_right .inl

/-- A chunk that leads all others is the outline. -/
theorem assemble_of_lead (h : Lead (fun _ => true) chunks [m]) : assemble chunks = m.content ++ separator := by
  have hselected : selected chunks = [m] := by
    have hfilter := selected_filter_eq h
    rwa [List.filter_true] at hfilter
  rw [assemble_eq, hselected, if_neg (List.cons_ne_nil m [])]
  simp [String.join]

/-! ## Chunks of hits -/

variable {language : Language} {source : List Char} {hits : List Hit} {h : Hit}

theorem exists_hit_of_mem_chunksOf (hc : c ∈ chunksOf language source (distinctHits hits)) :
    ∃ h ∈ hits, h.chunk? language source = some c := by
  obtain ⟨h, hh, hchunk⟩ := List.mem_filterMap.1 hc
  rw [distinctHits_eq] at hh
  exact ⟨h, (keepsFirsts_firsts Hit.key hits).sublist.subset hh, hchunk⟩

/-- A hit has its chunk among those of the distinct hits, if no other hit shares its key. -/
theorem mem_chunksOf_distinctHits (hh : h ∈ hits) (hkey : ∀ g ∈ hits, g.key = h.key → g = h)
    (hchunk : h.chunk? language source = some c) : c ∈ chunksOf language source (distinctHits hits) := by
  refine List.mem_filterMap.2 ⟨h, ?_, hchunk⟩
  rw [distinctHits_eq]
  have hfirst := (keepsFirsts_firsts Hit.key hits).first h.key
  obtain ⟨g, hg⟩ : ∃ g, hits.find? (·.key == h.key) = some g :=
    Option.isSome_iff_exists.1 (List.find?_isSome.2 ⟨h, hh, beq_self_eq_true h.key⟩)
  obtain rfl := hkey g (List.mem_of_find?_eq_some hg) (by simpa using List.find?_some hg)
  exact List.mem_of_find?_eq_some (hfirst.trans hg)

/-- The chunk of a hit stands for its node. -/
theorem chunk?_place (hc : h.chunk? language source = some c) : c.start = h.node.start ∧ c.stop = h.node.stop := by
  obtain ⟨shown, hshows⟩ := exists_shows hc
  cases hshows <;> exact ⟨rfl, rfl⟩

theorem verbatimChunk?_shape {node : Region} (hc : verbatimChunk? source node = some c) : c.shape = .verbatim := by
  unfold verbatimChunk? at hc
  split at hc
  · cases hc
  · dsimp only at hc
    split at hc
    · cases hc
    · cases hc
      rfl

end PromptPack.Outline
