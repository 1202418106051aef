import Mathlib
import PromptPack.Outline.Compress
import PromptPack.Proofs.Outline.Shown
import PromptPack.Proofs.Outline.Slices
/-!
# Headers of containers

A chunk that is left out of an outline is accounted for by a chunk of it, and by one only
(`existsUnique_accountsFor`). The outline of a container accounts for all up to the body, but what it shows
may end before: then it alone hides what starts in between (`outline_hides_only_header_iff`). Where the
header ends at the body there are only blanks in between; a header that ends at a colon may have a
comment there.
-/

namespace PromptPack.Outline

variable {chunks : List Chunk} {c k : Chunk} {n : Nat}

/-! ## What accounts for an offset -/

/-- The chunk starts at the offset or covers it: no other chunk that starts there is kept behind it. -/
def Chunk.AccountsFor (c : Chunk) (n : Nat) : Prop := c.start = n ∨ c.covers.contains n = true

theorem Chunk.accountsFor_iff : c.AccountsFor n ↔ c.start ≤ n ∧ n < max c.covers.stop (c.start + 1) := by
  rw [AccountsFor, Region.contains_iff, Chunk.covers_start]
  omega

theorem Chunk.accountsFor_start (c : Chunk) : c.AccountsFor c.start := .inl rfl

theorem Chunk.Precedes.not_accountsFor {a b : Chunk} (h : a.Precedes b) (ha : a.AccountsFor n) : ¬ b.AccountsFor n := by
  rw [Chunk.accountsFor_iff] at *
  have := h.1
  have := h.2
  omega

/-- Selection goes on until every chunk is accounted for. -/
theorem select_accountsFor (kept cs : List Chunk) (hc : c ∈ cs) :
    ∃ k ∈ kept ++ select kept cs, k.AccountsFor c.start := by
  induction cs generalizing kept with
  | nil => cases hc
  | cons d cs ih =>
    unfold select
    split
    · rename_i hdropped
      rcases List.mem_cons.1 hc with rfl | hc
      · obtain ⟨k, hk, hcovers⟩ := List.any_eq_true.1 hdropped
        rw [Bool.or_eq_true, beq_iff_eq] at hcovers
        exact ⟨k, List.mem_append_left _ hk, hcovers⟩
      · exact ih kept hc
    · rcases List.mem_cons.1 hc with rfl | hc
      · exact ⟨c, by simp, c.accountsFor_start⟩
      · obtain ⟨k, hk, haccounts⟩ := ih (d :: kept) hc
        exact ⟨k, by simpa [or_left_comm] using hk, haccounts⟩

theorem eq_of_accountsFor {a b : Chunk} (ha : a ∈ selected chunks) (hb : b ∈ selected chunks)
    (hna : a.AccountsFor n) (hnb : b.AccountsFor n) : a = b := by
  have h := List.Pairwise.forall_of_forall_of_flip
    (R := fun a b : Chunk => a.AccountsFor n → b.AccountsFor n → a = b) (fun _ _ _ _ => rfl)
    ((selected_precedes chunks).imp fun h ha hb => absurd hb (h.not_accountsFor ha))
    ((selected_precedes chunks).imp fun h hb ha => absurd hb (h.not_accountsFor ha))
  exact h ha hb hna hnb

/-- Every chunk found starts at an offset that exactly one chunk of the outline accounts for. -/
theorem existsUnique_accountsFor (hc : c ∈ chunks) : ∃! k, k ∈ selected chunks ∧ k.AccountsFor c.start := by
  obtain ⟨k, hk, haccounts⟩ := select_accountsFor [] _ (List.mem_mergeSort.2 hc)
  exact ⟨k, ⟨hk, haccounts⟩, fun k' hk' => eq_of_accountsFor hk'.1 hk hk'.2 haccounts⟩

/-- A chunk is hidden by others than `o`, if at all, exactly when `o` does not account for its start. -/
theorem hidden_by_others_iff {o : Chunk} (ho : o ∈ selected chunks) (hc : c ∈ chunks) (hne : c ≠ o) :
    (c ∉ selected chunks → ∃ k ∈ selected chunks, k ≠ o ∧ k.AccountsFor c.start) ↔ ¬ o.AccountsFor c.start := by
  obtain ⟨k, ⟨hk, haccounts⟩, hunique⟩ := existsUnique_accountsFor hc
  constructor
  · intro h hoc
    by_cases hkept : c ∈ selected chunks
    · exact hne (eq_of_accountsFor hkept ho c.accountsFor_start hoc)
    · obtain ⟨k', hk', hneo, haccounts'⟩ := h hkept
      exact hneo (eq_of_accountsFor hk' ho haccounts' hoc)
  · rintro hoc -
    exact ⟨k, hk, fun heq => hoc (heq ▸ haccounts), haccounts⟩

/-! ## Behind the header -/

/-- Each chunk that starts in the range and is left out is accounted for by another chunk than `o`. -/
def HidesNothingIn (chunks : List Chunk) (o : Chunk) (r : Region) : Prop :=
  ∀ c ∈ chunks, r.contains c.start = true → c ∉ selected chunks → ∃ k ∈ selected chunks, k ≠ o ∧ k.AccountsFor c.start

section

variable {language : Language} {source : List Char} {hits : List Hit} {h : Hit} {o : Chunk} {shown : Region}
  {bodyStart : Nat}

theorem Hit.Shows.start_le_textStop (hs : h.Shows language source o shown) : o.start ≤ shown.textStop source := by
  cases hs <;> exact Nat.le_add_right _ _

theorem Hit.Shows.exists_slice (hs : h.Shows language source o shown) :
    ∃ text, slice? source shown.start shown.stop = some text := by
  cases hs with
  | whole htext => exact ⟨_, htext⟩
  | signature _ _ _ htext => exact ⟨_, htext⟩

/-- The outline of a container hides nothing behind the text of the header that it shows exactly when no
other chunk starts behind that text and before the body. -/
theorem outline_hides_only_header_iff {language : Language} {source : List Char} {hits : List Hit} {h : Hit}
    {o : Chunk} {shown : Region} {bodyStart : Nat} (ho : o ∈ selected (chunksOf language source hits))
    (hs : h.Shows language source o shown) (hshape : o.shape = .outline bodyStart) :
    HidesNothingIn (chunksOf language source hits) o ⟨shown.textStop source, h.node.stop⟩ ↔
      ∀ c ∈ chunksOf language source hits, c ≠ o → shown.textStop source ≤ c.start → c.start < h.node.stop →
        max bodyStart (o.start + 1) ≤ c.start := by
  have hstart := hs.start_le_textStop
  have hcovers : o.covers.stop = max bodyStart (o.start + 1) := by rw [Chunk.covers, hshape]
  have hnot {c : Chunk} (htext : shown.textStop source ≤ c.start) :
      ¬ o.AccountsFor c.start ↔ max bodyStart (o.start + 1) ≤ c.start := by
    rw [Chunk.accountsFor_iff, hcovers]
    omega
  constructor
  · intro hhides c hc hne htext hnode
    have hin : Region.contains ⟨shown.textStop source, h.node.stop⟩ c.start = true :=
      (Region.contains_iff _ _).2 ⟨htext, hnode⟩
    exact (hnot htext).1 ((hidden_by_others_iff ho hc hne).1 (hhides c hc hin))
  · intro hgap c hc hin hleft
    obtain ⟨htext, hnode⟩ := (Region.contains_iff _ _).1 hin
    have hne : c ≠ o := fun heq => hleft (heq ▸ ho)
    exact (hidden_by_others_iff ho hc hne).2 ((hnot htext).2 (hgap c hc hne htext hnode)) hleft

/-- A header is shown up to the body in all languages but one. -/
theorem Hit.Shows.stop_eq (hs : h.Shows language source o shown) (hshape : o.shape = .outline bodyStart)
    (hlanguage : language ≠ .python) : shown.stop = bodyStart := by
  cases hs with
  | whole => cases hshape
  | @signature body text shape hbody _ _ _ hshape' =>
    obtain rfl : shape = .outline bodyStart := hshape
    rcases hshape' with hshape' | hshape'
    · cases hshape'
    · cases hshape'
      unfold Hit.signatureEnd
      split
      · exact absurd rfl hlanguage
      · rfl

/-- The outline of a container whose header is shown up to the body hides nothing behind it, as long as every
chunk starts with a character that is not blank. -/
theorem outline_hides_only_header_of_visible (ho : o ∈ selected (chunksOf language source hits))
    (hs : h.Shows language source o shown) (hshape : o.shape = .outline bodyStart) (hstop : shown.stop = bodyStart)
    (hvisible : ∀ c ∈ chunksOf language source hits, VisibleAt source c.start) :
    HidesNothingIn (chunksOf language source hits) o ⟨shown.textStop source, h.node.stop⟩ := by
  rw [outline_hides_only_header_iff ho hs hshape]
  intro c hc _ htext _
  obtain ⟨text, hslice⟩ := hs.exists_slice
  obtain ⟨-, blanks, hblanks, hall⟩ := slice?_textStop hslice
  have hlt := hs.start_lt_stop
  have hstart : o.start = shown.start := by cases hs <;> rfl
  by_contra hbefore
  have hbody : c.start < shown.stop := by
    have := hs.start_le_textStop
    omega
  exact not_visibleAt_of_blanks hblanks hall htext hbody (hvisible c hc)

end

/-! ## A comment behind the colon -/

/-- A class with a comment between its colon and its first statement. -/
def commentBehindColon : List Char := "class A: # a\n pass".toList

/-- The hits that reading it gives. -/
def hitsBehindColon : List Hit := distinctHits (hitsOf .python commentBehindColon)

def classHit : Hit := ⟨6, .header, ⟨0, 18⟩, some ⟨14, 18⟩, some 8⟩

def classOutline : Chunk := ⟨"class A: \x7b ... \x7d # Body removed", 0, 18, .outline 14⟩

def commentChunk : Chunk := ⟨"# a", 9, 12, .verbatim⟩

theorem hits_behind_colon : hitsBehindColon = [Hit.whole 3 9 12, classHit] := by decide +kernel

theorem chunks_behind_colon :
    chunksOf .python commentBehindColon hitsBehindColon = [commentChunk, classOutline] := by decide +kernel

theorem selected_behind_colon :
    selected (chunksOf .python commentBehindColon hitsBehindColon) = [classOutline] := by
  rw [chunks_behind_colon]
  cbv

theorem classHit_shows : classHit.Shows .python commentBehindColon classOutline ⟨0, 8⟩ :=
  @Hit.Shows.signature .python commentBehindColon classHit ⟨14, 18⟩ "class A:".toList (.outline 14) rfl (by decide)
    (by decide) (by decide +kernel) (.inr rfl)

theorem outline_hides_only_header_iff_at_class :
    classOutline ∈ selected (chunksOf .python commentBehindColon hitsBehindColon) ∧
      classHit.Shows .python commentBehindColon classOutline ⟨0, 8⟩ ∧ classOutline.shape = .outline 14 ∧
      (HidesNothingIn (chunksOf .python commentBehindColon hitsBehindColon) classOutline
          ⟨Region.textStop commentBehindColon ⟨0, 8⟩, 18⟩ ↔
        ∀ c ∈ chunksOf .python commentBehindColon hitsBehindColon, c ≠ classOutline →
          Region.textStop commentBehindColon ⟨0, 8⟩ ≤ c.start → c.start < 18 → max 14 1 ≤ c.start) := by
  have hkept : classOutline ∈ selected (chunksOf .python commentBehindColon hitsBehindColon) := by
    rw [selected_behind_colon]
    exact List.mem_singleton_self _
  exact ⟨hkept, classHit_shows, rfl, outline_hides_only_header_iff hkept classHit_shows rfl⟩

/-- A comment between the colon of a class and its first statement is in no chunk of the outline, for no
better reason than that the class itself accounts for it. -/
theorem comment_behind_colon_is_hidden :
    classHit ∈ hitsBehindColon ∧ classHit.Shows .python commentBehindColon classOutline ⟨0, 8⟩ ∧
      classOutline ∈ selected (chunksOf .python commentBehindColon hitsBehindColon) ∧
      commentChunk ∈ chunksOf .python commentBehindColon hitsBehindColon ∧
      Region.textStop commentBehindColon ⟨0, 8⟩ ≤ commentChunk.start ∧ commentChunk.start < classHit.node.stop ∧
      commentChunk ∉ selected (chunksOf .python commentBehindColon hitsBehindColon) ∧
      ∀ k ∈ selected (chunksOf .python commentBehindColon hitsBehindColon), k ≠ classOutline →
        ¬ k.AccountsFor commentChunk.start := by
  have htext : Region.textStop commentBehindColon ⟨0, 8⟩ = 8 := by decide +kernel
  rw [selected_behind_colon, chunks_behind_colon, hits_behind_colon, htext]
  refine ⟨by simp, classHit_shows, by simp, by simp, by decide, by decide, by decide, fun k hk hne => ?_⟩
  exact absurd (List.mem_singleton.1 hk) hne

end PromptPack.Outline
