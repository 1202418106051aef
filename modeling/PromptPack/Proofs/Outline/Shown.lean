import PromptPack.Outline.Hit
import PromptPack.Proofs.Outline.Assembly
/-!
# What an outline shows of its source

Each block of an outline is the text of one range of the source, trimmed, with a placeholder behind
it where a body was left out. The range lies in the region that the block's chunk covers, and the
covered regions of an outline follow one another (`selected_precedes`). So no part of the source
is shown twice or out of order, and nothing of a body that was left out is shown at all.
-/

namespace PromptPack.Outline

open Text

variable {language : Language} {source : List Char}

theorem slice?_eq_nil {text : List Char} {start stop : Nat} (h : slice? source start stop = some text)
    (hle : stop ≤ start) : text = [] := by
  fun_induction slice? source start stop generalizing text <;> simp_all

/-! ## The block of a hit -/

/-- A block of an outline: its chunk, and the range of the source that it shows. -/
structure Block where
  chunk : Chunk
  shown : Region
  deriving DecidableEq, Repr

/-- The chunk that a hit becomes and the range of the source that the chunk shows. -/
inductive Hit.Shows (language : Language) (source : List Char) (h : Hit) : Chunk → Region → Prop
  /-- The whole node, trimmed. -/
  | whole {text : List Char} : slice? source h.node.start h.node.stop = some text → trimChars text ≠ [] →
      Hit.Shows language source h ⟨String.ofList (trimChars text), h.node.start, h.node.stop, .verbatim⟩ h.node
  /-- The signature of a definition, trimmed, with a placeholder for its body. -/
  | signature {body : Region} {text : List Char} {shape : Shape} : h.body = some body →
      h.node.start < h.signatureEnd language body → h.signatureEnd language body ≤ h.node.stop →
      slice? source h.node.start (h.signatureEnd language body) = some text →
      shape = .elided ∨ shape = .outline body.start →
      Hit.Shows language source h
        ⟨String.ofList (trimChars text) ++ language.placeholder, h.node.start, h.node.stop, shape⟩
        ⟨h.node.start, h.signatureEnd language body⟩

theorem exists_shows_of_verbatimChunk? {h : Hit} {c : Chunk} (hc : verbatimChunk? source h.node = some c) :
    ∃ shown, h.Shows language source c shown := by
  unfold verbatimChunk? at hc
  split at hc
  · cases hc
  · rename_i text htext
    dsimp only at hc
    split at hc
    · cases hc
    · rename_i hne
      cases hc
      exact ⟨h.node, .whole htext (by simpa using hne)⟩

theorem exists_shows_of_definitionChunk? {h : Hit} {shape : Region → Shape} {c : Chunk}
    (hshape : ∀ body, shape body = .elided ∨ shape body = .outline body.start)
    (hc : definitionChunk? language source h shape = some c) : ∃ shown, h.Shows language source c shown := by
  unfold definitionChunk? at hc
  split at hc
  · exact exists_shows_of_verbatimChunk? hc
  · rename_i body hbody
    dsimp only at hc
    split at hc
    · exact exists_shows_of_verbatimChunk? hc
    · rename_i hin
      simp only [Bool.or_eq_true, decide_eq_true_eq, not_or, Nat.not_le, Nat.not_lt] at hin
      obtain ⟨text, htext, rfl⟩ := Option.map_eq_some_iff.1 hc
      exact ⟨_, .signature hbody hin.1 hin.2 htext (hshape body)⟩

/-- Every chunk of a hit shows a range of the source. -/
theorem exists_shows {h : Hit} {c : Chunk} (hc : h.chunk? language source = some c) :
    ∃ shown, h.Shows language source c shown := by
  unfold Hit.chunk? at hc
  split at hc
  · exact exists_shows_of_verbatimChunk? hc
  · exact exists_shows_of_definitionChunk? (fun _ => .inl rfl) hc
  · exact exists_shows_of_definitionChunk? (fun _ => .inr rfl) hc

theorem Hit.Shows.start_lt_stop {h : Hit} {c : Chunk} {shown : Region} (hs : h.Shows language source c shown) :
    shown.start < shown.stop := by
  cases hs with
  | @whole text htext hne =>
    rcases Nat.lt_or_ge h.node.start h.node.stop with hlt | hge
    · exact hlt
    · exact absurd (by rw [slice?_eq_nil htext hge]; rfl) hne
  | signature _ hlt => exact hlt

/-! ## The range shown and the region covered -/

/-- The colon that closes a header stands in front of the body. -/
def Hit.ColonBeforeBody (language : Language) (h : Hit) : Prop :=
  language = .python → ∀ colon body, h.colon = some colon → h.body = some body → colon ≤ body.start

theorem Hit.ColonBeforeBody.signatureEnd_le {h : Hit} (hcolon : h.ColonBeforeBody language) {body : Region}
    (hbody : h.body = some body) : h.signatureEnd language body ≤ body.start := by
  unfold Hit.signatureEnd
  split
  · rename_i colon hc
    exact hcolon rfl colon body hc hbody
  · exact Nat.le_refl _

/-- A chunk shows nothing outside the region that it covers. -/
theorem Hit.Shows.within_covers {h : Hit} {c : Chunk} {shown : Region} (hs : h.Shows language source c shown)
    (hcolon : h.ColonBeforeBody language) : shown.start = c.start ∧ shown.stop ≤ c.covers.stop := by
  cases hs with
  | whole => exact ⟨rfl, Nat.le_refl _⟩
  | signature hbody _ hstop _ hshape =>
    refine ⟨rfl, ?_⟩
    rcases hshape with rfl | rfl
    · exact hstop
    · exact Nat.le_trans (hcolon.signatureEnd_le hbody) (Nat.le_max_left _ _)

/-! ## Outlines -/

theorem exists_blocks {P : Block → Prop} (chunks : List Chunk) (h : ∀ c ∈ chunks, ∃ shown, P ⟨c, shown⟩) :
    ∃ blocks : List Block, blocks.map Block.chunk = chunks ∧ ∀ b ∈ blocks, P b := by
  induction chunks with
  | nil => exact ⟨[], rfl, by simp⟩
  | cons c chunks ih =>
    obtain ⟨shown, hc⟩ := h c (by simp)
    obtain ⟨blocks, rfl, hblocks⟩ := ih fun d hd => h d (by simp [hd])
    exact ⟨⟨c, shown⟩ :: blocks, rfl, by simpa using ⟨hc, hblocks⟩⟩

/-- The part of an elided definition that its block leaves out. -/
def Block.hidden (b : Block) : Region := ⟨b.shown.stop, b.chunk.stop⟩

/-- A block shows a range that is not empty and lies in the region covered. -/
structure Block.Sound (b : Block) : Prop where
  start_lt_stop : b.shown.start < b.shown.stop
  start_eq : b.shown.start = b.chunk.start
  stop_le : b.shown.stop ≤ b.chunk.covers.stop

theorem Block.Sound.stop_le_start {a b : Block} (ha : a.Sound) (hb : b.Sound) (h : a.chunk.Precedes b.chunk) :
    a.shown.stop ≤ b.shown.start := by
  have := ha.stop_le
  have := hb.start_eq
  have := h.2
  omega

/-- No block shows anything of what an elided definition of the same outline hides. -/
theorem Block.Sound.not_hidden {a b : Block} (ha : a.Sound) (hb : b.Sound) (helided : a.chunk.shape = .elided)
    (h : a = b ∨ a.chunk.Precedes b.chunk ∨ b.chunk.Precedes a.chunk) (n : Nat) :
    ¬ (b.shown.contains n = true ∧ a.hidden.contains n = true) := by
  simp only [Region.contains_iff, Block.hidden]
  rintro ⟨⟨hstart, hstop⟩, hfrom, hto⟩
  -- What `a` hides lies behind its own range, and in the region that a later block stays behind.
  rcases h with rfl | h | h
  · omega
  · have hcovers : a.chunk.covers.stop = a.chunk.stop := by rw [Chunk.covers, helided]
    have := h.2
    have := hb.start_eq
    omega
  · have := hb.stop_le_start ha h
    have := ha.start_lt_stop
    omega

theorem eq_or_precedes {blocks : List Block} (h : blocks.Pairwise (fun a b => a.chunk.Precedes b.chunk))
    {a b : Block} (ha : a ∈ blocks) (hb : b ∈ blocks) :
    a = b ∨ a.chunk.Precedes b.chunk ∨ b.chunk.Precedes a.chunk :=
  List.Pairwise.forall_of_forall_of_flip
    (R := fun a b : Block => a = b ∨ a.chunk.Precedes b.chunk ∨ b.chunk.Precedes a.chunk)
    (fun _ _ => .inl rfl) (h.imp fun h => .inr (.inl h)) (h.imp fun h => .inr (.inr h)) ha hb

/-- The blocks that an outline is made of. -/
structure Layout (language : Language) (source : List Char) (hits : List Hit) (blocks : List Block) : Prop where
  /-- There is one block for each chunk kept. -/
  chunks : blocks.map Block.chunk = selected (chunksOf language source hits)
  /-- The outline is the text of the blocks, each with a separator behind it. -/
  text : assemble (chunksOf language source hits) =
    if blocks = [] then nothingFound else String.join (blocks.map (·.chunk.content ++ separator))
  /-- Each block comes from a hit and shows a range of the source. -/
  shows : ∀ b ∈ blocks, ∃ h ∈ hits, h.Shows language source b.chunk b.shown
  nonempty : ∀ b ∈ blocks, b.shown.start < b.shown.stop
  /-- The ranges follow one another. -/
  ordered : blocks.Pairwise (fun a b => a.shown.stop ≤ b.shown.start)
  /-- What an elided definition hides is not shown by any block. -/
  hidden : ∀ a ∈ blocks, a.chunk.shape = .elided →
    ∀ b ∈ blocks, ∀ n, ¬ (b.shown.contains n = true ∧ a.hidden.contains n = true)

/-- Every outline made of hits shows disjoint ranges of its source in the order of the source, and
nothing of an elided body. -/
theorem outline_shows_disjoint_ranges (language : Language) (source : List Char) (hits : List Hit)
    (hcolon : ∀ h ∈ hits, h.ColonBeforeBody language) : ∃ blocks, Layout language source hits blocks := by
  obtain ⟨blocks, hmap, hshows⟩ := exists_blocks
    (P := fun b => ∃ h ∈ hits, h.Shows language source b.chunk b.shown)
    (selected (chunksOf language source hits)) fun c hc => by
      obtain ⟨h, hh, hchunk⟩ := List.mem_filterMap.1 (mem_of_mem_selected hc)
      obtain ⟨shown, hs⟩ := exists_shows hchunk
      exact ⟨shown, h, hh, hs⟩
  -- From here on only the spans of the blocks matter, not the hits that they come from.
  have hsound : ∀ b ∈ blocks, b.Sound := by
    intro b hb
    obtain ⟨h, hh, hs⟩ := hshows b hb
    obtain ⟨hstart, hstop⟩ := hs.within_covers (hcolon h hh)
    exact ⟨hs.start_lt_stop, hstart, hstop⟩
  have hprecedes : blocks.Pairwise (fun a b => a.chunk.Precedes b.chunk) := by
    rw [← List.pairwise_map, hmap]
    exact selected_precedes _
  refine ⟨blocks, hmap, ?_, hshows, fun b hb => (hsound b hb).start_lt_stop, ?_, ?_⟩
  · rw [assemble_eq, ← hmap, List.map_map]
    simp only [List.map_eq_nil_iff, Function.comp_def]
  · exact hprecedes.imp_of_mem fun ha hb h => (hsound _ ha).stop_le_start (hsound _ hb) h
  · intro a ha helided b hb
    exact (hsound a ha).not_hidden (hsound b hb) helided (eq_or_precedes hprecedes ha hb)

/-- A class with a comment behind its colon, and a method with one in its body. -/
theorem outline_of_class_shows_disjoint_ranges :
    let source := "class A:\n # a\n def f():\n  # b\n  pass".toList
    let hits : List Hit := [⟨6, .header, ⟨0, 36⟩, some ⟨15, 36⟩, some 8⟩, Hit.whole 3 10 13,
      ⟨5, .signature, ⟨15, 36⟩, some ⟨32, 36⟩, some 23⟩, Hit.whole 3 26 29]
    (∀ h ∈ hits, h.ColonBeforeBody .python) ∧ ∃ blocks, Layout .python source hits blocks := by
  intro source hits
  have hcolon : ∀ h ∈ hits, h.ColonBeforeBody .python := by
    simp [hits, Hit.ColonBeforeBody, Hit.whole]
  exact ⟨hcolon, outline_shows_disjoint_ranges .python source hits hcolon⟩

end PromptPack.Outline
