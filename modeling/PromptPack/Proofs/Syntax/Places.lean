import Mathlib.Data.List.Induction
import Mathlib.Data.List.TakeWhile
import Mathlib.Data.String.Basic
import PromptPack.Proofs.Outline.Slices
import PromptPack.Syntax.Token
/-!
# Places in a source

A reader of a piece of a source moves on over some characters, and how many they are is seen from the characters
alone, not from the offset (`MovesOn`). So tokens lie one behind the other in their source (`Laid`): each takes
some room, none begins before the one in front of it ends, and where they begin and end the source can be cut.
-/

namespace PromptPack.Syntax

open Outline (Region slice? slice?_eq_some_iff exists_append_of_utf8Len_le verbatimChunk? VisibleAt)
open String (utf8Len)

/-- The place so many characters further. -/
def Point.advance (n : Nat) (p : Point) : Point := ⟨p.pos + utf8Len (p.rest.take n), p.rest.drop n⟩

namespace Point

variable {p : Point} {m n pos : Nat} {c : Char} {cs : List Char}

theorem advance_zero (p : Point) : p.advance 0 = p := rfl

@[simp] theorem rest_advance (n : Nat) (p : Point) : (p.advance n).rest = p.rest.drop n := rfl

@[simp] theorem head?_advance (n : Nat) (p : Point) : (p.advance n).head? = (p.rest.drop n).head? := rfl

theorem advance_nil (n pos : Nat) : advance n ⟨pos, []⟩ = ⟨pos, []⟩ := by
  rw [advance, List.take_nil, List.drop_nil, String.utf8Len_nil, Nat.add_zero]

theorem advance_succ_cons (n pos : Nat) (c : Char) (cs : List Char) :
    advance (n + 1) ⟨pos, c :: cs⟩ = advance n ⟨pos + c.utf8Size, cs⟩ := by
  simp only [advance, List.take_succ_cons, List.drop_succ_cons, String.utf8Len_cons, mk.injEq, and_true]
  omega

theorem advance_advance (m n : Nat) (p : Point) : (p.advance m).advance n = p.advance (m + n) := by
  obtain ⟨pos, cs⟩ := p
  induction m generalizing pos cs with
  | zero => rw [advance_zero, Nat.zero_add]
  | succ m ih =>
    cases cs with
    | nil => simp only [advance_nil]
    | cons c cs => rw [advance_succ_cons, ih, Nat.succ_add, advance_succ_cons]

theorem pos_le_advance (n : Nat) (p : Point) : p.pos ≤ (p.advance n).pos := Nat.le_add_right _ _

theorem pos_advance_mono (h : m ≤ n) : (p.advance m).pos ≤ (p.advance n).pos := by
  obtain ⟨k, rfl⟩ := Nat.exists_eq_add_of_le h
  rw [← advance_advance]
  exact pos_le_advance k _

theorem pos_lt_advance (hrest : p.rest ≠ []) (hn : 0 < n) : p.pos < (p.advance n).pos := by
  obtain ⟨pos, cs⟩ := p
  obtain ⟨c, cs, rfl⟩ := List.exists_cons_of_ne_nil hrest
  obtain ⟨n, rfl⟩ := Nat.exists_eq_succ_of_ne_zero (Nat.ne_of_gt hn)
  have hstep := pos_le_advance n ⟨pos + c.utf8Size, cs⟩
  have := c.utf8Size_pos
  rw [advance_succ_cons]
  dsimp only at *
  omega

/-- Where the source ends is seen from every place. -/
theorem end_advance (n : Nat) (p : Point) : (p.advance n).pos + utf8Len (p.advance n).rest = p.pos + utf8Len p.rest := by
  rw [rest_advance, advance, Nat.add_assoc, ← String.utf8Len_append, List.take_append_drop]

theorem next_eq (p : Point) : p.next = p.advance 1 := by
  obtain ⟨pos, cs⟩ := p
  cases cs with
  | nil => exact (advance_nil 1 pos).symm
  | cons c cs => exact (advance_succ_cons 0 pos c cs).symm

theorem skip_eq (n : Nat) (p : Point) : p.skip n = p.advance n := by
  induction n generalizing p with
  | zero => rfl
  | succ n ih => rw [skip, ih, next_eq, advance_advance, Nat.add_comm]

/-- Between two places stand the characters that were moved over. -/
theorem upTo_advance (n : Nat) (p : Point) : p.upTo (p.advance n) = p.rest.take n := by
  have hgo (cs : List Char) (n : Nat) : upTo.go (utf8Len (cs.take n)) cs = cs.take n := by
    induction cs generalizing n with
    | nil => rw [List.take_nil]; rfl
    | cons c cs ih =>
      cases n with
      | zero => rfl
      | succ n =>
        have hpos := c.utf8Size_pos
        rw [List.take_succ_cons, String.utf8Len_cons]
        obtain ⟨k, hk⟩ : ∃ k, utf8Len (cs.take n) + c.utf8Size = k + 1 := ⟨_, (Nat.succ_pred_eq_of_pos (by omega)).symm⟩
        rw [hk, upTo.go, ← hk, Nat.add_sub_cancel, ih]
  rw [upTo, advance, Nat.add_sub_cancel_left, hgo]

end Point

/-! ## Readers -/

/-- The reader moves on, over a number of characters that it sees from the characters ahead. -/
def MovesOn (f : Point → Point) : Prop := ∀ cs, ∃ n, ∀ pos, f ⟨pos, cs⟩ = Point.advance n ⟨pos, cs⟩

/-- The reader moves on so or finds nothing. -/
def MayMoveOn (f : Point → Option Point) : Prop :=
  ∀ cs, (∀ pos, f ⟨pos, cs⟩ = none) ∨ ∃ n, ∀ pos, f ⟨pos, cs⟩ = some (Point.advance n ⟨pos, cs⟩)

namespace MovesOn

theorem of_advance (n : Nat) : MovesOn (Point.advance n) := fun _ => ⟨n, fun _ => rfl⟩

theorem comp {f g : Point → Point} (hg : MovesOn g) (hf : MovesOn f) : MovesOn fun p => g (f p) := by
  intro cs
  obtain ⟨m, hm⟩ := hf cs
  obtain ⟨n, hn⟩ := hg (cs.drop m)
  refine ⟨m + n, fun pos => ?_⟩
  dsimp only
  rw [hm, ← Point.advance_advance]
  exact hn _

/-- A reader that goes from character to character moves on when each of its steps does. -/
theorem of_go {f : Point → Point} {go : Nat → List Char → Point} (hf : ∀ p, f p = go p.pos p.rest)
    (hgo : ∀ cs, ∃ n, ∀ pos, go pos cs = Point.advance n ⟨pos, cs⟩) : MovesOn f := by
  intro cs
  obtain ⟨n, hn⟩ := hgo cs
  exact ⟨n, fun pos => (hf _).trans (hn pos)⟩

end MovesOn

theorem MayMoveOn.getD {f : Point → Option Point} {g : Point → Point} (hf : MayMoveOn f) (hg : MovesOn g) :
    MovesOn fun p => (f p).getD (g p) := by
  intro cs
  rcases hf cs with hnone | ⟨n, hn⟩
  · simp only [hnone, Option.getD_none]
    exact hg cs
  · exact ⟨n, fun pos => by simp only [hn, Option.getD_some]⟩

/-- One step of a reader that goes from character to character: what it does behind one character. -/
theorem exists_advance_cons {go : Nat → List Char → Point} {c : Char} {cs : List Char}
    (h : ∃ n, ∀ pos, go pos cs = Point.advance n ⟨pos, cs⟩) :
    ∃ n, ∀ pos, go (pos + c.utf8Size) cs = Point.advance n ⟨pos, c :: cs⟩ := by
  obtain ⟨n, hn⟩ := h
  exact ⟨n + 1, fun pos => by rw [hn, Point.advance_succ_cons]⟩

theorem exists_advance_here (cs : List Char) : ∃ n, ∀ pos, (⟨pos, cs⟩ : Point) = Point.advance n ⟨pos, cs⟩ :=
  ⟨0, fun _ => rfl⟩

namespace Point

theorem movesOn_next : MovesOn next := fun _ => ⟨1, fun _ => next_eq _⟩

theorem movesOn_skip (n : Nat) : MovesOn (skip n) := fun _ => ⟨n, fun _ => skip_eq n _⟩

theorem movesOn_skipWhile (test : Char → Bool) : MovesOn (skipWhile test) := by
  refine .of_go (fun _ => rfl) fun cs => ?_
  induction cs with
  | nil => exact exists_advance_here []
  | cons c cs ih =>
    simp only [skipWhile.go]
    split
    · exact exists_advance_cons ih
    · exact exists_advance_here _

theorem movesOn_skipLine : MovesOn skipLine := movesOn_skipWhile _

theorem movesOn_skipPast (text : List Char) : MovesOn (skipPast text) := by
  refine .of_go (fun _ => rfl) fun cs => ?_
  induction cs with
  | nil => exact exists_advance_here []
  | cons c cs ih =>
    simp only [skipPast.go]
    split
    · exact movesOn_skip _ _
    · exact exists_advance_cons ih

theorem movesOn_skipQuoted (mark : Char) (oneLine : Bool) : MovesOn (skipQuoted mark oneLine) := by
  refine .of_go (fun _ => rfl) fun cs => ?_
  -- A backslash takes the character behind it along.
  induction cs using List.twoStepInduction with
  | nil => exact exists_advance_here []
  | singleton c =>
    simp only [skipQuoted.go]
    split
    · exact ⟨1, fun pos => (advance_succ_cons 0 pos c []).symm⟩
    · split
      · exact exists_advance_here _
      · split
        · rename_i hback
          obtain rfl : c = '\\' := by simpa using hback
          exact ⟨1, fun pos => (advance_succ_cons 0 pos '\\' []).symm⟩
        · exact ⟨1, fun pos => (advance_succ_cons 0 pos c []).symm⟩
  | cons_cons c d cs ih₁ ih₂ =>
    simp only [skipQuoted.go]
    split
    · exact ⟨1, fun pos => (advance_succ_cons 0 pos c _).symm⟩
    · split
      · exact exists_advance_here _
      · split
        · rename_i hback
          obtain rfl : c = '\\' := by simpa using hback
          obtain ⟨n, hn⟩ := exists_advance_cons (c := d) ih₁
          exact ⟨n + 1, fun pos => by rw [advance_succ_cons]; exact hn _⟩
        · exact exists_advance_cons (ih₂ d)

theorem mayMoveOn_blockComment? : MayMoveOn blockComment? := by
  have hgo (cs : List Char) : (∀ pos, blockComment?.go pos cs = none) ∨
      ∃ n, ∀ pos, blockComment?.go pos cs = some (advance n ⟨pos, cs⟩) := by
    induction cs using List.twoStepInduction with
    | nil => exact .inl fun _ => rfl
    | singleton c => exact .inl fun _ => by simp [blockComment?.go]
    | cons_cons c d cs ih₁ ih₂ =>
      by_cases hend : c = '*' ∧ d = '/'
      · obtain ⟨rfl, rfl⟩ := hend
        refine .inr ⟨2, fun pos => ?_⟩
        rw [advance_succ_cons, advance_succ_cons]
        rfl
      · have hstep (pos : Nat) : blockComment?.go pos (c :: d :: cs) = blockComment?.go (pos + c.utf8Size) (d :: cs) := by
          rw [blockComment?.go]
          rintro cs' rfl heq
          simp_all
        rcases ih₂ d with hnone | ⟨n, hn⟩
        · exact .inl fun pos => (hstep pos).trans (hnone _)
        · exact .inr ⟨n + 1, fun pos => by rw [hstep, hn, advance_succ_cons]⟩
  intro cs
  unfold blockComment?
  dsimp only
  split
  · rename_i rest
    rcases hgo rest with hnone | ⟨n, hn⟩
    · exact .inl fun pos => hnone _
    · refine .inr ⟨n + 2, fun pos => ?_⟩
      rw [hn, advance_succ_cons, advance_succ_cons]
      rfl
  · exact .inl fun _ => rfl

end Point

/-! ## Tokens in their source -/

/-- The tokens lie one behind the other from the place on; each takes some characters, which go with it. -/
inductive Laid (fits : List Char → Token → Prop) : Point → List Token → Prop
  | nil {p : Point} : Laid fits p []
  | past {p : Point} {ts : List Token} (n : Nat) : Laid fits (p.advance n) ts → Laid fits p ts
  | token {p : Point} {t : Token} {ts : List Token} (n : Nat) : p.rest ≠ [] → 0 < n → fits (p.rest.take n) t →
      t.start = p.pos → t.stop = (p.advance n).pos → Laid fits (p.advance n) ts → Laid fits p (t :: ts)

variable {fits : List Char → Token → Prop} {p : Point} {t : Token} {ts : List Token} {source : List Char} {m n : Nat}

/-- A place that was not moved is moved on by one character. -/
theorem Point.advance_or_next (n : Nat) (p : Point) :
    (if (p.advance n).pos ≤ p.pos then p.next else p.advance n) = p.advance (max 1 n) := by
  obtain ⟨pos, cs⟩ := p
  cases cs with
  | nil => rw [advance_nil, advance_nil, if_pos (Nat.le_refl _)]; rfl
  | cons c cs =>
    cases n with
    | zero => rw [advance_zero, if_pos (Nat.le_refl _), next_eq]; rfl
    | succ n =>
      rw [if_neg (Nat.not_le_of_lt (pos_lt_advance (List.cons_ne_nil c cs) n.succ_pos)), Nat.max_eq_right n.succ_pos]

theorem MovesOn.exists_advance {f : Point → Point} (hf : MovesOn f) (p : Point) :
    ∃ n, 0 < n ∧ (if (f p).pos ≤ p.pos then p.next else f p) = p.advance n := by
  obtain ⟨n, hn⟩ := hf p.rest
  rw [show f p = p.advance n from hn p.pos, Point.advance_or_next]
  exact ⟨max 1 n, Nat.le_max_left 1 n, rfl⟩

/-- No token begins before the one in front of it ends. -/
theorem Laid.ordered (h : Laid fits p ts) : (∀ t ∈ ts, p.pos ≤ t.start) ∧ ts.Pairwise fun a b => a.stop ≤ b.start := by
  induction h with
  | nil => exact ⟨nofun, .nil⟩
  | past n _ ih => exact ⟨fun t ht => Nat.le_trans (Point.pos_le_advance n _) (ih.1 t ht), ih.2⟩
  | token n _ _ _ hstart hstop _ ih =>
    refine ⟨fun t ht => ?_, List.pairwise_cons.2 ⟨fun u hu => hstop ▸ ih.1 u hu, ih.2⟩⟩
    rcases List.mem_cons.1 ht with rfl | ht
    · exact Nat.le_of_eq hstart.symm
    · exact Nat.le_trans (Point.pos_le_advance n _) (ih.1 t ht)

/-- Where a token lies, and the characters that it takes. -/
theorem Laid.exists_place (h : Laid fits p ts) (ht : t ∈ ts) : ∃ k n, (p.advance k).rest ≠ [] ∧ 0 < n ∧
    fits ((p.advance k).rest.take n) t ∧ t.start = (p.advance k).pos ∧ t.stop = (p.advance (k + n)).pos := by
  induction h with
  | nil => cases ht
  | past n _ ih =>
    obtain ⟨k, m, hrest, hm, hfits, hstart, hstop⟩ := ih ht
    rw [Point.advance_advance] at hrest hfits hstart hstop
    exact ⟨n + k, m, hrest, hm, hfits, hstart, by rwa [← Nat.add_assoc] at hstop⟩
  | token n hrest hn hfits hstart hstop _ ih =>
    rcases List.mem_cons.1 ht with rfl | ht
    · exact ⟨0, n, hrest, hn, hfits, hstart, by rwa [Nat.zero_add]⟩
    · obtain ⟨k, m, hrest, hm, hfits, hstart, hstop⟩ := ih ht
      rw [Point.advance_advance] at hrest hfits hstart hstop
      exact ⟨n + k, m, hrest, hm, hfits, hstart, by rwa [← Nat.add_assoc] at hstop⟩

theorem Laid.start_lt_stop (h : Laid fits p ts) (ht : t ∈ ts) : t.start < t.stop := by
  obtain ⟨k, n, hrest, hn, -, hstart, hstop⟩ := h.exists_place ht
  rw [hstart, hstop, ← Point.advance_advance]
  exact Point.pos_lt_advance hrest hn

/-- Of two tokens one ends before the other begins, unless they are the same. -/
theorem Laid.eq_or_apart (h : Laid fits p ts) {u : Token} (ht : t ∈ ts) (hu : u ∈ ts) :
    t = u ∨ t.stop ≤ u.start ∨ u.stop ≤ t.start :=
  List.Pairwise.forall_of_forall_of_flip (R := fun t u : Token => t = u ∨ t.stop ≤ u.start ∨ u.stop ≤ t.start)
    (fun _ _ => .inl rfl) (h.ordered.2.imp fun h => .inr (.inl h)) (h.ordered.2.imp fun h => .inr (.inr h)) ht hu

/-! ## Cutting the source -/

/-- The offset stands between two characters of the source, or at one of its ends. -/
def Cuts (source : List Char) (n : Nat) : Prop := ∃ k, n = ((Point.start source).advance k).pos

theorem pos_advance_start (source : List Char) (k : Nat) :
    ((Point.start source).advance k).pos = utf8Len (source.take k) := Nat.zero_add _

theorem Laid.cuts (h : Laid fits (Point.start source) ts) (ht : t ∈ ts) : Cuts source t.start ∧ Cuts source t.stop := by
  obtain ⟨k, n, -, -, -, hstart, hstop⟩ := h.exists_place ht
  exact ⟨⟨k, hstart⟩, ⟨k + n, hstop⟩⟩

theorem Cuts.exists_slice (hm : Cuts source m) (hn : Cuts source n) (hle : m ≤ n) :
    ∃ text, slice? source m n = some text := by
  obtain ⟨j, rfl⟩ := hm
  obtain ⟨k, rfl⟩ := hn
  rw [pos_advance_start, pos_advance_start] at *
  rcases Nat.le_total j k with hjk | hkj
  · refine ⟨(source.take k).drop j, slice?_eq_some_iff.2 ⟨source.take j, source.drop k, ?_, rfl, ?_⟩⟩
    · rw [← List.append_assoc, ← Nat.min_eq_left hjk, ← List.take_take, Nat.min_eq_left hjk, List.take_append_drop,
        List.take_append_drop]
    · rw [← Nat.min_eq_left hjk, ← List.take_take, Nat.min_eq_left hjk, List.take_append_drop]
  · -- The offsets are the same.
    have hback := Point.pos_advance_mono (p := Point.start source) hkj
    rw [pos_advance_start, pos_advance_start] at hback
    refine ⟨[], slice?_eq_some_iff.2 ⟨source.take j, source.drop j, ?_, rfl, ?_⟩⟩
    · rw [List.nil_append, List.take_append_drop]
    · rw [List.append_nil]
      exact Nat.le_antisymm hle hback

/-- The first character is not blank. -/
def BeginsVisibly (cs : List Char) : Prop := ∃ c, cs.head? = some c ∧ Text.isBlank c = false

/-- Where a token begins with a character that is not blank, one stands. -/
theorem Laid.visibleAt (h : Laid fits (Point.start source) ts) (hfits : ∀ cs t, fits cs t → BeginsVisibly cs)
    (ht : t ∈ ts) : VisibleAt source t.start := by
  obtain ⟨k, n, hrest, hn, hfit, hstart, -⟩ := h.exists_place ht
  obtain ⟨c, hhead, hc⟩ := hfits _ _ hfit
  have hdrop : ∃ cs, source.drop k = c :: cs := by
    obtain ⟨d, cs, hcons⟩ := List.exists_cons_of_ne_nil hrest
    rw [hcons, List.head?_take, if_neg (Nat.ne_of_gt hn), List.head?_cons, Option.some_inj] at hhead
    exact ⟨cs, hhead ▸ hcons⟩
  obtain ⟨cs, hdrop⟩ := hdrop
  refine ⟨c, slice?_eq_some_iff.2 ⟨source.take k, cs, ?_, ?_, ?_⟩, hc⟩
  · rw [List.singleton_append, ← hdrop, List.take_append_drop]
  · rw [hstart, pos_advance_start]
  · rw [hstart, pos_advance_start, String.utf8Len_append, String.utf8Len_cons, String.utf8Len_nil, Nat.zero_add]

/-- What begins with a character that is not blank is not empty when it is trimmed. -/
theorem trimChars_ne_nil {text : List Char} (hvisible : VisibleAt source m) (htext : slice? source m n = some text)
    (hlt : m < n) : Text.trimChars text ≠ [] := by
  obtain ⟨c, hc, hblank⟩ := hvisible
  obtain ⟨front, back, hsource, hfront, hend⟩ := slice?_eq_some_iff.1 htext
  obtain ⟨front', back', hsource', hfront', -⟩ := slice?_eq_some_iff.1 hc
  rw [hsource] at hsource'
  obtain ⟨more, rfl, hrest⟩ := exists_append_of_utf8Len_le hsource' (by omega)
  have hmore : more = [] := String.utf8Len_eq_zero.1 (by rw [String.utf8Len_append] at hfront'; omega)
  subst hmore
  cases text with
  | nil =>
    rw [List.append_nil] at hend
    omega
  | cons d text =>
    obtain rfl : d = c := by simpa using (List.cons.inj hrest).1
    intro hnil
    have hstart : Text.trimStartChars (d :: text) = d :: text := by
      rw [Text.trimStartChars, List.dropWhile_cons, hblank, if_neg Bool.false_ne_true]
    rw [Text.trimChars, hstart, Text.trimEndChars, List.reverse_eq_nil_iff, List.dropWhile_eq_nil_iff] at hnil
    have := hnil d (by simp)
    rw [hblank] at this
    cases this

theorem exists_verbatimChunk? {node : Region} (hvisible : VisibleAt source node.start) (hstart : Cuts source node.start)
    (hstop : Cuts source node.stop) (hlt : node.start < node.stop) : ∃ c, verbatimChunk? source node = some c := by
  obtain ⟨text, htext⟩ := hstart.exists_slice hstop (Nat.le_of_lt hlt)
  have hne := trimChars_ne_nil hvisible htext hlt
  rw [verbatimChunk?, htext]
  exact ⟨_, if_neg (by simpa using hne)⟩

/-! ## Tokens without comments -/

/-- Leaving out comments changes nothing of the other tokens but the note on line ends. -/
theorem map_significant {α : Type} {f : Token → α} (hf : ∀ (t : Token) fresh, f { t with fresh } = f t) (ts : List Token) :
    (significant ts).map f = (ts.filter fun t => !t.isComment).map f := by
  have hgo (fresh : Bool) (ts : List Token) :
      (significant.go fresh ts).map f = (ts.filter fun t => !t.isComment).map f := by
    induction ts generalizing fresh with
    | nil => rfl
    | cons t ts ih =>
      rw [significant.go, List.filter_cons]
      cases t.isComment with
      | true => exact ih _
      | false =>
        simp only [Bool.false_eq_true, if_false, Bool.not_false, if_true, List.map_cons, hf, ih]
  cases ts with
  | nil => rfl
  | cons t ts => exact hgo t.fresh (t :: ts)

theorem exists_mem_significant (ht : t ∈ ts) (hcomment : t.isComment = false) : ∃ u ∈ significant ts, u.kind = t.kind ∧
    u.text = t.text ∧ u.start = t.start ∧ u.stop = t.stop := by
  have hmem : { t with fresh := true } ∈ (ts.filter fun t => !t.isComment).map fun t => { t with fresh := true } :=
    List.mem_map_of_mem (List.mem_filter.2 ⟨ht, by rw [hcomment]; rfl⟩)
  rw [← map_significant fun _ _ => rfl, List.mem_map] at hmem
  obtain ⟨u, hu, heq⟩ := hmem
  rw [Token.mk.injEq] at heq
  obtain ⟨hkind, htext, hstart, hstop, -⟩ := heq
  exact ⟨u, hu, hkind, htext, hstart, hstop⟩

/-- Each of the tokens that are no comments is one of all tokens, but for the note on line ends. -/
theorem exists_of_mem_significant (ht : t ∈ significant ts) : ∃ u ∈ ts, u.isComment = false ∧ u.kind = t.kind ∧
    u.text = t.text ∧ u.start = t.start ∧ u.stop = t.stop := by
  have hmem : { t with fresh := true } ∈ (significant ts).map fun t => { t with fresh := true } :=
    List.mem_map_of_mem ht
  rw [map_significant fun _ _ => rfl, List.mem_map] at hmem
  obtain ⟨u, hu, heq⟩ := hmem
  obtain ⟨hu, hcomment⟩ := List.mem_filter.1 hu
  rw [Token.mk.injEq] at heq
  obtain ⟨hkind, htext, hstart, hstop, -⟩ := heq
  exact ⟨u, hu, by simpa using hcomment, hkind, htext, hstart, hstop⟩

end PromptPack.Syntax
