import Mathlib.Tactic.SplitIfs
import PromptPack.Proofs.Syntax.Places
import PromptPack.Proofs.Text.Pieces
import PromptPack.Syntax.C.Token
/-!
# The tokens of C in their source

Each token begins with a character that is not blank and has the text that stands in its place (`laid_tokens`). The
comments in a directive lie within it (`directiveComments_within`).
-/

namespace PromptPack.Syntax.C

open Point (advance advance_advance advance_succ_cons movesOn_next movesOn_skip movesOn_skipWhile movesOn_skipPast
  movesOn_skipQuoted mayMoveOn_blockComment? upTo_advance)
open String (utf8Len)

/-! ## Readers -/

theorem movesOn_skipDirective (n : Nat) : MovesOn (skipDirective n) := by
  induction n with
  | zero => exact .of_advance 0
  | succ n ih =>
    intro cs
    unfold skipDirective
    dsimp only
    split
    · exact ⟨0, fun _ => rfl⟩
    · exact movesOn_next _
    · exact ih.comp (movesOn_skip 2) _
    · exact ih.comp (movesOn_skip 3) _
    · exact ih.comp (mayMoveOn_blockComment?.getD (movesOn_skip 2)) _
    · exact ih.comp movesOn_next _

theorem movesOn_skipLineComment : MovesOn skipLineComment := by
  have hgo (pos : Nat) (cs : List Char) : ∃ n, ∀ pos, skipLineComment.go pos cs = advance n ⟨pos, cs⟩ := by
    induction pos, cs using skipLineComment.go.induct with
    | case1 pos => exact exists_advance_here []
    | case2 pos cs => exact exists_advance_here _
    | case3 pos cs ih =>
      obtain ⟨n, hn⟩ := ih
      exact ⟨n + 3, fun pos => by rw [advance_succ_cons, advance_succ_cons, advance_succ_cons]; exact hn _⟩
    | case4 pos d cs h ih =>
      obtain ⟨n, hn⟩ := ih
      refine ⟨n + 2, fun pos => ?_⟩
      rw [advance_succ_cons, advance_succ_cons, skipLineComment.go]
      · exact hn _
      · exact h
    | case5 pos c cs hline hjoined hhidden ih =>
      obtain ⟨n, hn⟩ := ih
      refine ⟨n + 1, fun pos => ?_⟩
      rw [advance_succ_cons, skipLineComment.go]
      · exact hn _
      · exact hline
      · exact hjoined
      · exact hhidden
  exact .of_go (fun _ => rfl) (hgo 0)

theorem movesOn_skipRaw : MovesOn skipRaw := fun cs => by
  unfold skipRaw
  simp only [Point.next_eq, Point.rest_advance]
  exact movesOn_skipPast _ cs

theorem movesOn_read (fresh : Bool) : MovesOn fun p => (read fresh p).2 := by
  intro cs
  cases cs with
  | nil => exact ⟨0, fun _ => rfl⟩
  | cons c cs =>
    obtain ⟨k, hk⟩ := movesOn_skipWhile Text.isWord (c :: cs)
    have hbehind {f : Point → Point} (hf : MovesOn f) : ∃ n, ∀ pos, f (advance k ⟨pos, c :: cs⟩) = advance n ⟨pos, c :: cs⟩ :=
      hf.comp (.of_advance k) (c :: cs)
    have hsees (pos : Nat) : Point.sees ⟨pos, c :: cs⟩ = fun text => text.toList.isPrefixOf (c :: cs) := rfl
    unfold read
    simp only [hsees, hk, upTo_advance, Point.head?_advance]
    rcases mayMoveOn_blockComment? (c :: cs) with hnone | ⟨m, hm⟩
    · simp only [hnone]
      split_ifs
      · exact movesOn_skipDirective _ _
      · exact movesOn_skipLineComment _
      · exact (movesOn_skipQuoted c true).comp movesOn_next _
      · exact movesOn_skipWhile _ _
      -- A word, which may be what a quotation begins with.
      · exact hbehind movesOn_skipRaw
      · exact hbehind ((movesOn_skipQuoted _ true).comp movesOn_next)
      · exact ⟨k, fun _ => rfl⟩
      · split
        · exact movesOn_skip _ (c :: cs)
        · exact movesOn_next (c :: cs)
    · simp only [hm]
      split_ifs
      · exact movesOn_skipDirective _ _
      · exact movesOn_skipLineComment _
      · exact ⟨m, fun _ => rfl⟩

/-! ## Tokens -/

/-- The token begins with a character that is not blank and has the text that stands in its place. -/
def Fits (cs : List Char) (t : Token) : Prop := BeginsVisibly cs ∧ t.text = String.ofList cs

theorem laid_tokensFrom (n : Nat) (fresh : Bool) (p : Point) : Laid Fits p (tokensFrom n fresh p) := by
  induction n generalizing fresh p with
  | zero => exact .nil
  | succ n ih =>
    have hpast (k : Nat) (fresh : Bool) {q : Point} (hq : q = p.advance k) : Laid Fits p (tokensFrom n fresh q) :=
      .past k (hq ▸ ih fresh q)
    rw [tokensFrom]
    split
    · exact .nil
    · exact hpast 2 _ (Point.skip_eq 2 p)
    · rename_i c cs _ hrest
      split
      · exact hpast 1 _ (Point.next_eq p)
      · rename_i hvisible
        obtain ⟨k, hk, hq⟩ := (movesOn_read fresh).exists_advance p
        dsimp only at hq ⊢
        rw [hq]
        refine .token k (hrest ▸ List.cons_ne_nil c cs) hk ⟨⟨c, ?_, ?_⟩, ?_⟩ rfl rfl (ih _ _)
        · rw [hrest, List.head?_take, if_neg (Nat.ne_of_gt hk), List.head?_cons]
        · simpa using fun h => hvisible (Bool.or_eq_true_iff.2 (.inl h))
        · rw [Token.between, upTo_advance]

theorem laid_tokens (source : List Char) : Laid Fits (Point.start source) (tokens source) :=
  laid_tokensFrom _ _ _

/-! ## Comments in directives -/

variable {slashes : Bool} {a b : Nat} {t : Token}

theorem within_of_mem_commentsIn {n : Nat} {p : Point} (h : (a, b) ∈ commentsIn slashes n p) :
    p.pos ≤ a ∧ a < p.pos + utf8Len p.rest ∧ b ≤ p.pos + utf8Len p.rest := by
  have hend {f : Point → Point} (hf : MovesOn f) (p : Point) : (f p).pos ≤ p.pos + utf8Len p.rest := by
    obtain ⟨k, hk⟩ := hf p.rest
    rw [show f p = advance k p from hk p.pos, ← Point.end_advance k p]
    exact Nat.le_add_right _ _
  have hlt {p : Point} {c : Char} {cs : List Char} (hrest : p.rest = c :: cs) : p.pos < p.pos + utf8Len p.rest := by
    have := c.utf8Size_pos
    rw [hrest, String.utf8Len_cons]
    omega
  induction n generalizing p with
  | zero => cases h
  | succ n ih =>
    -- A point further on has the same end.
    have hbehind (k : Nat) {q : Point} (hq : q = p.advance k) (h : (a, b) ∈ commentsIn slashes n q) :
        p.pos ≤ a ∧ a < p.pos + utf8Len p.rest ∧ b ≤ p.pos + utf8Len p.rest := by
      subst hq
      obtain ⟨hle, hstop⟩ := ih h
      rw [Point.end_advance] at hstop
      exact ⟨Nat.le_trans (Point.pos_le_advance k p) hle, hstop⟩
    rw [commentsIn] at h
    split at h
    · cases h
    · rename_i hrest
      split at h
      · rename_i q hq
        obtain ⟨k, hk⟩ : ∃ k, q = p.advance k := by
          rcases mayMoveOn_blockComment? p.rest with hnone | ⟨k, hk⟩
          · rw [hnone p.pos] at hq
            cases hq
          · exact ⟨k, Option.some.inj (hq.symm.trans (hk p.pos))⟩
        rcases List.mem_cons.1 h with heq | h
        · cases heq
          refine ⟨Nat.le_refl _, hlt hrest, ?_⟩
          rw [hk, ← Point.end_advance k p]
          exact Nat.le_add_right _ _
        · exact hbehind k hk h
      · exact hbehind 1 (Point.next_eq p) h
    · rename_i hrest
      split at h
      · cases List.mem_singleton.1 h
        exact ⟨Nat.le_refl _, hlt hrest, hend movesOn_skipLineComment p⟩
      · exact hbehind 1 (Point.next_eq p) h
    · exact hbehind 1 (Point.next_eq p) h

/-- A comment in a directive begins behind the first character of the directive and ends within it. -/
theorem directiveComments_within {source : List Char} (ht : t ∈ tokens source) (hdirective : isDirective t = true)
    (h : (a, b) ∈ directiveComments t) : t.start < a ∧ a < t.stop ∧ b ≤ t.stop := by
  obtain ⟨k, n, -, -, ⟨-, htext⟩, hstart, hstop⟩ := (laid_tokens source).exists_place ht
  have hstop : t.stop = t.start + utf8Len t.text.toList := by
    rw [hstop, hstart, ← advance_advance, htext, String.toList_ofList]
    rfl
  rw [isDirective, Bool.and_eq_true] at hdirective
  obtain ⟨cs, hcs⟩ := Text.startsWith_iff.1 hdirective.2
  have hcs : t.text.toList = '#' :: cs := hcs
  have hlength : t.text.length = cs.length + 1 := by rw [← String.length_toList, hcs, List.length_cons]
  unfold directiveComments at h
  dsimp only at h
  rw [hlength, hcs, commentsIn] at h
  have hwithin := within_of_mem_commentsIn h
  rw [Point.next_eq, Point.end_advance] at hwithin
  have hnext := Point.pos_lt_advance (p := ⟨t.start, '#' :: cs⟩) (List.cons_ne_nil _ _) Nat.one_pos
  rw [hstop, hcs]
  exact ⟨Nat.lt_of_lt_of_le hnext hwithin.1, hwithin.2⟩

end PromptPack.Syntax.C
