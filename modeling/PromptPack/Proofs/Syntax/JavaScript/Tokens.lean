import Mathlib.Tactic.SplitIfs
import PromptPack.Proofs.Syntax.Trees
import PromptPack.Syntax.JavaScript.Token
/-!
# The tokens of JavaScript in their source
-/

namespace PromptPack.Syntax.JavaScript

open Point (advance advance_succ_cons movesOn_next movesOn_skip movesOn_skipWhile movesOn_skipPast movesOn_skipQuoted
  movesOn_skipLine mayMoveOn_blockComment?)
open String (utf8Len)

/-! ## Readers -/

theorem mayMoveOn_skipPattern? : MayMoveOn skipPattern? := by
  have hgo (cs : List Char) : ∀ inClass, (∀ pos, skipPattern?.go inClass pos cs = none) ∨
      ∃ n, ∀ pos, skipPattern?.go inClass pos cs = some (advance n ⟨pos, cs⟩) := by
    have hbehind {pos : Nat} {c : Char} {cs : List Char} {n : Nat} {inClass : Bool}
        (h : ∀ pos, skipPattern?.go inClass pos cs = some (advance n ⟨pos, cs⟩)) :
        skipPattern?.go inClass (pos + c.utf8Size) cs = some (advance (n + 1) ⟨pos, c :: cs⟩) := by
      rw [h, advance_succ_cons]
    -- A backslash takes the character behind it along.
    induction cs using List.twoStepInduction with
    | nil => exact fun _ => .inl fun _ => rfl
    | singleton c =>
      intro inClass
      simp only [skipPattern?.go]
      split
      · rename_i hend
        obtain rfl : c = '/' := by simp at hend; exact hend.1
        exact .inr ⟨1, fun pos => congrArg some (advance_succ_cons 0 pos '/' []).symm⟩
      · exact .inl fun _ => rfl
    | cons_cons c d cs ih₁ ih₂ =>
      intro inClass
      simp only [skipPattern?.go]
      split
      · exact .inl fun _ => rfl
      · split
        · rename_i hback
          obtain rfl : c = '\\' := by simpa using hback
          rcases ih₁ inClass with hnone | ⟨n, hn⟩
          · exact .inl fun _ => hnone _
          · exact .inr ⟨n + 2, fun pos => by rw [hn, advance_succ_cons, advance_succ_cons]; rfl⟩
        · split
          · rename_i hend
            obtain rfl : c = '/' := by simp at hend; exact hend.1
            exact .inr ⟨1, fun pos => congrArg some (advance_succ_cons 0 pos '/' _).symm⟩
          · rcases ih₂ d (if c == '[' then true else if c == ']' then false else inClass) with hnone | ⟨n, hn⟩
            · exact .inl fun _ => hnone _
            · exact .inr ⟨n + 1, fun pos => hbehind hn⟩
  intro cs
  rcases hgo cs false with hnone | ⟨n, hn⟩
  · exact .inl fun pos => by rw [skipPattern?, hnone]; rfl
  · obtain ⟨m, hm⟩ := ((movesOn_skipWhile isName).comp (.of_advance n)) cs
    exact .inr ⟨m, fun pos => by rw [skipPattern?, hn, Option.map_some]; exact congrArg some (hm pos)⟩

theorem movesOn_skipTemplate : MovesOn skipTemplate := by
  have hgo (pos : Nat) (cs : List Char) : ∃ n, ∀ pos, skipTemplate.go pos cs = advance n ⟨pos, cs⟩ := by
    induction pos, cs using skipTemplate.go.induct with
    | case1 pos => exact exists_advance_here []
    | case2 pos cs => exact exists_advance_here _
    | case3 pos cs => exact exists_advance_here _
    | case4 pos d cs ih =>
      obtain ⟨n, hn⟩ := ih
      refine ⟨n + 2, fun pos => ?_⟩
      rw [advance_succ_cons, advance_succ_cons]
      exact hn _
    | case5 pos c cs hmark hcode hback ih =>
      obtain ⟨n, hn⟩ := ih
      refine ⟨n + 1, fun pos => ?_⟩
      rw [advance_succ_cons, skipTemplate.go]
      · exact hn _
      · exact hmark
      · exact hcode
      · exact hback
  exact .of_go (fun _ => rfl) (hgo 0)

/-- Whether the place is the start of the source is all that a reader of code sees of the offset. -/
theorem exists_readCode (behindOperand behindBlock atStart : Bool) (c : Char) (cs : List Char) :
    ∃ kind n, ∀ pos, (pos == 0) = atStart →
      readCode behindOperand behindBlock ⟨pos, c :: cs⟩ = (kind, advance n ⟨pos, c :: cs⟩) := by
  have hread {f : Point → Point} (hf : MovesOn f) (kind : Kind) : ∃ kind' n, ∀ pos, (pos == 0) = atStart →
      (kind, f ⟨pos, c :: cs⟩) = (kind', advance n ⟨pos, c :: cs⟩) := by
    obtain ⟨n, hn⟩ := hf (c :: cs)
    exact ⟨kind, n, fun pos _ => by rw [hn]⟩
  have hsees (pos : Nat) : Point.sees ⟨pos, c :: cs⟩ = fun text => text.toList.isPrefixOf (c :: cs) := rfl
  have hpattern : (∀ pos, skipPattern? (Point.next ⟨pos, c :: cs⟩) = none) ∨
      ∃ n, ∀ pos, skipPattern? (Point.next ⟨pos, c :: cs⟩) = some (advance n ⟨pos, c :: cs⟩) := by
    rcases mayMoveOn_skipPattern? cs with hnone | ⟨n, hn⟩
    · exact .inl fun pos => hnone _
    · exact .inr ⟨n + 1, fun pos => by rw [advance_succ_cons]; exact hn _⟩
  -- A comment in stars, and a pattern between slashes, are there for all offsets or for none.
  unfold readCode
  dsimp only
  simp +contextual only [hsees]
  rcases mayMoveOn_blockComment? (c :: cs) with hnone | ⟨m, hm⟩
  · simp only [hnone]
    split_ifs
    · exact hread (movesOn_skipWhile _) .comment
    · exact hread movesOn_skipLine .comment
    · exact hread ((movesOn_skipQuoted c true).comp movesOn_next) .text
    · exact hread (movesOn_skipWhile _) .number
    · exact hread (movesOn_skipWhile _) .word
    · rcases hpattern with hnone | ⟨n, hn⟩
      · simp only [hnone]
        split
        · exact hread (movesOn_skip _) .mark
        · exact hread movesOn_next .mark
      · exact ⟨.text, n, fun pos _ => by rw [hn]⟩
    · dsimp only
      split
      · exact hread (movesOn_skip _) .mark
      · exact hread movesOn_next .mark
  · simp only [hm]
    split_ifs
    · exact hread (movesOn_skipWhile _) .comment
    · exact hread movesOn_skipLine .comment
    · exact ⟨.comment, m, fun pos _ => rfl⟩

/-- So for what is read in any mode. -/
theorem read?_cases (modes : List Mode) (before : Option Token) (atStart : Bool) (c : Char) (cs : List Char) :
    (∀ pos, (pos == 0) = atStart → read? modes before ⟨pos, c :: cs⟩ = none) ∨
      ∃ kind n modes' text, ∀ pos, (pos == 0) = atStart →
        read? modes before ⟨pos, c :: cs⟩ = some ⟨kind, advance n ⟨pos, c :: cs⟩, modes', text⟩ := by
  have hread {f : Point → Point} (hf : MovesOn f) (kind : Kind) (modes' : List Mode) (text : Option String) :
      ∃ kind' n modes'' text', ∀ pos, (pos == 0) = atStart → some (Reading.mk kind (f ⟨pos, c :: cs⟩) modes' text) =
        some ⟨kind', advance n ⟨pos, c :: cs⟩, modes'', text'⟩ := by
    obtain ⟨n, hn⟩ := hf (c :: cs)
    exact ⟨kind, n, modes', text, fun pos _ => by rw [hn]⟩
  have hsees (pos : Nat) : Point.sees ⟨pos, c :: cs⟩ = fun text => text.toList.isPrefixOf (c :: cs) := rfl
  have hmarkup (pos : Nat) : seesMarkup ⟨pos, c :: cs⟩ = seesMarkup ⟨0, c :: cs⟩ := rfl
  unfold read?
  dsimp only
  split
  · cases ‹c :: cs = []›
  all_goals simp only [hsees]
  -- One case a mode: in a template, between tags, in a tag, in code.
  · split_ifs
    all_goals right
    · exact hread movesOn_next _ _ _
    · exact hread (movesOn_skip 2) _ _ _
    · exact hread movesOn_skipTemplate _ _ _
  · split_ifs
    all_goals right
    · exact hread (movesOn_skip 2) _ _ _
    · exact hread movesOn_next _ _ _
    · exact hread movesOn_next _ _ _
    · exact hread (movesOn_skipWhile _) _ _ _
  · rcases mayMoveOn_blockComment? (c :: cs) with hnone | ⟨m, hm⟩
    · simp only [hnone]
      split_ifs
      all_goals right
      · exact hread (movesOn_skip 2) _ _ _
      · exact hread movesOn_next _ _ _
      · exact hread movesOn_next _ _ _
      · exact hread ((movesOn_skipPast _).comp movesOn_next) _ _ _
      · exact hread movesOn_next _ _ _
      · exact hread (movesOn_skipWhile _) _ _ _
    · simp only [hm]
      exact .inr ⟨.comment, m, _, none, fun _ _ => rfl⟩
  · simp +contextual only [hmarkup]
    split_ifs
    · exact .inl fun _ _ => rfl
    all_goals right
    · exact hread movesOn_next _ _ _
    · exact hread movesOn_next _ _ _
    · split
      · exact hread movesOn_next _ _ _
      · exact hread movesOn_next _ _ _
      · exact hread movesOn_next _ _ _
      · obtain ⟨kind, n, hn⟩ := exists_readCode ((before.map endsOperand).getD false)
          ((before.map (·.is "\x7d")).getD false) atStart c cs
        exact ⟨if kind == .word && behindDot before then .number else kind, n, _, none,
          fun pos hpos => by rw [hn pos hpos]⟩

/-! ## Tokens -/

/-- The token that is read over so many characters. -/
def tokenAt (kind : Kind) (text : Option String) (n : Nat) (fresh : Bool) (p : Point) : Token :=
  let t := Token.between kind p (p.advance n) fresh
  { t with text := text.getD t.text }

variable {modes : List Mode} {before : Option Token} {heads : List Bool} {fresh : Bool} {p : Point} {t : Token}
  {ts : List Token} {c : Char} {cs source : List Char} {m n pos : Nat}

/-- Reading goes on behind a blank, or behind a token that takes some characters. Of the offset and of the token before
it depends on what is read with them alone. -/
theorem tokensFrom_cases (modes : List Mode) (before : Option Token) (atStart : Bool) (c : Char) (cs : List Char) :
    (∀ n before' heads fresh pos, read? modes before' = read? modes before → (pos == 0) = atStart →
      tokensFrom (n + 1) modes before' heads fresh ⟨pos, c :: cs⟩ =
        tokensFrom n modes before' heads (fresh || c == '\n') (advance 1 ⟨pos, c :: cs⟩)) ∨
    ∃ kind text k modes', 0 < k ∧
      ∀ n before' heads fresh pos, read? modes before' = read? modes before → (pos == 0) = atStart →
        tokensFrom (n + 1) modes before' heads fresh ⟨pos, c :: cs⟩ =
          tokenAt kind text k fresh ⟨pos, c :: cs⟩ ::
            tokensFrom n modes' (behindToken before' heads (tokenAt kind text k fresh ⟨pos, c :: cs⟩)).1
              (behindToken before' heads (tokenAt kind text k fresh ⟨pos, c :: cs⟩)).2 false (advance k ⟨pos, c :: cs⟩) := by
  rcases read?_cases modes before atStart c cs with hblank | ⟨kind, k, modes', text, hread⟩
  · refine .inl fun n before' heads fresh pos halike hpos => ?_
    rw [tokensFrom]
    dsimp only
    rw [halike, hblank pos hpos, Point.next_eq]
  · refine .inr ⟨kind, text, max 1 k, modes', Nat.le_max_left 1 k, fun n before' heads fresh pos halike hpos => ?_⟩
    rw [tokensFrom]
    dsimp only
    rw [halike, hread pos hpos]
    dsimp only
    rw [Point.advance_or_next k ⟨pos, c :: cs⟩]
    rfl

theorem laid_tokensFrom (n : Nat) (modes : List Mode) (before : Option Token) (heads : List Bool) (fresh : Bool)
    (p : Point) : Laid (fun _ _ => True) p (tokensFrom n modes before heads fresh p) := by
  induction n generalizing modes before heads fresh p with
  | zero => exact .nil
  | succ n ih =>
    obtain ⟨pos, cs⟩ := p
    cases cs with
    | nil =>
      rw [tokensFrom]
      exact .nil
    | cons c cs =>
      rcases tokensFrom_cases modes before (pos == 0) c cs with hblank | ⟨kind, text, k, modes', hk, hread⟩
      · rw [hblank n before heads fresh pos rfl rfl]
        exact .past 1 (ih _ _ _ _ _)
      · rw [hread n before heads fresh pos rfl rfl]
        exact .token k (List.cons_ne_nil c cs) hk trivial rfl rfl (ih _ _ _ _ _)

theorem laid_withReach {fits : List Char → Token → Prop} (hfits : ∀ cs (t : Token) reach, fits cs t → fits cs { t with reach })
    (size : Nat) (h : Laid fits p ts) : Laid fits p (withReach size ts) := by
  induction h with
  | nil => exact .nil
  | past n _ ih => exact .past n ih
  | token n hrest hn hfit hstart hstop _ ih => exact .token n hrest hn (hfits _ _ _ hfit) hstart hstop ih

theorem laid_tokens (source : List Char) : Laid (fun _ _ => True) (Point.start source) (tokens source) :=
  laid_withReach (fun _ _ _ h => h) _ (laid_tokensFrom _ _ _ _ _ _)

/-- Behind the last token nothing is reached. -/
theorem reach_of_getLast? (ht : t ∈ (tokens source).getLast?) : t.reach = t.stop := by
  have hlast (size : Nat) (ts : List Token) : ∀ t ∈ (withReach size ts).getLast?, t.reach = t.stop := by
    induction ts with
    | nil => nofun
    | cons t ts ih =>
      cases ts with
      | nil =>
        intro u hu
        rw [withReach, withReach, List.getLast?_singleton] at hu
        cases hu
        dsimp only
        split <;> rfl
      | cons u us =>
        rw [withReach, withReach, List.getLast?_cons_cons]
        exact ih
  exact hlast _ _ t ht

/-! ## Shifting a source -/

/-- The token so many bytes further on. -/
def shift (d : Nat) (t : Token) : Token := { t with start := t.start + d, stop := t.stop + d, reach := t.reach + d }

theorem tokensFrom_nil (n : Nat) (modes : List Mode) (before : Option Token) (heads : List Bool) (fresh : Bool)
    (pos : Nat) : tokensFrom n modes before heads fresh ⟨pos, []⟩ = [] := by
  cases n <;> rfl

/-- What is seen of the token before. -/
def sight (before : Option Token) : Option (Kind × String) := before.map fun t => (t.kind, t.text)

theorem sight_cases {before before' : Option Token} (h : sight before' = sight before) : before' = none ∧ before = none ∨
    ∃ t u, before' = some t ∧ before = some u ∧ t.kind = u.kind ∧ t.text = u.text := by
  cases before' <;> cases before <;> simp_all [sight]

theorem read?_congr {before before' : Option Token} (h : sight before' = sight before) :
    read? modes before' = read? modes before := by
  rcases sight_cases h with ⟨rfl, rfl⟩ | ⟨t, u, rfl, rfl, hkind, htext⟩
  · rfl
  · have his : t.is = u.is := funext fun text => by rw [Token.is, Token.is, hkind, htext]
    have hends : endsOperand t = endsOperand u := by rw [endsOperand, endsOperand, hkind, htext]
    funext p
    unfold read? behindDot
    simp only [Option.map_some, Option.any_some, his, hends]

theorem tokenAt_shift (kind : Kind) (text : Option String) (n : Nat) (fresh : Bool) (pos d : Nat) (cs : List Char) :
    tokenAt kind text n fresh ⟨pos + d, cs⟩ = shift d (tokenAt kind text n fresh ⟨pos, cs⟩) := by
  simp only [tokenAt, Token.between, Point.upTo_advance, shift, Token.mk.injEq, true_and]
  simp only [advance]
  omega

theorem behindToken_shift (d : Nat) {before before' : Option Token} (h : sight before' = sight before) (heads : List Bool)
    (t : Token) : sight (behindToken before' heads (shift d t)).1 = sight (behindToken before heads t).1 ∧
      (behindToken before' heads (shift d t)).2 = (behindToken before heads t).2 := by
  have hhead : (before'.map fun b => headWords.any b.is).getD false = (before.map fun b => headWords.any b.is).getD false := by
    rcases sight_cases h with ⟨rfl, rfl⟩ | ⟨t, u, rfl, rfl, hkind, htext⟩
    · rfl
    · have his : t.is = u.is := funext fun text => by rw [Token.is, Token.is, hkind, htext]
      rw [Option.map_some, Option.map_some, his]
  have hkind : (shift d t).kind = t.kind := rfl
  have htext : (shift d t).text = t.text := rfl
  unfold behindToken
  rw [hkind, htext, hhead]
  split
  · exact ⟨h, rfl⟩
  · exact ⟨rfl, rfl⟩
  · split <;> exact ⟨rfl, rfl⟩
  · exact ⟨rfl, rfl⟩

/-- The same characters further on, but not at the start, are read as the same tokens there. -/
theorem tokensFrom_shift (d : Nat) {before before' : Option Token} (hsight : sight before' = sight before) (hpos : 0 < pos)
    (hm : cs.length ≤ m) (hn : cs.length ≤ n) : tokensFrom m modes before' heads fresh ⟨pos + d, cs⟩ =
      (tokensFrom n modes before heads fresh ⟨pos, cs⟩).map (shift d) := by
  induction m generalizing n modes before before' heads fresh pos cs with
  | zero =>
    obtain rfl := List.length_eq_zero_iff.1 (Nat.le_zero.1 hm)
    rw [tokensFrom_nil, tokensFrom_nil, List.map_nil]
  | succ m ih =>
    cases cs with
    | nil => rw [tokensFrom_nil, tokensFrom_nil, List.map_nil]
    | cons c cs =>
      obtain ⟨n, rfl⟩ := Nat.exists_eq_succ_of_ne_zero (Nat.ne_of_gt (Nat.lt_of_lt_of_le (Nat.succ_pos cs.length) hn))
      have hstart {pos : Nat} (hpos : 0 < pos) : (pos == 0) = false := by simpa using Nat.ne_of_gt hpos
      have hshifted : (pos + d == 0) = false := hstart (Nat.lt_of_lt_of_le hpos (Nat.le_add_right pos d))
      -- What stands behind so many characters is as short, and not at the start either.
      have hbehind {k : Nat} (hk : 0 < k) : advance k ⟨pos + d, c :: cs⟩ =
          ⟨(advance k ⟨pos, c :: cs⟩).pos + d, (c :: cs).drop k⟩ ∧ 0 < (advance k ⟨pos, c :: cs⟩).pos ∧
            ((c :: cs).drop k).length ≤ m ∧ ((c :: cs).drop k).length ≤ n := by
        have hle := Point.pos_le_advance k ⟨pos, c :: cs⟩
        rw [List.length_cons] at hm hn
        refine ⟨?_, Nat.lt_of_lt_of_le hpos hle, ?_, ?_⟩
        · simp only [advance, Point.mk.injEq, and_true]
          omega
        · rw [List.length_drop, List.length_cons]
          omega
        · rw [List.length_drop, List.length_cons]
          omega
      rcases tokensFrom_cases modes before false c cs with hblank | ⟨kind, text, k, modes', hk, hread⟩
      · obtain ⟨hplace, hpos', hm', hn'⟩ := hbehind Nat.one_pos
        rw [hblank m _ heads fresh _ (read?_congr hsight) hshifted, hblank n _ heads fresh _ rfl (hstart hpos), hplace]
        exact ih hsight hpos' hm' hn'
      · obtain ⟨hplace, hpos', hm', hn'⟩ := hbehind hk
        rw [hread m _ heads fresh _ (read?_congr hsight) hshifted, hread n _ heads fresh _ rfl (hstart hpos), hplace,
          tokenAt_shift, List.map_cons]
        obtain ⟨hsight', hheads⟩ := behindToken_shift d hsight heads (tokenAt kind text k fresh ⟨pos, c :: cs⟩)
        rw [hheads]
        exact congrArg _ (ih hsight' hpos' hm' hn')

theorem reachOf_shift (d size : Nat) {t t' : Token} (h : t'.stop = t.stop + d) (behind : List Token) :
    reachOf (size + d) t' (behind.map (shift d)) = reachOf size t behind + d := by
  have hcomment : (fun t : Token => t.isComment) ∘ shift d = fun t => t.isComment := rfl
  have hfresh : (fun t : Token => !t.fresh) ∘ shift d = fun t => !t.fresh := rfl
  have hcontinues (u : Token) : continues (shift d u) = continues u := rfl
  have his (u : Token) (text : String) : (shift d u).is text = u.is text := rfl
  unfold reachOf
  rw [List.takeWhile_map, List.takeWhile_map, List.getLast?_map, List.dropWhile_map, List.head?_map, hcomment, hfresh]
  cases ((behind.takeWhile (·.isComment)).takeWhile (!·.fresh)).getLast? with
  | none => exact h
  | some c =>
    have hstop : (shift d c).stop = c.stop + d := rfl
    have htext : (shift d c).text = c.text := rfl
    cases (behind.dropWhile (·.isComment)).head? with
    | none =>
      have hsize : (c.stop + d == size + d) = (c.stop == size) := by simp
      dsimp only [Option.map_some, Option.map_none]
      rw [h, hstop, htext, hsize]
      split <;> rfl
    | some u =>
      dsimp only [Option.map_some]
      rw [h, hstop, htext, his, hcontinues]
      split <;> rfl

theorem withReach_shift (d size : Nat) (ts : List Token) :
    withReach (size + d) (ts.map (shift d)) = (withReach size ts).map (shift d) := by
  induction ts with
  | nil => rfl
  | cons t ts ih =>
    have hcomment : (shift d t).isComment = t.isComment := rfl
    rw [List.map_cons, withReach, withReach, List.map_cons, ih, reachOf_shift d size rfl, hcomment]
    cases t.isComment <;> rfl

/-! ## Words in front -/

theorem skipWhile_append {test : Char → Bool} {word rest : List Char} (hword : ∀ c ∈ word, test c = true)
    (hrest : ∀ c ∈ rest.head?, test c = false) (pos : Nat) :
    Point.skipWhile test ⟨pos, word ++ rest⟩ = advance word.length ⟨pos, word ++ rest⟩ := by
  have hgo (pos : Nat) : Point.skipWhile.go test pos (word ++ rest) = advance word.length ⟨pos, word ++ rest⟩ := by
    induction word generalizing pos with
    | nil =>
      cases rest with
      | nil => rfl
      | cons c rest =>
        rw [List.nil_append, Point.skipWhile.go, hrest c rfl]
        rfl
    | cons c word ih =>
      rw [List.forall_mem_cons] at hword
      rw [List.cons_append, Point.skipWhile.go, if_pos hword.1, List.length_cons, advance_succ_cons, ih hword.2]
  exact hgo pos

variable {word rest : List Char}

section

variable (hc : c.isLower = true)
include hc

/-- A small letter is nothing else. -/
theorem beq_eq_false_of_isLower {d : Char} (hd : d.isLower = false) : (c == d) = false := by
  rw [beq_eq_false_iff_ne]
  rintro rfl
  rw [hc] at hd
  cases hd

theorem blank_and_digit_of_isLower : Text.isBlank c = false ∧ c.isDigit = false := by
  have hcode : 97 ≤ c.toNat ∧ c.toNat ≤ 122 := by
    have hlower : (decide (c.val ≥ 'a'.val) && decide (c.val ≤ 'z'.val)) = true := hc
    simpa [UInt32.le_iff_toNat_le] using hlower
  constructor
  · rw [← Bool.not_eq_true]
    simp only [Text.isBlank, Bool.or_eq_true, Bool.and_eq_true, decide_eq_true_eq, beq_iff_eq]
    omega
  · have hbehind : ¬ c.val ≤ '9'.val := fun h => absurd (Nat.le_trans hcode.1 h) (by decide)
    rw [Char.isDigit, Bool.and_eq_false_iff]
    exact .inr (decide_eq_false hbehind)

/-- No comment begins with it. -/
theorem sees_of_isLower (pos : Nat) (cs : List Char) : Point.blockComment? ⟨pos, c :: cs⟩ = none ∧
    ∀ text ∈ ["//", "<!--", "#!"], Point.sees ⟨pos, c :: cs⟩ text = false := by
  constructor
  · unfold Point.blockComment?
    split
    · rename_i heq
      cases heq
      cases hc
    · rfl
  · have hsees {text : String} {d : Char} {ds : List Char} (htext : text.toList = d :: ds) (hd : d.isLower = false) :
        Point.sees ⟨pos, c :: cs⟩ text = false := by
      rw [Point.sees, htext, List.isPrefixOf_cons_cons, BEq.comm, beq_eq_false_of_isLower hc hd, Bool.false_and]
    intro text htext
    simp only [List.mem_cons, List.not_mem_nil, or_false] at htext
    rcases htext with rfl | rfl | rfl <;> exact hsees rfl (by decide)

theorem seesMarkup_of_isLower (pos : Nat) (cs : List Char) : seesMarkup ⟨pos, c :: cs⟩ = false := by
  unfold seesMarkup
  split
  · rename_i heq
    cases heq
    cases hc
  · rfl

variable (hword : ∀ d ∈ c :: word, isName d = true) (hrest : ∀ d ∈ rest.head?, isName d = false)
include hword hrest

/-- A small letter begins a word. -/
theorem readCode_word (behindOperand behindBlock : Bool) (pos : Nat) :
    readCode behindOperand behindBlock ⟨pos, c :: (word ++ rest)⟩ =
      (.word, advance (c :: word).length ⟨pos, c :: (word ++ rest)⟩) := by
  have hskip := skipWhile_append hword hrest pos
  rw [List.cons_append] at hskip
  obtain ⟨hcomment, hsees⟩ := sees_of_isLower hc pos (word ++ rest)
  unfold readCode
  dsimp only
  rw [hsees "//" (by decide), hsees "<!--" (by decide), hsees "#!" (by decide), hcomment,
    beq_eq_false_of_isLower hc (by decide : '"'.isLower = false),
    beq_eq_false_of_isLower hc (by decide : '\''.isLower = false), (blank_and_digit_of_isLower hc).2,
    hword c List.mem_cons_self, hskip]
  simp

/-- So it does among other code, unless it stands in a name already. -/
theorem read?_word (hdot : behindDot before = false) (pos : Nat) :
    read? [] before ⟨pos, c :: word ++ rest⟩ =
      some ⟨.word, advance (c :: word).length ⟨pos, c :: word ++ rest⟩, [], none⟩ := by
  rw [List.cons_append]
  unfold read?
  dsimp only
  rw [(blank_and_digit_of_isLower hc).1, beq_eq_false_of_isLower hc (by decide : '\uFEFF'.isLower = false),
    beq_eq_false_of_isLower hc (by decide : '\x60'.isLower = false), seesMarkup_of_isLower hc,
    readCode_word hc hword hrest, hdot]
  simp

end

/-- The word in its place. -/
def wordAt (word : List Char) (pos : Nat) (fresh : Bool) : Token :=
  { kind := .word, text := String.ofList word, start := pos, stop := pos + utf8Len word, fresh }

theorem tokensFrom_word (hc : c.isLower = true) (hword : ∀ d ∈ c :: word, isName d = true)
    (hrest : ∀ d ∈ rest.head?, isName d = false) (hdot : behindDot before = false) (n : Nat) (heads : List Bool)
    (fresh : Bool) (pos : Nat) : tokensFrom (n + 1) [] before heads fresh ⟨pos, c :: word ++ rest⟩ =
      wordAt (c :: word) pos fresh :: tokensFrom n [] (some (wordAt (c :: word) pos fresh)) heads false
        ⟨pos + utf8Len (c :: word), rest⟩ := by
  have hplace : advance (c :: word).length ⟨pos, c :: word ++ rest⟩ = ⟨pos + utf8Len (c :: word), rest⟩ := by
    rw [advance, List.take_left, List.drop_left]
  have hadvance := Point.advance_or_next (c :: word).length ⟨pos, c :: word ++ rest⟩
  have hread := read?_word hc hword hrest hdot pos
  have hbetween : Token.between .word ⟨pos, c :: word ++ rest⟩ ⟨pos + utf8Len (c :: word), rest⟩ fresh =
      wordAt (c :: word) pos fresh := by
    rw [← hplace, Token.between, Point.upTo_advance, hplace, List.take_left]
    rfl
  have hbehind : behindToken before heads (wordAt (c :: word) pos fresh) = (some (wordAt (c :: word) pos fresh), heads) := by
    unfold behindToken
    rfl
  rw [Nat.max_eq_right (by rw [List.length_cons]; omega)] at hadvance
  rw [hplace] at hadvance hread
  rw [tokensFrom]
  dsimp only [List.cons_append] at hread hadvance hbetween ⊢
  rw [hread]
  dsimp only [Option.getD_none]
  rw [hadvance, hbetween, hbehind]

/-! ## The word for exports in front -/

/-- The source behind the word for exports. -/
def exported (source : List Char) : List Char := "export ".toList ++ source

theorem tokensFrom_exported (hc : c.isLower = true) (hword : ∀ d ∈ c :: word, isName d = true)
    (hrest : ∀ d ∈ rest.head?, isName d = false) (n : Nat) :
    tokensFrom (n + 3) [] none [] true ⟨0, exported (c :: word ++ rest)⟩ =
      wordAt "export".toList 0 true :: wordAt (c :: word) 7 false ::
        tokensFrom n [] (some (wordAt (c :: word) 7 false)) [] false ⟨7 + utf8Len (c :: word), rest⟩ := by
  have hsource : exported (c :: word ++ rest) = 'e' :: "xport".toList ++ ' ' :: (c :: word ++ rest) := rfl
  have hspace : tokensFrom (n + 2) [] (some (wordAt "export".toList 0 true)) [] false ⟨6, ' ' :: (c :: word ++ rest)⟩ =
      tokensFrom (n + 1) [] (some (wordAt "export".toList 0 true)) [] false ⟨7, c :: word ++ rest⟩ := rfl
  rw [hsource, tokensFrom_word (by decide) (List.all_eq_true.1 (by decide)) (fun d hd => by cases hd; rfl) rfl]
  refine congrArg _ (hspace.trans ?_)
  exact tokensFrom_word hc hword hrest rfl n [] false 7

/-- Behind the word for exports and a space the tokens of a source follow, further on. -/
theorem tokens_exported (hc : c.isLower = true) (hword : ∀ d ∈ c :: word, isName d = true)
    (hrest : ∀ d ∈ rest.head?, isName d = false) : ∃ reach behind,
      tokens (c :: word ++ rest) = { wordAt (c :: word) 0 true with reach } :: behind ∧
      tokens (exported (c :: word ++ rest)) = wordAt "export".toList 0 true ::
        { wordAt (c :: word) 7 false with reach := reach + 7 } :: behind.map (shift 7) := by
  have hsize : (String.ofList (exported (c :: word ++ rest))).utf8ByteSize =
      (String.ofList (c :: word ++ rest)).utf8ByteSize + 7 := by
    unfold exported
    rw [String.ofList_append, String.utf8ByteSize_append, Nat.add_comm]
    rfl
  -- The steps left behind the word suffice in both sources.
  have hbehind (m n : Nat) (hm : rest.length ≤ m) (hn : rest.length ≤ n) :
      tokensFrom m [] (some (wordAt (c :: word) 7 false)) [] false ⟨7 + utf8Len (c :: word), rest⟩ =
        (tokensFrom n [] (some (wordAt (c :: word) 0 true)) [] false ⟨0 + utf8Len (c :: word), rest⟩).map (shift 7) := by
    have hpos : 0 < 0 + utf8Len (c :: word) := by
      have := c.utf8Size_pos
      rw [String.utf8Len_cons]
      omega
    have hplace : 7 + utf8Len (c :: word) = 0 + utf8Len (c :: word) + 7 := by omega
    rw [hplace]
    exact tokensFrom_shift 7 rfl hpos hm hn
  have hlength : 2 * (exported (c :: word ++ rest)).length + 1 = 2 * (c :: word ++ rest).length + 12 + 3 := by
    unfold exported
    rw [List.length_append]
    change 2 * (7 + _) + 1 = _
    omega
  have hroom : rest.length ≤ 2 * (c :: word ++ rest).length := by
    rw [List.length_append]
    omega
  have htokens : tokens (c :: word ++ rest) = withReach (String.ofList (c :: word ++ rest)).utf8ByteSize
      (wordAt (c :: word) 0 true :: tokensFrom (2 * (c :: word ++ rest).length) [] (some (wordAt (c :: word) 0 true)) []
        false ⟨0 + utf8Len (c :: word), rest⟩) := by
    rw [tokens, Point.start, tokensFrom_word hc hword hrest rfl]
  have hexported : tokens (exported (c :: word ++ rest)) =
      withReach ((String.ofList (c :: word ++ rest)).utf8ByteSize + 7) (wordAt "export".toList 0 true ::
        wordAt (c :: word) 7 false :: (tokensFrom (2 * (c :: word ++ rest).length) [] (some (wordAt (c :: word) 0 true)) []
          false ⟨0 + utf8Len (c :: word), rest⟩).map (shift 7)) := by
    rw [tokens, Point.start, hlength, tokensFrom_exported hc hword hrest, hbehind _ _ (by omega) hroom, hsize]
  have hstop : (wordAt (c :: word) 7 false).stop = (wordAt (c :: word) 0 true).stop + 7 := by
    simp only [wordAt]
    omega
  have hreach := reachOf_shift 7 (String.ofList (c :: word ++ rest)).utf8ByteSize hstop
  refine ⟨_, _, htokens.trans rfl, ?_⟩
  rw [hexported, withReach, withReach, withReach_shift, hreach]
  rfl

/-- So do those of its tokens that are no comments. -/
theorem significant_exported (hc : c.isLower = true) (hword : ∀ d ∈ c :: word, isName d = true)
    (hrest : ∀ d ∈ rest.head?, isName d = false) : ∃ reach behind,
      significant (tokens (c :: word ++ rest)) = { wordAt (c :: word) 0 true with reach } :: behind ∧
      significant (tokens (exported (c :: word ++ rest))) = wordAt "export".toList 0 true ::
        { wordAt (c :: word) 7 false with reach := reach + 7 } :: behind.map (shift 7) := by
  have hgo (fresh : Bool) (ts : List Token) :
      significant.go fresh (ts.map (shift 7)) = (significant.go fresh ts).map (shift 7) := by
    induction ts generalizing fresh with
    | nil => rfl
    | cons t ts ih =>
      have hcomment : (shift 7 t).isComment = t.isComment := rfl
      have hfresh : (shift 7 t).fresh = t.fresh := rfl
      rw [List.map_cons, significant.go, significant.go, hcomment, hfresh, ih, ih]
      split <;> rfl
  obtain ⟨reach, behind, htokens, hexported⟩ := tokens_exported hc hword hrest
  refine ⟨reach, significant.go false behind, ?_, ?_⟩
  · rw [htokens]
    rfl
  · rw [hexported, ← hgo]
    rfl

end PromptPack.Syntax.JavaScript
