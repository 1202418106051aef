import PromptPack.Proofs.Syntax.JavaScript.Bindings
import PromptPack.Proofs.Syntax.JavaScript.Tokens
/-!
# Bindings further on

A binding that stands further on in a source is a binding still, and a statement is one statement there.
-/

namespace PromptPack.Syntax.JavaScript

variable {d : Nat} {t u : Tree} {ts head body : List Tree} {arrow : Bool} {k k' : Token}

theorem is_shift (d : Nat) (t : Tree) (w : String) : (t.map (shift d)).is w = t.is w := by cases t <;> rfl

theorem opensWith_shift (d : Nat) (t : Tree) (w : String) : (t.map (shift d)).opensWith w = t.opensWith w := by cases t <;> rfl

theorem fresh_shift (d : Nat) (t : Tree) : (t.map (shift d)).fresh = t.fresh := by cases t <;> rfl

theorem isBindable_shift (d : Nat) (t : Tree) : isBindable (t.map (shift d)) = isBindable t := by cases t <;> rfl

theorem lastToken_shift (d : Nat) (t : Tree) : (t.map (shift d)).lastToken = shift d t.lastToken := by cases t <;> rfl

theorem firstToken_shift (d : Nat) (t : Tree) : (t.map (shift d)).firstToken = shift d t.firstToken := by cases t <;> rfl

/-! ## Statements -/

theorem breaksBetween_shift (d : Nat) (t u : Tree) :
    breaksBetween (t.map (shift d)) (u.map (shift d)) = breaksBetween t u := by
  have hends : endsOperand (t.map (shift d)).lastToken = endsOperand t.lastToken := by
    rw [lastToken_shift]
    rfl
  have hcontinues : continues (u.map (shift d)).firstToken = continues u.firstToken := by
    rw [firstToken_shift]
    rfl
  have htext : isText (u.map (shift d)) = isText u := by cases u <;> rfl
  have his : (t.map (shift d)).is = t.is := funext (is_shift d t)
  rw [breaksBetween, breaksBetween, fresh_shift, hends, hcontinues, htext, his]

theorem headBehind_shift (d : Nat) (inHead : Bool) (t : Tree) :
    headBehind inHead (t.map (shift d)) = headBehind inHead t := by
  rw [headBehind, headBehind, opensWith_shift, is_shift, is_shift]

theorem statement_go_shift (d : Nat) (inHead : Bool) (ts : List Tree) :
    statement.go inHead (mapTrees (shift d) ts) = mapTrees (shift d) (statement.go inHead ts) := by
  induction ts generalizing inHead with
  | nil => rfl
  | cons t ts ih =>
    cases ts with
    | nil =>
      rw [mapTrees, mapTrees, statement.go, statement.go, is_shift]
      cases t.is ";" <;> rfl
    | cons u ts =>
      have hbehind := ih (headBehind inHead t)
      rw [mapTrees] at hbehind
      rw [mapTrees, mapTrees, statement.go, statement.go, is_shift]
      dsimp only
      rw [headBehind_shift, breaksBetween_shift, hbehind]
      split_ifs <;> rfl

/-- Behind a word of the same text, a statement further on is one statement too. -/
theorem statement_shift (d : Nat) (hkind : k'.kind = k.kind) (htext : k'.text = k.text)
    (hone : statement (.leaf k :: ts) = .leaf k :: ts) :
    statement (.leaf k' :: mapTrees (shift d) ts) = .leaf k' :: mapTrees (shift d) ts := by
  have his : (Tree.leaf k').is = (Tree.leaf k).is := funext fun w => by
    rw [Tree.is, Tree.is, Token.is, Token.is, hkind, htext]
  have hhead : headBehind false (.leaf k') = headBehind false (.leaf k) := by
    rw [headBehind, headBehind, his]
    rfl
  cases ts with
  | nil =>
    rw [mapTrees, statement, statement.go]
    split <;> rfl
  | cons u ts =>
    have hends : endsOperand (Tree.leaf k').lastToken = endsOperand (Tree.leaf k).lastToken := by
      rw [endsOperand, endsOperand]
      dsimp only [Tree.lastToken]
      rw [hkind, htext]
    have hbreak : breaksBetween (.leaf k') (u.map (shift d)) = breaksBetween (.leaf k) u := by
      rw [← breaksBetween_shift d (.leaf k) u, breaksBetween, breaksBetween, his, hends]
      rfl
    have hbehind := statement_go_shift d (headBehind false (.leaf k)) (u :: ts)
    rw [mapTrees] at hbehind ⊢
    rw [statement, statement.go] at hone ⊢
    dsimp only at hone ⊢
    rw [his, hhead, hbreak, hbehind]
    split_ifs at hone ⊢ with hend hstop
    · cases (List.cons.inj hone).2
    · cases (List.cons.inj hone).2
    · rw [(List.cons.inj hone).2]
      rfl

/-! ## Bindings -/

theorem FunctionValue.shift (d : Nat) (h : FunctionValue arrow head body) :
    FunctionValue arrow (mapTrees (shift d) head) (mapTrees (shift d) body) := by
  have hword {w : String} {t : Tree} (h : t.is w = true) : (t.map (JavaScript.shift d)).is w = true :=
    (is_shift d t w).trans h
  rw [mapTrees_eq, mapTrees_eq]
  cases h with
  | @arrow params mark t ts async hasync hparams hmark ht hbody =>
    rw [List.map_append, ← Option.toList_map]
    refine .arrow (async.map _) ?_ ?_ (hword hmark) (fun hopens => ?_) (fun u hu => ?_)
    · intro a ha
      obtain ⟨v, hv, rfl⟩ := Option.map_eq_some_iff.1 ha
      exact hword (hasync v hv)
    · rwa [isBindable_shift, opensWith_shift]
    · rw [opensWith_shift] at hopens
      rw [ht hopens]
      rfl
    · rw [← List.map_cons] at hu
      obtain ⟨v, hv, rfl⟩ := List.mem_map.1 hu
      rw [is_shift, is_shift]
      exact hbody v hv
  | @function key params block async name hasync hkey hname hparams hblock =>
    rw [List.map_append, List.map_cons, List.map_append, ← Option.toList_map, ← Option.toList_map]
    refine .function (async.map _) (name.map _) ?_ (hword hkey) ?_ ?_ ?_
    · intro a ha
      obtain ⟨v, hv, rfl⟩ := Option.map_eq_some_iff.1 ha
      exact ⟨hword (hasync v hv).1, (fresh_shift d key).trans (hasync v hv).2⟩
    · intro n hn
      obtain ⟨v, hv, rfl⟩ := Option.map_eq_some_iff.1 hn
      exact (isBindable_shift d v).trans (hname v hv)
    · exact (opensWith_shift d params "(").trans hparams
    · exact (opensWith_shift d block "\x7b").trans hblock

namespace Binding

/-- The binding so many bytes further on. -/
def shift (d : Nat) (b : Binding) : Binding where
  name := b.name.map (JavaScript.shift d)
  sign := b.sign.map (JavaScript.shift d)
  arrow := b.arrow
  head := mapTrees (JavaScript.shift d) b.head
  body := mapTrees (JavaScript.shift d) b.body
  semicolon := b.semicolon.map (Tree.map (JavaScript.shift d))
  name_isBindable := (isBindable_shift d b.name).trans b.name_isBindable
  sign_is := (is_shift d b.sign "=").trans b.sign_is
  value := b.value.shift d
  semicolon_is t ht := by
    obtain ⟨u, hu, rfl⟩ := Option.map_eq_some_iff.1 ht
    rw [is_shift]
    exact b.semicolon_is u hu

theorem trees_shift (d : Nat) (b : Binding) : (b.shift d).trees = mapTrees (JavaScript.shift d) b.trees := by
  simp only [trees, shift, mapTrees_eq, List.map_cons, List.map_append, Option.toList_map]

theorem body_eq_cons (b : Binding) : ∃ t ts, b.body = t :: ts := by
  obtain ⟨-, front, last, hbody, -⟩ := b.value.separates
  exact List.exists_cons_of_ne_nil (by rw [hbody]; simp)

theorem exists_region_start (b : Binding) : ∃ t ∈ b.trees, b.region.start = t.start := by
  obtain ⟨t, ts, hbody⟩ := b.body_eq_cons
  refine ⟨t, by simp [trees, hbody], ?_⟩
  rw [region, hbody]
  rfl

theorem region_start_shift (d : Nat) (b : Binding) : (b.shift d).region.start = b.region.start + d := by
  obtain ⟨t, ts, hbody⟩ := b.body_eq_cons
  have hstart : (t.map (JavaScript.shift d)).start = t.start + d := by cases t <;> rfl
  rw [region, region, shift]
  dsimp only
  rw [hbody]
  exact hstart

end Binding

theorem stopOf_shift (d : Nat) (hne : ts ≠ []) : stopOf (mapTrees (shift d) ts) = stopOf ts + d := by
  obtain ⟨front, last, rfl⟩ := (List.eq_nil_or_concat ts).resolve_left hne
  have hstop : (last.map (shift d)).stop = last.stop + d := by cases last <;> rfl
  rw [mapTrees_eq, List.concat_eq_append, List.map_append, List.map_singleton, stopOf, stopOf, List.getLast?_concat,
    List.getLast?_concat]
  exact hstop

theorem stopOf_cons (t : Tree) (hne : ts ≠ []) : stopOf (t :: ts) = stopOf ts := by
  rw [stopOf, stopOf, List.getLast?_cons_of_ne_nil hne]

theorem Binding.trees_ne_nil (b : Binding) : b.trees ≠ [] := List.cons_ne_nil _ _

end PromptPack.Syntax.JavaScript
