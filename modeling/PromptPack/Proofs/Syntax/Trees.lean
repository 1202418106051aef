import PromptPack.Outline.Hit
import PromptPack.Proofs.Syntax.Places
/-!
# Trees and their tokens

Gathering tokens into trees loses none of them and keeps their order (`leavesOf_treesOf`). It looks at the kinds and
the texts of the tokens alone (`treesOf_map`), and behind a token that is no bracket it goes on as if from the start
(`treesOf_cons`). The tokens that are no comments lie apart, and so do the trees made of them.
-/

namespace PromptPack.Syntax

/-! ## The tokens of a tree -/

mutual

/-- The tokens of a tree, in order. -/
def Tree.leaves : Tree → List Token
  | .leaf t => [t]
  | .group o items c => o :: (leavesOf items ++ [c])

/-- The tokens of a list of trees, in order. -/
def leavesOf : List Tree → List Token
  | [] => []
  | t :: ts => t.leaves ++ leavesOf ts

end

mutual

/-- The tree with each of its tokens changed. -/
def Tree.map (f : Token → Token) : Tree → Tree
  | .leaf t => .leaf (f t)
  | .group o items c => .group (f o) (mapTrees f items) (f c)

/-- The trees with each of their tokens changed. -/
def mapTrees (f : Token → Token) : List Tree → List Tree
  | [] => []
  | t :: ts => t.map f :: mapTrees f ts

end

variable {f : Token → Token} {t : Token} {ts : List Token} {open_ : List String} {m n : Nat}

theorem mapTrees_eq (f : Token → Token) (trees : List Tree) : mapTrees f trees = trees.map (Tree.map f) := by
  induction trees with
  | nil => rfl
  | cons t trees ih => rw [mapTrees, ih, List.map_cons]

theorem leavesOf_append (front back : List Tree) : leavesOf (front ++ back) = leavesOf front ++ leavesOf back := by
  induction front with
  | nil => rfl
  | cons t front ih => rw [List.cons_append, leavesOf, ih, leavesOf, List.append_assoc]

theorem leavesOf_flatMap {α : Type} (g : α → List Tree) (items : List α) :
    leavesOf (items.flatMap g) = items.flatMap fun a => leavesOf (g a) := by
  induction items with
  | nil => rfl
  | cons a items ih => rw [List.flatMap_cons, leavesOf_append, ih, List.flatMap_cons]

theorem mem_leavesOf {trees : List Tree} : t ∈ leavesOf trees ↔ ∃ tree ∈ trees, t ∈ tree.leaves := by
  induction trees with
  | nil => simp [leavesOf]
  | cons tree trees ih => simp [leavesOf, ih]

theorem Tree.firstToken_mem (tree : Tree) : tree.firstToken ∈ tree.leaves := by
  cases tree <;> simp [firstToken, leaves]

theorem Tree.lastToken_mem (tree : Tree) : tree.lastToken ∈ tree.leaves := by
  cases tree <;> simp [lastToken, leaves]

/-! ## Gathering -/

/-- What gathering leaves behind, given enough steps, is nothing or begins with a bracket that closes an open one. -/
def Stops (open_ : List String) : List Token → Prop
  | [] => True
  | t :: _ => t.text ∈ open_

/-- Gathering splits the tokens into those of the trees and a rest. -/
theorem gather_splits (n : Nat) (open_ : List String) (ts : List Token) :
    leavesOf (gather n open_ ts).1 ++ (gather n open_ ts).2 = ts := by
  induction n generalizing open_ ts with
  | zero => rfl
  | succ n ih =>
    cases ts with
    | nil => rfl
    | cons t ts =>
      have hlone : leavesOf (.leaf t :: (gather n open_ ts).1) ++ (gather n open_ ts).2 = t :: ts := by
        rw [leavesOf, Tree.leaves, List.append_assoc, ih, List.singleton_append]
      rw [gather]
      dsimp only
      split
      · exact hlone
      · split
        · rename_i close _
          have hinner := ih (close :: open_) ts
          split
          · rename_i inner c rest heq
            rw [heq] at hinner
            dsimp only at hinner
            subst hinner
            split
            · simp only [leavesOf, Tree.leaves, List.append_assoc, List.cons_append, List.nil_append, ih]
            · simp only [leavesOf, Tree.leaves, leavesOf_append, List.append_assoc, List.cons_append, List.nil_append, ih]
          · rename_i inner heq
            rw [heq, List.append_nil] at hinner
            dsimp only at hinner
            simp only [leavesOf, Tree.leaves, hinner, List.append_nil, List.singleton_append]
        · split
          · rfl
          · exact hlone

theorem length_gather_le (n : Nat) (open_ : List String) (ts : List Token) : (gather n open_ ts).2.length ≤ ts.length := by
  have h := congrArg List.length (gather_splits n open_ ts)
  rw [List.length_append] at h
  omega

theorem gather_stops (h : ts.length ≤ n) : Stops open_ (gather n open_ ts).2 := by
  induction n generalizing open_ ts with
  | zero =>
    obtain rfl := List.length_eq_zero_iff.1 (Nat.le_zero.1 h)
    trivial
  | succ n ih =>
    cases ts with
    | nil => trivial
    | cons t ts =>
      have hlength : ts.length ≤ n := Nat.le_of_succ_le_succ h
      rw [gather]
      dsimp only
      split
      · exact ih hlength
      · split
        · rename_i close _
          have hrest := length_gather_le n (close :: open_) ts
          split
          · rename_i inner c rest heq
            rw [heq] at hrest
            dsimp only [List.length_cons] at hrest
            split
            · exact ih (by omega)
            · exact ih (by rw [List.length_cons]; omega)
          · trivial
        · split
          · rename_i hclosing
            rw [Bool.and_eq_true, List.contains_iff_mem] at hclosing
            exact hclosing.2
          · exact ih hlength

/-- Gathering all tokens loses none. -/
theorem leavesOf_treesOf (ts : List Token) : leavesOf (treesOf ts) = ts := by
  have hsplits := gather_splits (2 * ts.length + 1) [] ts
  have hstops : Stops [] (gather (2 * ts.length + 1) [] ts).2 := gather_stops (by omega)
  rw [treesOf]
  cases hrest : (gather (2 * ts.length + 1) [] ts).2 with
  | nil => rwa [hrest, List.append_nil] at hsplits
  | cons u rest =>
    rw [hrest] at hstops
    cases hstops

/-! ## What gathering depends on -/

/-- Once there is a step for each token, more steps change nothing. -/
theorem gather_eq_of_le (hm : ts.length ≤ m) (hn : ts.length ≤ n) : gather m open_ ts = gather n open_ ts := by
  induction m generalizing n open_ ts with
  | zero =>
    obtain rfl := List.length_eq_zero_iff.1 (Nat.le_zero.1 hm)
    cases n <;> rfl
  | succ m ih =>
    cases n with
    | zero =>
      obtain rfl := List.length_eq_zero_iff.1 (Nat.le_zero.1 hn)
      rfl
    | succ n =>
      cases ts with
      | nil => rfl
      | cons t ts =>
        have hm : ts.length ≤ m := Nat.le_of_succ_le_succ hm
        have hn : ts.length ≤ n := Nat.le_of_succ_le_succ hn
        -- A group leaves fewer tokens than it was given, so the steps are enough behind it, too.
        have hrest (close : String) (inner : List Tree) (c : Token) (rest : List Token)
            (heq : gather n (close :: open_) ts = (inner, c :: rest)) : rest.length + 1 ≤ ts.length := by
          have := length_gather_le n (close :: open_) ts
          rwa [heq] at this
        rw [gather, gather]
        dsimp only
        rw [ih hm hn]
        split
        · rfl
        · split
          · rw [ih hm hn]
            split
            · rename_i inner c rest heq
              have hle : (c :: rest).length ≤ ts.length := hrest _ _ _ _ heq
              have hle' : rest.length ≤ ts.length := Nat.le_of_succ_le hle
              split
              · have hback : gather m open_ rest = gather n open_ rest := ih (by omega) (by omega)
                rw [hback]
              · have hback : gather m open_ (c :: rest) = gather n open_ (c :: rest) := ih (by omega) (by omega)
                rw [hback]
            · rfl
          · rfl

theorem treesOf_eq (h : ts.length ≤ n) : treesOf ts = (gather n [] ts).1 := by
  rw [treesOf, gather_eq_of_le (by omega) h]

/-- Gathering looks at kinds and texts alone. -/
theorem gather_map (hkind : ∀ t, (f t).kind = t.kind) (htext : ∀ t, (f t).text = t.text) (n : Nat)
    (open_ : List String) (ts : List Token) :
    gather n open_ (ts.map f) = (mapTrees f (gather n open_ ts).1, (gather n open_ ts).2.map f) := by
  induction n generalizing open_ ts with
  | zero => rfl
  | succ n ih =>
    cases ts with
    | nil => rfl
    | cons t ts =>
      rw [List.map_cons, gather, gather]
      dsimp only
      rw [hkind, htext, ih]
      split
      · rfl
      · split
        · rw [ih]
          rcases gather n _ ts with ⟨inner, _ | ⟨c, rest⟩⟩
          · rfl
          · simp only [List.map_cons, htext]
            split
            · rw [ih]
              rfl
            · rw [← List.map_cons, ih]
              simp only [mapTrees_eq, List.map_cons, List.map_append]
              rfl
        · split <;> rfl

theorem treesOf_map (hkind : ∀ t, (f t).kind = t.kind) (htext : ∀ t, (f t).text = t.text) (ts : List Token) :
    treesOf (ts.map f) = mapTrees f (treesOf ts) := by
  rw [treesOf, gather_map hkind htext, List.length_map, treesOf]

/-- A token that is no mark stands for itself. -/
theorem treesOf_cons (h : t.kind ≠ .mark) (ts : List Token) : treesOf (t :: ts) = .leaf t :: treesOf ts := by
  rw [treesOf_eq (Nat.le_refl _), treesOf_eq (Nat.le_refl ts.length), List.length_cons, gather]
  dsimp only
  rw [if_pos (by simpa using h)]

/-! ## Spans -/

/-- The tokens follow one another, and each takes some room. -/
structure Apart (ts : List Token) : Prop where
  ordered : ts.Pairwise fun a b => a.stop ≤ b.start
  room : ∀ t ∈ ts, t.start < t.stop

theorem Laid.apart {fits : List Char → Token → Prop} {p : Point} (h : Laid fits p ts) : Apart ts :=
  ⟨h.ordered.2, fun _ ht => h.start_lt_stop ht⟩

theorem Apart.significant (h : Apart ts) : Apart (significant ts) where
  ordered := by
    have hspans : (ts.filter fun t => !t.isComment).Pairwise fun a b => a.stop ≤ b.start := h.ordered.filter _
    rw [← List.pairwise_map (f := fun t : Token => (t.start, t.stop)) (R := fun a b => a.2 ≤ b.1),
      ← map_significant fun _ _ => rfl, List.pairwise_map] at hspans
    exact hspans
  room t ht := by
    obtain ⟨u, hu, -, -, -, hstart, hstop⟩ := exists_of_mem_significant ht
    rw [← hstart, ← hstop]
    exact h.room u hu

variable {tree : Tree} {trees : List Tree}

theorem Tree.leaves_eq_cons (tree : Tree) : tree.leaves = tree.firstToken :: tree.leaves.tail := by
  cases tree <;> rfl

theorem Tree.leaves_eq_concat (tree : Tree) : tree.leaves = tree.leaves.dropLast ++ [tree.lastToken] := by
  cases tree with
  | leaf => rfl
  | group o items c => simp [leaves, lastToken, List.dropLast_cons_of_ne_nil]

theorem leavesOf_cons_eq (tree : Tree) (trees : List Tree) :
    leavesOf (tree :: trees) = tree.firstToken :: (leavesOf (tree :: trees)).tail := by
  rw [leavesOf, Tree.leaves_eq_cons]
  rfl

theorem leavesOf_concat (front : List Tree) (tree : Tree) :
    leavesOf (front ++ [tree]) = leavesOf front ++ tree.leaves.dropLast ++ [tree.lastToken] := by
  rw [leavesOf_append, leavesOf, leavesOf, List.append_nil, List.append_assoc, ← Tree.leaves_eq_concat]

/-- The tokens behind the first begin behind it. -/
theorem Apart.start_lt (h : Apart (leavesOf (tree :: trees))) (ht : t ∈ (leavesOf (tree :: trees)).tail) :
    tree.start < t.start := by
  have hroom := h.room tree.firstToken (by rw [leavesOf_cons_eq]; exact List.mem_cons_self)
  have hordered := h.ordered
  rw [leavesOf_cons_eq] at hordered
  exact Nat.lt_of_lt_of_le hroom ((List.pairwise_cons.1 hordered).1 t ht)

theorem Apart.start_le (h : Apart (leavesOf (tree :: trees))) (ht : t ∈ leavesOf (tree :: trees)) :
    tree.start ≤ t.start := by
  rw [leavesOf_cons_eq] at ht
  rcases List.mem_cons.1 ht with rfl | ht
  · exact Nat.le_refl _
  · exact Nat.le_of_lt (h.start_lt ht)

theorem Apart.stop_le (h : Apart (leavesOf (trees ++ [tree]))) (ht : t ∈ leavesOf (trees ++ [tree])) :
    t.stop ≤ tree.stop := by
  have hroom := h.room tree.lastToken (by rw [leavesOf_concat]; simp)
  have hordered := h.ordered
  rw [leavesOf_concat] at hordered ht
  rcases List.mem_append.1 ht with ht | ht
  · have hle := (List.pairwise_append.1 hordered).2.2 t ht _ List.mem_cons_self
    have : tree.lastToken.stop = tree.stop := rfl
    omega
  · rw [List.mem_singleton.1 ht]
    exact Nat.le_refl _

/-- A tree in front of the last ends before the last does. -/
theorem Apart.stop_lt (h : Apart (leavesOf (trees ++ [tree]))) {u : Tree} (hu : u ∈ trees) : u.stop < tree.stop := by
  have hroom := h.room tree.lastToken (by rw [leavesOf_concat]; simp)
  have hordered := h.ordered
  rw [leavesOf_concat] at hordered
  have hmem : u.lastToken ∈ leavesOf trees ++ tree.leaves.dropLast :=
    List.mem_append_left _ (mem_leavesOf.2 ⟨u, hu, u.lastToken_mem⟩)
  exact Nat.lt_of_le_of_lt ((List.pairwise_append.1 hordered).2.2 _ hmem _ List.mem_cons_self) hroom

/-! ## Kinds of trees -/

/-- A mark or word is no other. -/
theorem is_eq_false_of_is {v w : String} (h : tree.is v = true) (hne : v ≠ w) : tree.is w = false := by
  cases tree with
  | group => cases h
  | leaf token =>
    simp only [Tree.is, Token.is, Bool.and_eq_true, beq_iff_eq] at h ⊢
    rw [h.2, Bool.and_eq_false_iff, beq_eq_false_iff_ne]
    exact .inr hne

theorem is_eq_beq {v : String} (h : tree.is v = true) (w : String) : tree.is w = (v == w) := by
  by_cases heq : v = w
  · rw [← heq, h, beq_self_eq_true]
  · rw [is_eq_false_of_is h heq, beq_false_of_ne heq]

theorem is_eq_false_of_opensWith {w : String} (h : tree.opensWith w = true) (v : String) : tree.is v = false := by
  cases tree with
  | group => rfl
  | leaf => cases h

theorem opensWith_of_isWord (h : tree.isWord = true) (w : String) : tree.opensWith w = false := by
  cases tree with
  | group => cases h
  | leaf => rfl

theorem opensWith_of_is {v : String} (h : tree.is v = true) (w : String) : tree.opensWith w = false := by
  cases tree with
  | group => cases h
  | leaf => rfl

/-! ## Where hits start -/

/-- The hit begins with one of the trees. -/
def StartsIn (trees : List Tree) (h : Outline.Hit) : Prop := ∃ t ∈ trees, h.node.start = t.start

theorem StartsIn.mono {trees' : List Tree} {h : Outline.Hit} (hh : StartsIn trees h) (hsub : trees ⊆ trees') :
    StartsIn trees' h := by
  obtain ⟨t, ht, hstart⟩ := hh
  exact ⟨t, hsub ht, hstart⟩

theorem StartsIn.leaves {h : Outline.Hit} (hh : StartsIn trees h) : ∃ t ∈ leavesOf trees, h.node.start = t.start := by
  obtain ⟨t, ht, hstart⟩ := hh
  exact ⟨t.firstToken, mem_leavesOf.2 ⟨t, ht, t.firstToken_mem⟩, hstart⟩

end PromptPack.Syntax
