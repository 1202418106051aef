import Mathlib.Data.List.Basic
import Mathlib.Tactic.SplitIfs
import PromptPack.Proofs.Syntax.Trees
import PromptPack.Syntax.C
/-!
# Where hits start

What is read of a list of trees leaves an end of the list to be read, so each hit begins with one of the trees, and
the hits in a group with one of its tokens (`start_mem_of_mem_hitsInTrees`).
-/

namespace PromptPack.Syntax.C

open Outline (Hit)

variable {trees rest : List Tree} {t : Tree} {h : Hit} {n : Nat} {s : Seen}

/-! ## Ends of a list -/

theorem afterAttributes_suffix (trees : List Tree) : afterAttributes trees <:+ trees := by
  fun_induction afterAttributes trees with
  | case1 t u rest _ ih => exact ih.trans ⟨[t, u], rfl⟩
  | case2 t u rest _ _ ih => exact ih.trans ⟨[t], rfl⟩
  | case3 => exact List.suffix_rfl
  | case4 => exact List.suffix_rfl

theorem afterAngles_suffix (n : Nat) (trees : List Tree) : afterAngles n trees <:+ trees := by
  fun_induction afterAngles n trees with
  | case1 => exact List.suffix_rfl
  | case2 _ _ _ _ ih => exact ih.trans (List.suffix_cons _ _)
  | case3 _ _ _ _ _ ih => exact ih.trans (List.suffix_cons _ _)
  | case4 => exact List.suffix_cons _ _
  | case5 _ _ _ _ _ _ _ ih => exact ih.trans (List.suffix_cons _ _)
  | case6 _ _ _ _ _ _ ih => exact ih.trans (List.suffix_cons _ _)

theorem afterArguments_suffix (trees : List Tree) : afterArguments trees <:+ trees := by
  unfold afterArguments
  split
  · exact List.suffix_rfl
  · split
    · exact (afterAngles_suffix _ _).trans (List.suffix_cons _ _)
    · exact List.suffix_rfl

theorem afterName_suffix (n : Nat) (trees : List Tree) : afterName n trees <:+ trees := by
  induction n generalizing trees with
  | zero => exact List.suffix_rfl
  | succ n ih =>
    cases trees with
    | nil => exact List.suffix_rfl
    | cons t ts =>
      rw [afterName]
      split
      · exact (ih ts).trans (List.suffix_cons _ _)
      · split
        · have harguments := (afterArguments_suffix ts).trans (List.suffix_cons t ts)
          split
          · rename_i u us heq
            rw [heq] at harguments
            split
            · exact (ih us).trans ((List.suffix_cons _ _).trans harguments)
            · exact harguments
          · exact List.nil_suffix
        · exact List.suffix_rfl

theorem afterCondition_suffix (n : Nat) (trees : List Tree) : afterCondition n trees <:+ trees := by
  induction n generalizing trees with
  | zero => exact List.suffix_rfl
  | succ n ih =>
    cases trees with
    | nil => exact List.suffix_rfl
    | cons t ts =>
      unfold afterCondition
      dsimp only
      split
      · rename_i u us heq
        have hus : u :: us <:+ t :: ts := by
          rw [← heq]
          split
          · cases ts with
            | nil => exact List.nil_suffix
            | cons v vs =>
              have hvs : vs <:+ t :: v :: vs := (List.suffix_cons v vs).trans (List.suffix_cons t _)
              dsimp only
              split
              · exact (List.tail_suffix vs).trans hvs
              · exact hvs
          · split
            · exact afterName_suffix _ _
            · exact List.suffix_cons t ts
        split
        · exact (ih us).trans ((List.suffix_cons u us).trans hus)
        · exact hus
      · exact List.nil_suffix

theorem afterParameters_suffix (trees : List Tree) : afterParameters trees <:+ trees := by
  have hbehind : (if (trees.head?.map (·.is "<")).getD false then afterAngles 1 trees.tail else trees) <:+ trees := by
    split
    · exact (afterAngles_suffix _ _).trans (List.tail_suffix trees)
    · exact List.suffix_rfl
  unfold afterParameters
  split
  · rename_i t ts heq
    rw [heq] at hbehind
    split
    · exact (afterCondition_suffix _ _).trans ((List.suffix_cons t ts).trans hbehind)
    · exact hbehind
  · exact List.nil_suffix

theorem behindTypeName_suffix (trees : List Tree) : behindTypeName trees <:+ trees := by
  cases trees with
  | nil => exact List.suffix_rfl
  | cons key rest =>
    have hname (ts : List Tree) : afterName (afterAttributes ts).length (afterAttributes ts) <:+ ts :=
      (afterName_suffix _ _).trans (afterAttributes_suffix ts)
    unfold behindTypeName
    dsimp only
    split
    · rename_i t ts heq
      have hsuffix : t :: ts <:+ key :: rest := by
        rw [← heq]
        refine (hname _).trans (List.IsSuffix.trans ?_ (List.suffix_cons key rest))
        cases rest with
        | nil => exact List.suffix_rfl
        | cons u us =>
          dsimp only
          split
          · exact List.suffix_cons u us
          · exact List.suffix_rfl
      split
      · exact (List.suffix_cons t ts).trans hsuffix
      · exact hsuffix
    · exact List.nil_suffix

theorem block?_suffix (h : block? trees = some (t, rest)) : rest <:+ trees := by
  fun_induction block? trees with
  | case1 => cases h
  | case2 u us _ =>
    cases h
    exact List.suffix_cons _ _
  | case3 => cases h
  | case4 _ _ _ _ ih => exact (ih h).trans (List.suffix_cons _ _)

theorem typeBody?_suffix (h : typeBody? trees = some (t, rest)) : rest <:+ trees := by
  unfold typeBody? at h
  split at h
  · cases h
  · have hbehind := behindTypeName_suffix trees
    split at h
    · rename_i u us heq
      rw [heq] at hbehind
      have hus := (List.suffix_cons u us).trans hbehind
      split at h
      · cases h
        exact hus
      · split at h
        · exact (block?_suffix h).trans hus
        · cases h
    · cases h

theorem handlersEnd_suffix (n : Nat) (trees : List Tree) : (handlersEnd n trees).2 <:+ trees := by
  fun_induction handlersEnd n trees with
  | case1 _ c p b rest _ ih => exact ih.trans ⟨[c, p, b], rfl⟩
  | case2 => exact List.suffix_rfl
  | case3 => exact List.suffix_rfl

theorem behindLabel?_suffix (h : behindLabel? trees = some rest) : rest <:+ trees := by
  unfold behindLabel? at h
  split at h
  · rename_i t u us
    split at h
    · cases h
      exact ⟨[t, u], rfl⟩
    · split at h
      · cases h
        exact (List.tail_suffix _).trans ((List.dropWhile_suffix _).trans (List.suffix_cons t _))
      · cases h
  · cases h

theorem suffix_ite {c : Prop} [Decidable c] {x y : Ending × List Tree} (hx : x.2 <:+ trees) (hy : y.2 <:+ trees) :
    (if c then x else y).2 <:+ trees := by
  split
  · exact hx
  · exact hy

theorem declaration_suffix (n : Nat) (s : Seen) (trees : List Tree) : (declaration n s trees).2 <:+ trees := by
  induction n generalizing s trees with
  | zero => exact List.suffix_rfl
  | succ n ih =>
    cases trees with
    | nil => exact List.suffix_rfl
    | cons t ts =>
      have hts : ts <:+ t :: ts := List.suffix_cons t ts
      have hgo (s : Seen) : (declaration n s ts).2 <:+ t :: ts := (ih s ts).trans hts
      rw [declaration]
      dsimp only
      refine suffix_ite (hgo _) ?_
      refine suffix_ite hts (suffix_ite hts (suffix_ite List.suffix_rfl ?_))
      refine suffix_ite (hgo _) (suffix_ite (hgo _) (suffix_ite (hgo _) (suffix_ite (hgo _) (suffix_ite (hgo _) ?_))))
      refine suffix_ite ?_ ?_
      · split
        · rename_i b rest heq
          exact (handlersEnd_suffix _ _).trans ((block?_suffix heq).trans hts)
        · exact List.nil_suffix
      · refine suffix_ite List.suffix_rfl (suffix_ite List.suffix_rfl (suffix_ite List.suffix_rfl (suffix_ite ?_ ?_)))
        · split
          · rename_i b rest heq
            exact (ih _ _).trans (typeBody?_suffix heq)
          · exact hgo _
        · exact suffix_ite (hgo _) (suffix_ite hts (suffix_ite hts (hgo _)))

/-! ## Starts -/

theorem startsIn_of_mem_typesIn {behindEnum : Bool} (hh : h ∈ typesIn behindEnum trees) : StartsIn trees h := by
  have htype {t : Tree} {ts : List Tree} (hh : h ∈ typeHits (t :: ts)) : h.node.start = t.start := by
    unfold typeHits at hh
    split at hh
    · rename_i key rest body behind heq _
      obtain ⟨rfl, rfl⟩ := List.cons.inj heq
      dsimp only at hh
      split_ifs at hh
      · exact List.mem_singleton.1 hh ▸ rfl
      · exact List.mem_singleton.1 hh ▸ rfl
      · exact List.mem_singleton.1 hh ▸ rfl
      · cases hh
    · cases hh
  induction trees generalizing behindEnum with
  | nil => cases hh
  | cons t ts ih =>
    rw [typesIn] at hh
    rcases List.mem_append.1 hh with hh | hh
    · -- A type name up to its semicolon, or a type with its body.
      refine ⟨t, List.mem_cons_self, ?_⟩
      split_ifs at hh
      · split at hh
        · exact List.mem_singleton.1 hh ▸ rfl
        · cases hh
      · cases hh
      · exact htype hh
    · obtain ⟨u, hu, hstart⟩ := ih hh
      exact ⟨u, List.mem_cons_of_mem _ hu, hstart⟩

theorem forall_mem_ite {c : Prop} [Decidable c] {P : Hit → Prop} {xs ys : List Hit} (hx : ∀ h ∈ xs, P h)
    (hy : ∀ h ∈ ys, P h) : ∀ h ∈ if c then xs else ys, P h := by
  split
  · exact hx
  · exact hy

theorem startsIn_of_mem_declarationsIn (n : Nat) (top : Bool) (open_ : Nat) (enclosed : Bool) (trees : List Tree) :
    ∀ h ∈ declarationsIn n top open_ enclosed trees, StartsIn trees h := by
  induction n generalizing top open_ enclosed trees with
  | zero => nofun
  | succ n ih =>
    cases trees with
    | nil => nofun
    | cons t ts =>
      have hts : ts <:+ t :: ts := List.suffix_cons t ts
      -- Whatever is passed over, the scan goes on with a suffix of the trees.
      have hgo {rest : List Tree} (hsuffix : rest <:+ t :: ts) (top : Bool) (open_ : Nat) (enclosed : Bool) :
          ∀ h ∈ declarationsIn n top open_ enclosed rest, StartsIn (t :: ts) h := fun h hh => by
        obtain ⟨u, hu, hstart⟩ := ih top open_ enclosed rest h hh
        exact ⟨u, hsuffix.subset hu, hstart⟩
      have hend {rest : List Tree} (hsuffix : rest <:+ ts) : rest <:+ t :: ts := hsuffix.trans hts
      have hread : (if (declaration (ts.length + 2) {} (t :: ts)).2.length ≤ ts.length then
          (declaration (ts.length + 2) {} (t :: ts)).2 else ts) <:+ t :: ts := by
        split
        · exact declaration_suffix _ _ _
        · exact hts
      unfold declarationsIn
      refine forall_mem_ite (hgo hts _ _ _) (forall_mem_ite (hgo hts _ _ _) (forall_mem_ite (hgo hts _ _ _) ?_))
      refine forall_mem_ite (hgo (hend (afterParameters_suffix ts)) _ _ _) (forall_mem_ite (hgo hts _ _ _)
        (forall_mem_ite (hgo (hend (List.tail_suffix ts)) _ _ _) (forall_mem_ite (hgo hts _ _ _)
          (forall_mem_ite (hgo (hend (List.dropWhile_suffix _)) _ _ _) ?_))))
      refine forall_mem_ite (hgo (hend ((List.tail_suffix _).trans (List.dropWhile_suffix _))) _ _ _)
        (forall_mem_ite ?_ ?_)
      · refine hgo (hend ?_) _ _ _
        cases ts with
        | nil => exact List.suffix_rfl
        | cons u us =>
          dsimp only
          split
          · exact List.suffix_cons u us
          · split
            · exact (List.tail_suffix us).trans (List.suffix_cons u us)
            · exact List.suffix_rfl
      · split
        · rename_i heq
          exact hgo (behindLabel?_suffix heq) _ _ _
        · -- A declaration: what is hit here begins with it, and the scan goes on behind it.
          intro h hh
          rcases List.mem_append.1 hh with hh | hh
          · refine ⟨t, List.mem_cons_self, ?_⟩
            split at hh
            · exact List.mem_singleton.1 hh ▸ rfl
            · split at hh
              · exact List.mem_singleton.1 hh ▸ rfl
              · cases hh
            · split at hh
              · exact List.mem_singleton.1 hh ▸ rfl
              · cases hh
            · cases hh
          · exact hgo hread _ _ _ h hh

/-! ## Inside groups -/

mutual

/-- A hit inside a tree begins with a token of the tree behind the first. -/
theorem start_mem_of_mem_hitsInTree (t : Tree) (hh : h ∈ hitsInTree t) : ∃ u ∈ t.leaves.tail, h.node.start = u.start := by
  cases t with
  | leaf => cases hh
  | group o items c =>
    have hitems {u : Token} (hu : u ∈ leavesOf items) : u ∈ (Tree.group o items c).leaves.tail := by
      simp [Tree.leaves, hu]
    have hin (hh : ∃ u ∈ leavesOf items, h.node.start = u.start) :
        ∃ u ∈ (Tree.group o items c).leaves.tail, h.node.start = u.start := by
      obtain ⟨u, hu, hstart⟩ := hh
      exact ⟨u, hitems hu, hstart⟩
    rw [hitsInTree, List.mem_append, List.mem_append] at hh
    rcases hh with (hh | hh) | hh
    · split at hh
      · exact hin ((startsIn_of_mem_declarationsIn _ _ _ _ _ h hh).leaves)
      · cases hh
    · exact hin ((startsIn_of_mem_typesIn hh).leaves)
    · obtain ⟨u, hu, hstart⟩ := start_mem_of_mem_hitsInTrees items hh
      exact hin ⟨u, List.mem_of_mem_tail hu, hstart⟩

theorem start_mem_of_mem_hitsInTrees (trees : List Tree) (hh : h ∈ hitsInTrees trees) :
    ∃ u ∈ (leavesOf trees).tail, h.node.start = u.start := by
  cases trees with
  | nil => cases hh
  | cons t ts =>
    have hcons : ∃ u us, t.leaves = u :: us := by cases t <;> exact ⟨_, _, rfl⟩
    obtain ⟨v, vs, hcons⟩ := hcons
    rw [hitsInTrees, List.mem_append] at hh
    rw [leavesOf, hcons, List.cons_append, List.tail_cons]
    rcases hh with hh | hh
    · obtain ⟨u, hu, hstart⟩ := start_mem_of_mem_hitsInTree t hh
      rw [hcons, List.tail_cons] at hu
      exact ⟨u, List.mem_append_left _ hu, hstart⟩
    · obtain ⟨u, hu, hstart⟩ := start_mem_of_mem_hitsInTrees ts hh
      exact ⟨u, List.mem_append_right _ (List.mem_of_mem_tail hu), hstart⟩

end

theorem hitsInTrees_append (front back : List Tree) : hitsInTrees (front ++ back) = hitsInTrees front ++ hitsInTrees back := by
  induction front with
  | nil => rfl
  | cons t front ih => rw [List.cons_append, hitsInTrees, ih, hitsInTrees, List.append_assoc]

/-! ## Without blocks -/

theorem block?_eq_none (h : ∀ t ∈ trees, t.opensWith "\x7b" = false) : block? trees = none := by
  induction trees with
  | nil => rfl
  | cons t ts ih =>
    rw [List.forall_mem_cons] at h
    rw [block?, h.1, ih h.2]
    simp

theorem typeBody?_eq_none (h : ∀ t ∈ trees, t.opensWith "\x7b" = false) : typeBody? trees = none := by
  have hbehind := (behindTypeName_suffix trees).subset
  unfold typeBody?
  split
  · rfl
  · split
    · rename_i t ts heq
      rw [heq] at hbehind
      rw [h t (hbehind List.mem_cons_self), block?_eq_none fun u hu => h u (hbehind (List.mem_cons_of_mem _ hu))]
      simp
    · rfl

theorem typesIn_eq_nil (behindEnum : Bool) (h : ∀ t ∈ trees, t.opensWith "\x7b" = false ∧ t.is "typedef" = false) :
    typesIn behindEnum trees = [] := by
  induction trees generalizing behindEnum with
  | nil => rfl
  | cons t ts ih =>
    have hnone : typeBody? (t :: ts) = none := typeBody?_eq_none fun u hu => (h u hu).1
    have hhits : typeHits (t :: ts) = [] := by
      unfold typeHits
      rw [hnone]
    rw [List.forall_mem_cons] at h
    rw [typesIn, h.1.2, ih _ h.2, hhits]
    simp

/-- No token of the list begins a block or names a type. -/
def NoBlocks (ts : List Token) : Prop := ∀ t ∈ ts, t.text ≠ "\x7b" ∧ t.text ≠ "typedef"

theorem NoBlocks.forall_mem (h : NoBlocks (leavesOf trees)) : ∀ t ∈ trees, t.opensWith "\x7b" = false ∧ t.is "typedef" = false := by
  intro t ht
  have hfirst := h t.firstToken (mem_leavesOf.2 ⟨t, ht, t.firstToken_mem⟩)
  cases t with
  | leaf token => exact ⟨rfl, by simpa [Tree.is, Token.is] using fun _ => (show token.text ≠ _ from hfirst.2)⟩
  | group o items c => exact ⟨by simpa [Tree.opensWith] using (show o.text ≠ _ from hfirst.1), rfl⟩

mutual

theorem hitsInTree_eq_nil (t : Tree) (h : NoBlocks t.leaves) : hitsInTree t = [] := by
  cases t with
  | leaf => rfl
  | group o items c =>
    have hitems : NoBlocks (leavesOf items) := fun u hu => h u (by simp [Tree.leaves, hu])
    have ho : (o.text == "\x7b") = false := by simpa using (h o (by simp [Tree.leaves])).1
    rw [hitsInTree, ho, typesIn_eq_nil false hitems.forall_mem, hitsInTrees_eq_nil items hitems]
    simp

theorem hitsInTrees_eq_nil (trees : List Tree) (h : NoBlocks (leavesOf trees)) : hitsInTrees trees = [] := by
  cases trees with
  | nil => rfl
  | cons t ts =>
    rw [leavesOf] at h
    rw [hitsInTrees, hitsInTree_eq_nil t fun u hu => h u (List.mem_append_left _ hu),
      hitsInTrees_eq_nil ts fun u hu => h u (List.mem_append_right _ hu), List.append_nil]

end

end PromptPack.Syntax.C
