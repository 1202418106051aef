import Mathlib.Data.List.Basic
import PromptPack.Proofs.Syntax.Trees
import PromptPack.Syntax.JavaScript
/-!
# Where hits start

The hits of a list of trees begin with tokens of the list (`start_mem_of_mem_hitsInTrees`).
-/

namespace PromptPack.Syntax.JavaScript

open Outline (Hit Region)

variable {trees behind : List Tree} {t : Tree} {h : Hit} {d : Definition} {start : Nat} {s : State}

/-! ## Decorators -/

theorem afterName_suffix (n : Nat) (trees : List Tree) : afterDecorators.afterName n trees <:+ trees := by
  fun_induction afterDecorators.afterName n trees with
  | case1 => exact List.suffix_rfl
  | case2 n t u rest _ ih => exact ih.trans ⟨[t, u], rfl⟩
  | case3 n t u rest _ _ ih => exact ih.trans (List.suffix_cons t _)
  | case4 => exact List.suffix_rfl
  | case5 => exact List.suffix_rfl

theorem afterDecorators_suffix (n : Nat) (trees : List Tree) : afterDecorators n trees <:+ trees := by
  fun_induction afterDecorators n trees with
  | case1 => exact List.suffix_rfl
  | case2 n t u rest _ ih => exact ih.trans ((afterName_suffix _ _).trans ⟨[t, u], rfl⟩)
  | case3 => exact List.suffix_rfl
  | case4 => exact List.suffix_rfl

theorem undecorated_suffix (trees : List Tree) : undecorated trees <:+ trees := afterDecorators_suffix _ _

/-! ## Definitions -/

theorem startsIn_cons {rest : List Tree} (hstart : h.node.start = t.start) : StartsIn (t :: rest) h :=
  ⟨t, List.mem_cons_self, hstart⟩

theorem functionAt?_start (hd : functionAt? trees = some d) : ∃ t rest, trees = t :: rest ∧ d.start = t.start := by
  cases trees with
  | nil => cases hd
  | cons first rest =>
    refine ⟨first, rest, rfl, ?_⟩
    unfold functionAt? at hd
    dsimp -zeta only at hd
    extract_lets behindAsync _ generates _ named params at hd
    clear_value named generates params
    split at hd
    · cases hd
    · split at hd
      · cases hd
      · split at hd
        · obtain ⟨b, -, rfl⟩ := Option.map_eq_some_iff.1 hd
          rfl
        · cases hd

theorem classAt?_start (hd : classAt? trees = some d) : ∃ t rest, trees = t :: rest ∧ d.start = t.start := by
  unfold classAt? at hd
  split at hd
  · rename_i first rest c behind _
    refine ⟨first, rest, rfl, ?_⟩
    split at hd
    · obtain ⟨b, -, rfl⟩ := Option.map_eq_some_iff.1 hd
      rfl
    · cases hd
  · cases hd

theorem startsIn_methodAt? (hh : h ∈ (methodAt? trees).toList) : StartsIn trees h := by
  rw [Option.mem_toList] at hh
  cases trees with
  | nil => cases hh
  | cons first rest =>
    obtain ⟨b, -, rfl⟩ := Option.map_eq_some_iff.1 hh
    exact startsIn_cons rfl

theorem startsIn_functionHits {free : Bool} (hh : h ∈ functionHits free trees) : StartsIn trees h := by
  unfold functionHits at hh
  split at hh
  · rename_i d hd
    obtain ⟨t, rest, rfl, hstart⟩ := functionAt?_start hd
    split at hh
    · obtain rfl := List.mem_singleton.1 hh
      exact startsIn_cons hstart
    · cases hh
  · cases hh

theorem startsIn_classHits {free : Bool} (hh : h ∈ classHits free trees) : StartsIn trees h := by
  unfold classHits at hh
  split at hh
  · rename_i d hd
    obtain ⟨t, rest, rfl, hstart⟩ := classAt?_start hd
    split at hh
    · obtain rfl := List.mem_singleton.1 hh
      exact startsIn_cons hstart
    · cases hh
  · cases hh

theorem start_of_mem_signatures {rule stop : Nat} {bodies : List Region} (hh : h ∈ signatures rule start stop bodies) :
    h.node.start = start := by
  obtain ⟨b, -, rfl⟩ := List.mem_map.1 hh
  rfl

theorem startsIn_variableHits (hh : h ∈ variableHits trees) : StartsIn trees h := by
  cases trees with
  | nil => cases hh
  | cons first rest =>
    unfold variableHits at hh
    obtain ⟨v, -, hh⟩ := List.mem_flatMap.1 hh
    rcases List.mem_append.1 hh with hh | hh <;> exact startsIn_cons (start_of_mem_signatures hh)

/-! ## Statements -/

/-- The hits of an export begin with it, or with what it declares. -/
theorem start_of_mem_exportHits (hh : h ∈ exportHits start trees behind) : h.node.start = start ∨ StartsIn behind h := by
  unfold exportHits at hh
  extract_lets isDefault behind' free stop whole at hh
  have hsub : behind' ⊆ behind := by
    dsimp only [behind']
    split
    · exact (List.tail_suffix behind).subset
    · exact fun _ h => h
  have hbehind (hh : StartsIn behind' h) : h.node.start = start ∨ StartsIn behind h := .inr (hh.mono hsub)
  have hwhole {rule : Nat} (hh : h = whole rule) : h.node.start = start ∨ StartsIn behind h := .inl (hh ▸ rfl)
  clear_value behind'
  split at hh
  · -- A function: with a name it is hit both as exported and as the function it is.
    split at hh
    · rcases List.mem_cons.1 hh with rfl | hh
      · exact .inl rfl
      · exact hbehind (startsIn_functionHits hh)
    · split at hh
      · cases hh
      · rcases List.mem_append.1 hh with hh | hh
        · split at hh
          · cases hh
          · exact .inl (List.mem_singleton.1 hh ▸ rfl)
        · exact hwhole (List.mem_singleton.1 hh)
  · -- A class, in the same way.
    split at hh
    · rcases List.mem_cons.1 hh with rfl | hh
      · exact .inl rfl
      · exact hbehind (startsIn_classHits hh)
    · split at hh
      · cases hh
      · rcases List.mem_cons.1 hh with rfl | hh
        · exact .inl rfl
        · exact hwhole (List.mem_singleton.1 hh)
  · -- A default value, variables, names in braces, or a star.
    split at hh
    · cases hh
    · split at hh
      · exact hwhole (List.mem_singleton.1 hh)
      · split at hh
        · rcases List.mem_append.1 hh with hh | hh
          · split at hh
            · exact hwhole (List.mem_singleton.1 hh)
            · rcases List.mem_append.1 hh with hh | hh
              · exact .inl (start_of_mem_signatures hh)
              · exact hwhole (List.mem_singleton.1 hh)
          · exact hbehind (startsIn_variableHits hh)
        · split at hh
          · cases hh
          · split at hh
            · rcases List.mem_append.1 hh with hh | hh
              · exact hwhole (List.mem_singleton.1 hh)
              · split at hh
                · exact hwhole (List.mem_singleton.1 hh)
                · cases hh
            · split at hh
              · exact hwhole (List.mem_singleton.1 hh)
              · cases hh

theorem startsIn_statementHits (hh : h ∈ statementHits trees) : StartsIn trees h := by
  cases trees with
  | nil => cases hh
  | cons t rest =>
    unfold statementHits at hh
    dsimp only at hh
    split at hh
    · -- An import.
      split at hh
      · split at hh
        · cases hh
        · exact List.mem_singleton.1 hh ▸ startsIn_cons rfl
      · cases hh
    · split at hh
      · exact startsIn_variableHits hh
      · split at hh
        · -- An export, first without and then with decorators in front.
          rcases start_of_mem_exportHits hh with hstart | hh
          · exact startsIn_cons hstart
          · exact hh.mono (List.subset_cons_self t rest)
        · split at hh
          · rcases start_of_mem_exportHits hh with hstart | hh
            · exact startsIn_cons hstart
            · exact hh.mono fun u hu => (undecorated_suffix _).subset ((List.tail_suffix _).subset hu)
          · rcases List.mem_append.1 hh with hh | hh
            · exact startsIn_functionHits hh
            · exact startsIn_classHits hh

theorem startsIn_hitsAt (hh : h ∈ s.hitsAt trees) : StartsIn trees h := by
  unfold State.hitsAt at hh
  split at hh
  · cases hh
  · split at hh
    · exact startsIn_statementHits hh
    · cases hh
    · exact startsIn_methodAt? hh

/-! ## Inside groups -/

mutual

/-- A hit inside a tree begins with one of its tokens. -/
theorem start_mem_of_mem_hitsInTree (role : Role) (t : Tree) (hh : h ∈ hitsInTree role t) :
    ∃ u ∈ t.leaves, h.node.start = u.start := by
  cases t with
  | leaf => cases hh
  | group o items c =>
    obtain ⟨u, hu, hstart⟩ := start_mem_of_mem_hitsInTrees (State.within role) items hh
    exact ⟨u, by simp [Tree.leaves, hu], hstart⟩

theorem start_mem_of_mem_hitsInTrees (s : State) (trees : List Tree) (hh : h ∈ hitsInTrees s trees) :
    ∃ u ∈ leavesOf trees, h.node.start = u.start := by
  cases trees with
  | nil => cases hh
  | cons t ts =>
    have hfirst (hh : ∃ u ∈ t.leaves, h.node.start = u.start) : ∃ u ∈ leavesOf (t :: ts), h.node.start = u.start := by
      obtain ⟨u, hu, hstart⟩ := hh
      exact ⟨u, List.mem_append_left _ hu, hstart⟩
    rw [hitsInTrees] at hh
    rw [List.mem_append, List.mem_append, List.mem_append] at hh
    rcases hh with ((hh | hh) | hh) | hh
    · exact (startsIn_hitsAt hh).leaves
    · -- Variables in the head of a loop.
      refine hfirst ?_
      split at hh
      · cases t with
        | leaf => cases hh
        | group o items c =>
          change h ∈ (match items with
            | [] => []
            | u :: us => if isVariableWord u then variableHits (u :: us) else []) at hh
          split at hh
          · cases hh
          · split at hh
            · obtain ⟨u, hu, hstart⟩ := (startsIn_variableHits hh).leaves
              exact ⟨u, by simp [Tree.leaves, hu], hstart⟩
            · cases hh
      · cases hh
    · exact hfirst (start_mem_of_mem_hitsInTree _ t hh)
    · obtain ⟨u, hu, hstart⟩ := start_mem_of_mem_hitsInTrees _ ts hh
      exact ⟨u, List.mem_append_right _ hu, hstart⟩

end

end PromptPack.Syntax.JavaScript
