import Mathlib.Data.List.Forall2
import PromptPack.Proofs.Listing.Insert
/-!
# The nodes of a drawing

A drawing has a line for each node below the root, with the label of the node at its end (`forall₂_drawChildren`).
The nodes are those that chains of names lead to (`mem_nodes_iff`), and no two of them have the same names.
-/

namespace PromptPack.Listing

/-- A node as it is drawn: the names that lead to it, whether it is a directory, whether it carries the mark of
what is left out, and whether nothing is drawn below it. -/
structure Node where
  names : List String
  isDir : Bool
  excluded : Bool
  isLeaf : Bool

def toNode (names : List String) (t : Listing) : Node := ⟨names, t.isDir, t.excluded, t.children.isEmpty⟩

mutual

/-- The nodes below a node in the order of their lines: the directories, then the files. -/
def nodes (above : List String) : Listing → List Node
  | node _ _ cs => someNodes above true cs ++ someNodes above false cs

/-- The children that are directories or those that are not, each with the nodes below it. -/
def someNodes (above : List String) (dirs : Bool) : List (String × Listing) → List Node
  | [] => []
  | (name, child) :: rest =>
    if child.isDir == dirs then
      child.toNode (above ++ [name]) :: (nodes (above ++ [name]) child ++ someNodes above dirs rest)
    else someNodes above dirs rest

end

/-! ## Lines -/

/-- The line of a node that is drawn below others: a trunk for each of the nodes between, a branch, and the label. -/
def DrawnAs (indent : String) (above : List String) (n : Node) (line : String) : Prop :=
  ∃ (between : List String) (name : String) (lasts : List Bool) (isLast : Bool), n.names = above ++ (between ++ [name]) ∧ lasts.length = between.length ∧
    line = indent ++ String.join (lasts.map trunk) ++ branch isLast ++ label name n.isDir n.excluded

theorem drawnAs_child (indent : String) (above : List String) (name : String) (child : Listing) (isLast : Bool) :
    DrawnAs indent above (child.toNode (above ++ [name]))
      (indent ++ branch isLast ++ label name child.isDir child.excluded) :=
  ⟨[], name, [], isLast, rfl, rfl, by simp [toNode]⟩

theorem DrawnAs.of_child {indent name line : String} {above : List String} {isLast : Bool} {n : Node}
    (h : DrawnAs (indent ++ trunk isLast) (above ++ [name]) n line) : DrawnAs indent above n line := by
  obtain ⟨between, last, lasts, isLast', hnames, hlength, rfl⟩ := h
  refine ⟨name :: between, last, isLast :: lasts, isLast', ?_, by simp [hlength], ?_⟩
  · rw [hnames, List.append_assoc]
    rfl
  · simp [String.append_assoc]

mutual

theorem forall₂_drawChildren (indent : String) (above : List String) (t : Listing) :
    List.Forall₂ (DrawnAs indent above) (nodes above t) (drawChildren indent t) := by
  match t with
  | node d x cs =>
    rw [nodes, drawChildren]
    exact List.rel_append (forall₂_drawSome indent above true _ cs) (forall₂_drawSome indent above false false cs)

theorem forall₂_drawSome (indent : String) (above : List String) (dirs more : Bool) (cs : List (String × Listing)) :
    List.Forall₂ (DrawnAs indent above) (someNodes above dirs cs) (drawSome indent dirs more cs) := by
  match cs with
  | [] =>
    rw [someNodes, drawSome]
    exact .nil
  | (name, child) :: rest =>
    have hrest := forall₂_drawSome indent above dirs more rest
    rw [someNodes, drawSome]
    split
    · -- What lies below the child is drawn behind one more trunk.
      refine .cons (drawnAs_child ..) (List.rel_append ?_ hrest)
      exact (forall₂_drawChildren _ (above ++ [name]) child).imp fun _ _ => DrawnAs.of_child
    · exact hrest

end

/-! ## Nodes -/

variable {t c : Listing} {n n' : Node} {above names : List String} {d x : Bool}

theorem mem_someNodes_iff {dirs : Bool} {cs : List (String × Listing)} : n ∈ someNodes above dirs cs ↔
    ∃ y ∈ cs, y.2.isDir = dirs ∧ (n = y.2.toNode (above ++ [y.1]) ∨ n ∈ nodes (above ++ [y.1]) y.2) := by
  induction cs with
  | nil => simp [someNodes]
  | cons y rest ih =>
    obtain ⟨name, child⟩ := y
    rw [someNodes, List.exists_mem_cons_iff]
    split
    · rename_i hdirs
      have hdirs : child.isDir = dirs := by simpa using hdirs
      simp [ih, hdirs, or_assoc]
    · rename_i hdirs
      have hdirs : child.isDir ≠ dirs := by simpa using hdirs
      simp [ih, hdirs]

/-- The nodes below a node are its children and the nodes below them. -/
theorem mem_nodes_iff_children : n ∈ nodes above t ↔
    ∃ y ∈ t.children, n = y.2.toNode (above ++ [y.1]) ∨ n ∈ nodes (above ++ [y.1]) y.2 := by
  obtain ⟨d, x, cs⟩ := t
  rw [nodes, List.mem_append, mem_someNodes_iff, mem_someNodes_iff, children_node]
  constructor
  · rintro (⟨y, hy, -, h⟩ | ⟨y, hy, -, h⟩)
    · exact ⟨y, hy, h⟩
    · exact ⟨y, hy, h⟩
  · rintro ⟨y, hy, h⟩
    cases hdir : y.2.isDir with
    | true => exact .inl ⟨y, hy, hdir, h⟩
    | false => exact .inr ⟨y, hy, hdir, h⟩

theorem at?_cons (t : Listing) (name : String) (rest : List String) :
    t.at? (name :: rest) = (t.children.lookup name).bind fun c => c.at? rest := rfl

/-- The nodes are those that chains of names lead to. -/
theorem mem_nodes_iff (h : t.Ordered) : n ∈ nodes above t ↔
    ∃ names c, names ≠ [] ∧ t.at? names = some c ∧ n = c.toNode (above ++ names) := by
  induction h generalizing above with
  | @node d x cs sorted below ih =>
    rw [mem_nodes_iff_children, children_node]
    constructor
    · rintro ⟨⟨name, child⟩, hy, rfl | hn⟩
      · refine ⟨[name], child, List.cons_ne_nil name [], ?_, rfl⟩
        rw [at?_cons, children_node, sorted.mem_iff.1 hy]
        rfl
      · obtain ⟨names, c, hne, hat, rfl⟩ := (ih _ hy).1 hn
        refine ⟨name :: names, c, List.cons_ne_nil name names, ?_, by rw [← List.append_cons]⟩
        rw [at?_cons, children_node, sorted.mem_iff.1 hy]
        exact hat
    · rintro ⟨names, c, hne, hat, rfl⟩
      cases names with
      | nil => exact absurd rfl hne
      | cons name rest =>
        rw [at?_cons, children_node, Option.bind_eq_some_iff] at hat
        obtain ⟨child, hchild, hat⟩ := hat
        refine ⟨(name, child), sorted.mem_iff.2 hchild, ?_⟩
        by_cases hrest : rest = []
        · subst hrest
          obtain rfl := Option.some.inj hat
          exact .inl rfl
        · exact .inr ((ih _ (sorted.mem_iff.2 hchild)).2 ⟨rest, c, hrest, hat, by rw [← List.append_cons]⟩)

theorem mem_nodes_nil_iff (h : t.Ordered) :
    n ∈ nodes [] t ↔ n.names ≠ [] ∧ ∃ c, t.at? n.names = some c ∧ n = c.toNode n.names := by
  rw [mem_nodes_iff h]
  constructor
  · rintro ⟨names, c, hne, hat, rfl⟩
    exact ⟨hne, c, hat, rfl⟩
  · rintro ⟨hne, c, hat, heq⟩
    exact ⟨n.names, c, hne, hat, heq⟩

/-- No two nodes have the same names. -/
theorem eq_of_mem_nodes (h : t.Ordered) (hn : n ∈ nodes [] t) (hn' : n' ∈ nodes [] t) (heq : n.names = n'.names) :
    n = n' := by
  obtain ⟨-, c, hat, hc⟩ := (mem_nodes_nil_iff h).1 hn
  obtain ⟨-, c', hat', hc'⟩ := (mem_nodes_nil_iff h).1 hn'
  rw [heq] at hat
  obtain rfl := Option.some.inj (hat.symm.trans hat')
  rw [hc, hc', heq]

theorem flags?_of_mem_nodes (h : t.Ordered) (hn : n ∈ nodes [] t) :
    n.names ≠ [] ∧ t.flags? n.names = some (n.isDir, n.excluded) := by
  obtain ⟨hne, c, hat, hc⟩ := (mem_nodes_nil_iff h).1 hn
  refine ⟨hne, ?_⟩
  rw [flags?, hat, hc]
  rfl

theorem at?_append (t : Listing) (names rest : List String) :
    t.at? (names ++ rest) = (t.at? names).bind fun c => c.at? rest := by
  induction names generalizing t with
  | nil => rfl
  | cons name names ih =>
    rw [List.cons_append, at?_cons, at?_cons, Option.bind_assoc]
    simp only [ih]

/-- What has flags is drawn, as a leaf where nothing has flags right below it. -/
theorem exists_mem_nodes (h : t.Ordered) (hne : names ≠ []) (hflags : t.flags? names = some (d, x)) :
    ∃ leaf, ⟨names, d, x, leaf⟩ ∈ nodes [] t ∧ ((∀ name, t.flags? (names ++ [name]) = none) → leaf = true) := by
  obtain ⟨c, hat, hc⟩ := Option.map_eq_some_iff.1 hflags
  obtain ⟨rfl, rfl⟩ : c.isDir = d ∧ c.excluded = x := by simpa [flags] using hc
  refine ⟨c.children.isEmpty, (mem_nodes_nil_iff h).2 ⟨hne, c, hat, rfl⟩, fun hbelow => ?_⟩
  cases hchildren : c.children with
  | nil => rfl
  | cons y rest =>
    have hnone := hbelow y.1
    rw [flags?, at?_append, hat, Option.bind_some, at?_cons, hchildren, List.lookup_cons_self] at hnone
    cases hnone

end PromptPack.Listing
