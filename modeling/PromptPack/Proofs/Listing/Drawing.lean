import PromptPack.Proofs.Listing.Lines
import PromptPack.Proofs.Packing.Agreement
/-!
# The drawing of entries

The tree of some entries holds the nodes that they ask for (`holds_ofEntries`). Its drawing goes through them in order
(`pairwise_nodes`) and gives each the line that it asks for (`lines_drawChildren`), so a drawing is told by the entries
that are shown (`drawing_is_exact`).
-/

namespace PromptPack.Listing

variable {entries : List WalkEntry} {above names : List String} {cs front rest : ByName Listing} {y z : String × Listing}
  {t : Listing} {n : Node} {indent line : String} {dirs : Bool}

/-! ## The tree holds the nodes -/

/-- The children of a node with the names `above`: the nodes right below it, each with its flags. -/
structure Children (entries : List WalkEntry) (above : List String) (cs : ByName Listing) : Prop where
  sorted : ByName.Sorted cs
  names : ∀ name, (∃ y ∈ cs, y.1 = name) ↔ IsNode entries (above ++ [name])
  flags : ∀ y ∈ cs, y.2.flags = (isFolder entries (above ++ [y.1]), isMarked entries (above ++ [y.1]))

/-- A tree that holds all nodes below `above`. -/
inductive Holds (entries : List WalkEntry) : List String → Listing → Prop
  | node {above : List String} {d x : Bool} {cs : ByName Listing} (children : Children entries above cs)
      (below : ∀ y ∈ cs, Holds entries (above ++ [y.1]) y.2) : Holds entries above (Listing.node d x cs)

theorem Holds.ordered (h : Holds entries above t) : t.Ordered := by
  induction h with
  | node children _ ih => exact .node children.sorted ih

/-- A tree holds the nodes when it says of all names below what the entries say of them. -/
theorem Ordered.holds (h : t.Ordered) (hflags : ∀ names ≠ [], t.flags? names = given? entries (above ++ names)) :
    Holds entries above t := by
  induction h generalizing above with
  | @node d x cs sorted below ih =>
    have hchild (y : String × Listing) (hy : y ∈ cs) (names : List String) :
        y.2.flags? names = given? entries (above ++ y.1 :: names) := by
      rw [← hflags _ (List.cons_ne_nil y.1 names), flags?_cons, children_node, sorted.mem_iff.1 hy, Option.bind_some]
    refine .node ⟨sorted, fun name => ?names, fun y hy => ?flags⟩ fun y hy => ih y hy fun names _ => ?below
    case names =>
      rw [← isSome_given?_iff, ← hflags [name] (List.cons_ne_nil name []), flags?_cons, children_node]
      constructor
      · rintro ⟨⟨_, c⟩, hy, rfl⟩
        rw [sorted.mem_iff.1 hy]
        rfl
      · intro hsome
        obtain ⟨c, hc⟩ := Option.isSome_iff_exists.1 (Option.isSome_of_isSome_bind hsome)
        exact ⟨(name, c), sorted.mem_iff.2 hc, rfl⟩
    case flags =>
      have hgiven := hchild y hy []
      rw [flags?_nil, given?] at hgiven
      split at hgiven
      · exact Option.some.inj hgiven
      · cases hgiven
    case below => rw [hchild y hy names, List.append_assoc, List.singleton_append]

theorem holds_ofEntries (hne : ∀ e ∈ entries, e.names ≠ []) (hdistinct : entries.Pairwise fun a b => a.names ≠ b.names) :
    Holds entries [] (ofEntries entries) :=
  (ordered_ofEntries entries).holds fun _ hnames => flags?_ofEntries hne hdistinct hnames

/-! ## The order of the children -/

theorem Children.isDir_eq (h : Children entries above cs) (hy : y ∈ cs) : y.2.isDir = isFolder entries (above ++ [y.1]) :=
  congrArg Prod.fst (h.flags y hy)

theorem Children.excluded_eq (h : Children entries above cs) (hy : y ∈ cs) :
    y.2.excluded = isMarked entries (above ++ [y.1]) :=
  congrArg Prod.snd (h.flags y hy)

theorem Children.ahead_iff (h : Children entries above cs) (hy : y ∈ cs) (hz : z ∈ cs) : Ahead entries above y.1 z.1 ↔
    if y.2.isDir = z.2.isDir then y.1 < z.1 else y.2.isDir = true := by
  rw [Ahead, ← h.isDir_eq hy, ← h.isDir_eq hz, Text.lt_iff_bytes_lt]

/-- The children behind one are those with a greater name. -/
theorem Children.mem_rest (h : Children entries above (front ++ y :: rest)) (hz : z ∈ front ++ y :: rest)
    (hlt : y.1 < z.1) : z ∈ rest := by
  have hsorted := List.pairwise_append.1 h.sorted
  rcases List.mem_append.1 hz with hz | hz
  · exact absurd (hsorted.2.2 z hz y List.mem_cons_self) (String.lt_asymm hlt)
  · rcases List.mem_cons.1 hz with rfl | hz
    · exact absurd hlt (String.lt_irrefl _)
    · exact hz

/-- What comes behind a child: behind a directory all that are none, and those of its kind with greater names. -/
theorem Children.exists_ahead_iff (h : Children entries above (front ++ y :: rest)) :
    (∃ other, IsNode entries (above ++ [other]) ∧ Ahead entries above y.1 other) ↔
      (y.2.isDir = true ∧ ∃ z ∈ front ++ y :: rest, z.2.isDir = false) ∨ ∃ z ∈ rest, z.2.isDir = y.2.isDir := by
  have hy : y ∈ front ++ y :: rest := by simp
  constructor
  · rintro ⟨other, hother, hahead⟩
    obtain ⟨z, hz, rfl⟩ := (h.names other).2 hother
    rw [h.ahead_iff hy hz] at hahead
    split at hahead
    · rename_i hsame
      exact .inr ⟨z, h.mem_rest hz hahead, hsame.symm⟩
    · rename_i hother
      rw [hahead] at hother
      exact .inl ⟨hahead, z, hz, by simpa using Ne.symm hother⟩
  · rintro (⟨hdir, z, hz, hfile⟩ | ⟨z, hrest, hsame⟩)
    · refine ⟨z.1, (h.names z.1).1 ⟨z, hz, rfl⟩, (h.ahead_iff hy hz).2 ?_⟩
      rw [if_neg (by simp [hdir, hfile])]
      exact hdir
    · have hz : z ∈ front ++ y :: rest := by simp [hrest]
      refine ⟨z.1, (h.names z.1).1 ⟨z, hz, rfl⟩, (h.ahead_iff hy hz).2 ?_⟩
      rw [if_pos hsame.symm]
      exact (List.pairwise_cons.1 (List.pairwise_append.1 h.sorted).2.1).1 z hrest

theorem Children.isLast_eq (h : Children entries above (front ++ y :: rest)) : isLast entries above y.1 =
    (!(y.2.isDir && (front ++ y :: rest).any fun c => !c.2.isDir) && !rest.any fun c => c.2.isDir == y.2.isDir) := by
  have hnone : (∀ other, IsNode entries (above ++ [other]) → ¬ Ahead entries above y.1 other) ↔
      ¬ ∃ other, IsNode entries (above ++ [other]) ∧ Ahead entries above y.1 other := by simp only [not_exists, not_and]
  rw [Bool.eq_iff_iff, isLast_iff, hnone, h.exists_ahead_iff, not_or, Bool.and_eq_true, Bool.not_eq_true',
    Bool.not_eq_true', ← Bool.not_eq_true, ← Bool.not_eq_true, Bool.and_eq_true, List.any_eq_true, List.any_eq_true]
  simp only [Bool.not_eq_true', beq_iff_eq]

/-! ## The line of each node -/

/-- The line of a node that is drawn below `above`, behind the indent. -/
def LineAt (entries : List WalkEntry) (indent : String) (above : List String) (n : Node) (line : String) : Prop :=
  ∃ names, names ≠ [] ∧ n.names = above ++ names ∧ line = indent ++ lineBelow entries above names

theorem Children.lineAt (h : Children entries above (front ++ y :: rest)) (indent : String) :
    LineAt entries indent above (y.2.toNode (above ++ [y.1]))
      (indent ++ branch (isLast entries above y.1) ++ label y.1 y.2.isDir y.2.excluded) := by
  have hy : y ∈ front ++ y :: rest := by simp
  refine ⟨[y.1], List.cons_ne_nil y.1 [], rfl, ?_⟩
  rw [h.isDir_eq hy, h.excluded_eq hy, String.append_assoc]
  rfl

/-- What lies below a child is drawn behind one more trunk. -/
theorem LineAt.of_child {name : String}
    (h : LineAt entries (indent ++ trunk (isLast entries above name)) (above ++ [name]) n line) :
    LineAt entries indent above n line := by
  obtain ⟨names, hne, hnames, rfl⟩ := h
  obtain ⟨next, rest, rfl⟩ := List.exists_cons_of_ne_nil hne
  have happend : above ++ name :: next :: rest = above ++ [name] ++ next :: rest := List.append_cons ..
  refine ⟨name :: next :: rest, List.cons_ne_nil name _, by rw [hnames, happend], ?_⟩
  rw [lineBelow, lineBelow, stem, List.getLast?_cons_cons, happend, String.append_assoc, String.append_assoc]

/-- The children that are still to be drawn, at the end of all of them. -/
theorem Children.lines_drawSome (h : Children entries above cs)
    (hbelow : ∀ y ∈ cs, ∀ indent, List.Forall₂ (LineAt entries indent (above ++ [y.1])) (nodes (above ++ [y.1]) y.2)
      (drawChildren indent y.2)) (hcs : cs = front ++ rest) (indent : String) (dirs : Bool) :
    List.Forall₂ (LineAt entries indent above) (someNodes above dirs rest)
      (drawSome indent dirs (dirs && cs.any fun c => !c.2.isDir) rest) := by
  induction rest generalizing front with
  | nil =>
    rw [someNodes, drawSome]
    exact .nil
  | cons y rest ih =>
    obtain ⟨name, child⟩ := y
    have hrest := ih (hcs.trans (List.append_cons front (name, child) rest))
    rw [someNodes, drawSome]
    split
    · rename_i hdirs
      obtain rfl : child.isDir = dirs := by simpa using hdirs
      subst hcs
      -- The drawing tells the last child by what is left of its kind and by whether others follow.
      have hlast := h.isLast_eq
      dsimp only at hlast ⊢
      rw [← hlast]
      refine .cons (h.lineAt indent) (List.rel_append ?_ hrest)
      exact (hbelow (name, child) (by simp) _).imp fun _ _ => LineAt.of_child
    · exact hrest

theorem Holds.lines_drawChildren (h : Holds entries above t) (indent : String) :
    List.Forall₂ (LineAt entries indent above) (nodes above t) (drawChildren indent t) := by
  induction h generalizing indent with
  | @node above d x cs children _ ih =>
    rw [nodes, drawChildren]
    exact List.rel_append (children.lines_drawSome ih (List.nil_append cs).symm indent true)
      (children.lines_drawSome ih (List.nil_append cs).symm indent false)

/-! ## The order of the nodes -/

theorem exists_of_mem_someNodes (hcs : ∀ y ∈ cs, y.2.Ordered) (hn : n ∈ someNodes above dirs cs) :
    ∃ y ∈ cs, y.2.isDir = dirs ∧ ∃ rest, n.names = above ++ y.1 :: rest := by
  obtain ⟨y, hy, hdirs, rfl | hn⟩ := mem_someNodes_iff.1 hn
  · exact ⟨y, hy, hdirs, [], rfl⟩
  · obtain ⟨names, c, -, -, rfl⟩ := (mem_nodes_iff (hcs y hy)).1 hn
    exact ⟨y, hy, hdirs, names, (List.append_cons above y.1 names).symm⟩

/-- Whatever is at or below one sibling comes before whatever is at or below one behind it. -/
theorem before_of_ahead {a b : String} (h : Ahead entries above a b) (names names' : List String) :
    Before entries [] (above ++ a :: names) (above ++ b :: names') := by
  rw [before_append, List.nil_append, Before]
  split
  · rename_i heq
    subst heq
    exact absurd h h.asymm
  · exact h

theorem before_below (above : List String) {names : List String} (hne : names ≠ []) :
    Before entries [] above (above ++ names) := by
  obtain ⟨name, names, rfl⟩ := List.exists_cons_of_ne_nil hne
  conv => arg 3; rw [← List.append_nil above]
  exact before_append.2 trivial

def InOrder (entries : List WalkEntry) (ns : List Node) : Prop :=
  ns.Pairwise fun n n' => Before entries [] n.names n'.names

theorem Children.inOrder_someNodes (h : Children entries above cs) (hordered : ∀ y ∈ cs, y.2.Ordered)
    (hbelow : ∀ y ∈ cs, InOrder entries (nodes (above ++ [y.1]) y.2)) (hcs : cs = front ++ rest) (dirs : Bool) :
    InOrder entries (someNodes above dirs rest) := by
  induction rest generalizing front with
  | nil =>
    rw [someNodes]
    exact List.Pairwise.nil
  | cons y rest ih =>
    obtain ⟨name, child⟩ := y
    have hrest := ih (hcs.trans (List.append_cons front (name, child) rest))
    rw [someNodes]
    split
    · rename_i hdirs
      obtain rfl : child.isDir = dirs := by simpa using hdirs
      subst hcs
      have hy : (name, child) ∈ front ++ (name, child) :: rest := by simp
      -- The rest are siblings of the same kind with greater names, and what lies below them.
      have hbehind (names : List String) : ∀ n ∈ someNodes above child.isDir rest,
          Before entries [] (above ++ name :: names) n.names := by
        intro n hn
        obtain ⟨z, hz, hdir, names', hnames⟩ := exists_of_mem_someNodes (fun z hz => hordered z (by simp [hz])) hn
        have hahead : Ahead entries above name z.1 := by
          refine (h.ahead_iff hy (by simp [hz])).2 ?_
          rw [if_pos hdir.symm]
          exact (List.pairwise_cons.1 (List.pairwise_append.1 h.sorted).2.1).1 z hz
        rw [hnames]
        exact before_of_ahead hahead names names'
      have hchild : ∀ n ∈ nodes (above ++ [name]) child, ∃ names ≠ [], n.names = above ++ [name] ++ names := by
        intro n hn
        obtain ⟨names, c, hne, -, rfl⟩ := (mem_nodes_iff (hordered _ hy)).1 hn
        exact ⟨names, hne, rfl⟩
      refine List.pairwise_cons.2 ⟨List.forall_mem_append.2 ⟨fun n hn => ?_, hbehind []⟩, ?_⟩
      · obtain ⟨names, hne, hnames⟩ := hchild n hn
        rw [hnames]
        exact before_below (above ++ [name]) hne
      · refine List.pairwise_append.2 ⟨hbelow _ hy, hrest, fun n hn n' hn' => ?_⟩
        obtain ⟨names, -, hnames⟩ := hchild n hn
        rw [hnames, ← List.append_cons]
        exact hbehind names n' hn'
    · exact hrest

theorem Holds.inOrder_nodes (h : Holds entries above t) : InOrder entries (nodes above t) := by
  induction h with
  | @node above d x cs children below ih =>
    have hordered : ∀ y ∈ cs, y.2.Ordered := fun y hy => (below y hy).ordered
    rw [nodes]
    refine List.pairwise_append.2 ⟨children.inOrder_someNodes hordered ih (List.nil_append cs).symm true,
      children.inOrder_someNodes hordered ih (List.nil_append cs).symm false, fun n hn n' hn' => ?_⟩
    obtain ⟨y, hy, hdir, names, hnames⟩ := exists_of_mem_someNodes hordered hn
    obtain ⟨z, hz, hfile, names', hnames'⟩ := exists_of_mem_someNodes hordered hn'
    -- A directory and what lies below it come before all that are none.
    have hahead : Ahead entries above y.1 z.1 := by
      rw [children.ahead_iff hy hz, hdir, hfile]
      rfl
    rw [hnames, hnames']
    exact before_of_ahead hahead names names'

/-! ## The whole drawing -/

/-- The names of the nodes of some entries, in the order of their lines. -/
def nodeNames (entries : List WalkEntry) : List (List String) := (nodes [] (ofEntries entries)).map (·.names)

theorem drawChildren_ofEntries (h : Holds entries [] (ofEntries entries)) :
    drawChildren "" (ofEntries entries) = (nodeNames entries).map (lineOf entries) := by
  have hlines := (h.lines_drawChildren "").imp (S := fun n line => lineOf entries n.names = line) ?_
  · rw [nodeNames, List.map_map, eq_comm, ← List.forall₂_eq_eq_eq, List.forall₂_map_left_iff]
    exact hlines
  · rintro n line ⟨names, -, hnames, rfl⟩
    rw [hnames, List.nil_append, String.empty_append]
    rfl

theorem mem_nodeNames_iff (hne : ∀ e ∈ entries, e.names ≠ [])
    (hdistinct : entries.Pairwise fun a b => a.names ≠ b.names) : names ∈ nodeNames entries ↔ IsNode entries names := by
  rw [nodeNames, List.mem_map]
  constructor
  · rintro ⟨n, hn, rfl⟩
    obtain ⟨hnames, hflags⟩ := flags?_of_mem_nodes (ordered_ofEntries entries) hn
    rw [flags?_ofEntries hne hdistinct hnames] at hflags
    rw [← isSome_given?_iff, hflags]
    rfl
  · intro hnode
    have hflags := flags?_ofEntries hne hdistinct hnode.1
    rw [given?, if_pos hnode] at hflags
    obtain ⟨leaf, hmem, -⟩ := exists_mem_nodes (ordered_ofEntries entries) hnode.1 hflags
    exact ⟨_, hmem, rfl⟩

/-- A text that ends, and not in a newline. -/
def EndsInLine (s : String) : Prop := ∃ front c, s.toList = front ++ [c] ∧ c ≠ '\n'

theorem EndsInLine.append {s : String} (h : EndsInLine s) (before : String) : EndsInLine (before ++ s) := by
  obtain ⟨front, c, heq, hc⟩ := h
  exact ⟨before.toList ++ front, c, by rw [String.toList_append, heq, List.append_assoc], hc⟩

theorem endsInLine_of_not_mem {s : String} (hne : s ≠ "") (h : '\n' ∉ s.toList) : EndsInLine s := by
  have hne : s.toList ≠ [] := fun heq => hne (String.toList_eq_nil_iff.1 heq)
  exact ⟨_, _, (List.dropLast_append_getLast hne).symm, fun heq => h (heq ▸ List.getLast_mem hne)⟩

theorem endsInLine_intercalate {lines : List String} (hne : lines ≠ []) (h : ∀ line ∈ lines, EndsInLine line)
    (separator : String) : EndsInLine (String.intercalate separator lines) := by
  induction lines with
  | nil => exact absurd rfl hne
  | cons line lines ih =>
    rw [List.forall_mem_cons] at h
    cases lines with
    | nil =>
      rw [String.intercalate_singleton]
      exact h.1
    | cons next lines =>
      rw [String.intercalate_cons_cons]
      exact (ih (List.cons_ne_nil next lines) h.2).append _

theorem EndsInLine.dropNewlines_eq {s : String} (h : EndsInLine s) : dropNewlines s = s := by
  obtain ⟨front, c, heq, hc⟩ := h
  have hdrop : (c :: front.reverse).dropWhile (· == '\n') = c :: front.reverse := by
    rw [List.dropWhile_cons, if_neg (by simpa using hc)]
  rw [dropNewlines, heq, List.reverse_concat, hdrop, List.reverse_cons, List.reverse_reverse, ← heq, String.ofList_toList]

/-- A line has at least its branch. -/
theorem lineOf_ne_empty (hne : names ≠ []) : lineOf entries names ≠ "" := by
  intro heq
  have hlength := congrArg String.length heq
  rw [lineOf, lineBelow, String.length_append, length_stem, String.length_empty] at hlength
  have := List.length_pos_of_ne_nil hne
  omega

/-- What it is for a text to be the drawing of entries: below the name of the root it has a line for each of the nodes, in
order, and no other lines. -/
structure Draws (root : Path) (entries : List WalkEntry) (ns : List (List String)) (drawing : String) : Prop where
  complete : ∀ names, names ∈ ns ↔ IsNode entries names
  once : ns.Nodup
  inOrder : ns.Pairwise (Before entries [])
  lines : ∀ names ∈ ns, '\n' ∉ (lineOf entries names).toList
  indented : ∀ names ∈ ns, (stem entries [] names).length = 4 * names.length
  text : drawing = (if entries.any (·.excluded) then markHeader ++ "\n\n" else "") ++
    String.intercalate "\n" ((rootName root ++ "/") :: ns.map (lineOf entries))

theorem draws_nodeNames (root : Path) (hne : ∀ e ∈ entries, e.names ≠ [])
    (hdistinct : entries.Pairwise fun a b => a.names ≠ b.names)
    (hplain : ∀ e ∈ entries, ∀ name ∈ e.names, '\n' ∉ name.toList) :
    Draws root entries (nodeNames entries) (draw root entries false) := by
  have hholds := holds_ofEntries hne hdistinct
  have hnodes (names : List String) : names ∈ nodeNames entries ↔ IsNode entries names :=
    mem_nodeNames_iff hne hdistinct
  have horder : (nodeNames entries).Pairwise (Before entries []) := List.pairwise_map.2 hholds.inOrder_nodes
  have hlines : ∀ names ∈ nodeNames entries, '\n' ∉ (lineOf entries names).toList := by
    intro names hnames
    obtain ⟨-, e, he, hfront⟩ := (hnodes names).1 hnames
    exact newline_not_mem_lineBelow fun name hname => hplain e he name (hfront.subset hname)
  -- Neither the name of the root nor the label of a node ends in a newline that would be dropped.
  have hroot : EndsInLine (rootName root ++ "/") := EndsInLine.append ⟨[], '/', rfl, by decide⟩ _
  have hends : ∀ line ∈ (rootName root ++ "/") :: (nodeNames entries).map (lineOf entries), EndsInLine line := by
    refine List.forall_mem_cons.2 ⟨hroot, List.forall_mem_map.2 fun names hnames => ?_⟩
    exact endsInLine_of_not_mem (lineOf_ne_empty ((hnodes names).1 hnames).1) (hlines names hnames)
  refine ⟨hnodes, nodup_of_pairwise_before horder, horder, hlines, fun names _ => length_stem _ _ names, ?_⟩
  rw [← (endsInLine_intercalate (List.cons_ne_nil _ _) hends "\n").dropNewlines_eq, ← drawChildren_ofEntries hholds]
  rfl

theorem Draws.unique {root : Path} {ns ns' : List (List String)} {drawing : String} (h : Draws root entries ns drawing)
    (h' : Draws root entries ns' drawing) : ns = ns' :=
  eq_of_pairwise_before h.inOrder h'.inOrder fun names => (h.complete names).trans (h'.complete names).symm

/-- The drawing of entries is told by those that are shown: it is exactly what they ask for, and what is hidden leaves no
trace. -/
theorem drawing_is_exact (root : Path) (entries : List WalkEntry) (hne : ∀ e ∈ entries, e.rel.components ≠ [])
    (hdistinct : entries.Pairwise fun a b => a.rel.components ≠ b.rel.components)
    (hplain : ∀ e ∈ entries, ∀ name ∈ e.names, '\n' ∉ name.toList) :
    (∀ hide, ∃! ns, Draws root (shown entries hide) ns (draw root entries hide)) ∧
      draw root entries true = draw root (entries.filter (!·.excluded)) false := by
  refine ⟨fun hide => ?_, rfl⟩
  have hsub := shown_sublist entries hide
  have hnames : ∀ e ∈ shown entries hide, e.names ≠ [] := fun e he => by
    simpa [WalkEntry.names] using hne e (hsub.subset he)
  have hnames' : (shown entries hide).Pairwise fun a b => a.names ≠ b.names :=
    (hdistinct.sublist hsub).imp fun hab heq => hab (Path.components_eq_of_texts_eq heq)
  have hdraws := draws_nodeNames root hnames hnames' fun e he => hplain e (hsub.subset he)
  exact ⟨_, hdraws, fun ns hns => hns.unique hdraws⟩

/-- A file in front of an excluded file of a directory that is no entry. -/
def sources : List WalkEntry :=
  [{ path := ⟨"src/z"⟩, rel := ⟨"z"⟩, isDir := false, excluded := false },
    { path := ⟨"src/d/f"⟩, rel := ⟨"d/f"⟩, isDir := false, excluded := true }]

theorem drawing_of_sources_is_exact :
    (∃! ns, Draws ⟨"src"⟩ sources ns (markHeader ++ "\n\nsrc/\n├── d/\n│   └── f ❌\n└── z")) ∧
      ∃! ns, Draws ⟨"src"⟩ (shown sources true) ns "src/\n└── z" := by
  have hnames : ∀ e ∈ sources, e.rel.components ≠ [] := by decide
  have hdistinct : sources.Pairwise fun a b => a.rel.components ≠ b.rel.components := by decide
  have hplain : ∀ e ∈ sources, ∀ name ∈ e.names, '\n' ∉ name.toList := by decide
  obtain ⟨hexact, -⟩ := drawing_is_exact ⟨"src"⟩ sources hnames hdistinct hplain
  have hall := hexact false
  have hkept := hexact true
  have hdrawing : draw ⟨"src"⟩ sources false = markHeader ++ "\n\nsrc/\n├── d/\n│   └── f ❌\n└── z" := by decide
  have hdrawing' : draw ⟨"src"⟩ sources true = "src/\n└── z" := by decide
  rw [hdrawing] at hall
  rw [hdrawing'] at hkept
  exact ⟨hall, hkept⟩

end PromptPack.Listing
