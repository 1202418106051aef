import PromptPack.Proofs.Listing.Nodes
import PromptPack.Proofs.Text.Bytes
/-!
# The lines that entries ask for

What a drawing of some entries has to show is told by the entries alone: which chains of names have a line
(`IsNode`), in which order (`Before`), and what stands in each line (`lineOf`). The tree of the entries says the same of
each chain of names (`flags?_ofEntries`), and the order admits of one list only (`eq_of_pairwise_before`).
-/

namespace PromptPack.Listing

variable {entries : List WalkEntry} {e : WalkEntry} {above front names names' : List String}
  {ns ns' : List (List String)} {name a b : String}

/-! ## Nodes -/

/-- Whether there is a line for these names: they are those of an entry, or lead to one. -/
def IsNode (entries : List WalkEntry) (names : List String) : Prop := names ≠ [] ∧ ∃ e ∈ entries, names <+: e.names

instance (entries : List WalkEntry) (names : List String) : Decidable (IsNode entries names) :=
  inferInstanceAs (Decidable (_ ∧ _))

/-- The entry with these names. -/
def entryAt? (entries : List WalkEntry) (names : List String) : Option WalkEntry := entries.find? (·.names == names)

/-- What only leads to entries is a directory. -/
def isFolder (entries : List WalkEntry) (names : List String) : Bool := (entryAt? entries names).all (·.isDir)

def isMarked (entries : List WalkEntry) (names : List String) : Bool := (entryAt? entries names).any (·.excluded)

/-! ## Order -/

/-- Of two siblings, a directory comes before what is none; else the bytes of their names decide. -/
def Ahead (entries : List WalkEntry) (above : List String) (a b : String) : Prop :=
  if isFolder entries (above ++ [a]) = isFolder entries (above ++ [b]) then a.toUTF8.toList < b.toUTF8.toList
  else isFolder entries (above ++ [a]) = true

instance (entries : List WalkEntry) (above : List String) (a b : String) : Decidable (Ahead entries above a b) :=
  inferInstanceAs (Decidable (ite _ _ _))

/-- A node comes before all that is below it; other nodes come in the order of the siblings where their ways part. -/
def Before (entries : List WalkEntry) (above : List String) : List String → List String → Prop
  | [], [] => False
  | [], _ :: _ => True
  | _ :: _, [] => False
  | a :: names, b :: names' => if a = b then Before entries (above ++ [a]) names names' else Ahead entries above a b

/-! ## Lines -/

/-- The names that have a line right below others. -/
def namesBelow (entries : List WalkEntry) (above : List String) : List String :=
  entries.filterMap fun e => if above <+: e.names then e.names[above.length]? else none

/-- Whether no sibling comes behind the one with this name. -/
def isLast (entries : List WalkEntry) (above : List String) (name : String) : Bool :=
  decide (∀ other ∈ namesBelow entries above, ¬ Ahead entries above name other)

/-- What stands in front of the label of a node that is drawn below `above`: a trunk for each node on the way to it, and
its branch. -/
def stem (entries : List WalkEntry) (above : List String) : List String → String
  | [] => ""
  | [name] => branch (isLast entries above name)
  | name :: next :: rest => trunk (isLast entries above name) ++ stem entries (above ++ [name]) (next :: rest)

def lineBelow (entries : List WalkEntry) (above names : List String) : String :=
  stem entries above names ++
    label (names.getLast?.getD "") (isFolder entries (above ++ names)) (isMarked entries (above ++ names))

/-- The line of a node. -/
def lineOf (entries : List WalkEntry) (names : List String) : String := lineBelow entries [] names

/-! ## What the tree says of a node -/

theorem entryAt?_eq_some (h : entryAt? entries names = some e) : e ∈ entries ∧ e.names = names :=
  ⟨List.mem_of_find?_eq_some h, by simpa using List.find?_some h⟩

theorem names_ne_of_entryAt?_eq_none (h : entryAt? entries names = none) (he : e ∈ entries) : e.names ≠ names := by
  simpa using List.find?_eq_none.1 h e he

/-- The flags of a node. -/
def given? (entries : List WalkEntry) (names : List String) : Option (Bool × Bool) :=
  if IsNode entries names then some (isFolder entries names, isMarked entries names) else none

theorem isSome_given?_iff : (given? entries names).isSome ↔ IsNode entries names := by
  unfold given?
  split <;> simp [*]

/-- What stands on the way to something else has flags too. -/
theorem isSome_flags?_of_prefix {t : Listing} (hfront : names <+: names') (h : (t.flags? names').isSome) :
    (t.flags? names).isSome := by
  obtain ⟨rest, rfl⟩ := hfront
  unfold flags? at h ⊢
  rw [Option.isSome_map, at?_append] at h
  rw [Option.isSome_map]
  exact Option.isSome_of_isSome_bind h

theorem flags?_ofEntries (hne : ∀ e ∈ entries, e.names ≠ []) (hdistinct : entries.Pairwise fun a b => a.names ≠ b.names)
    (hnames : names ≠ []) : (ofEntries entries).flags? names = given? entries names := by
  cases hflags : (ofEntries entries).flags? names with
  | none =>
    refine (if_neg ?_).symm
    rintro ⟨-, e, he, hfront⟩
    have hsome : ((ofEntries entries).flags? e.names).isSome := by rw [flags?_of_mem hne hdistinct he]; rfl
    have := isSome_flags?_of_prefix hfront hsome
    rw [hflags] at this
    cases this
  | some flags =>
    obtain ⟨d, x⟩ := flags
    obtain ⟨e, he, hexplains⟩ := exists_of_flags? hne hnames hflags
    have hnode : IsNode entries names := ⟨hnames, e, he, hexplains.leads⟩
    rw [given?, if_pos hnode, isFolder, isMarked]
    cases hentry : entryAt? entries names with
    | some e' =>
      obtain ⟨he', rfl⟩ := entryAt?_eq_some hentry
      exact hflags.symm.trans (flags?_of_mem hne hdistinct he')
    | none =>
      rcases hexplains with ⟨heq, -⟩ | ⟨-, -, rfl, rfl⟩
      · exact absurd heq.symm (names_ne_of_entryAt?_eq_none hentry he)
      · rfl

/-! ## The order is strict -/

theorem Ahead.asymm (h : Ahead entries above a b) : ¬ Ahead entries above b a := by
  unfold Ahead at h ⊢
  split at h
  · rename_i heq
    rw [if_pos heq.symm]
    exact List.lt_asymm h
  · rename_i hne
    rw [if_neg (Ne.symm hne)]
    rw [h] at hne
    exact fun h' => hne h'.symm

theorem before_append : Before entries above (front ++ names) (front ++ names') ↔
    Before entries (above ++ front) names names' := by
  induction front generalizing above with
  | nil => simp
  | cons a front ih =>
    rw [List.cons_append, List.cons_append, Before, if_pos rfl, ih, ← List.append_cons]

theorem Before.asymm (h : Before entries above names names') : ¬ Before entries above names' names := by
  induction names generalizing above names' with
  | nil => cases names' <;> simp [Before] at h ⊢
  | cons a names ih =>
    cases names' with
    | nil => cases h
    | cons b names' =>
      unfold Before at h ⊢
      split at h
      · rename_i heq
        subst heq
        rw [if_pos rfl]
        exact ih h
      · rename_i hne
        rw [if_neg (Ne.symm hne)]
        exact h.asymm

theorem nodup_of_pairwise_before (h : ns.Pairwise (Before entries above)) : ns.Nodup := by
  refine h.imp fun {names names'} hbefore heq => ?_
  subst heq
  exact hbefore.asymm hbefore

/-- There is one list of the same nodes in order. -/
theorem eq_of_pairwise_before (h : ns.Pairwise (Before entries above)) (h' : ns'.Pairwise (Before entries above))
    (hmem : ∀ names, names ∈ ns ↔ names ∈ ns') : ns = ns' := by
  have hperm : ns.Perm ns' :=
    (List.perm_ext_iff_of_nodup (nodup_of_pairwise_before h) (nodup_of_pairwise_before h')).2 hmem
  exact hperm.eq_of_pairwise (fun _ _ _ _ hab hba => absurd hba hab.asymm) h h'

/-! ## Last siblings -/

theorem append_singleton_prefix_iff : above ++ [name] <+: names ↔ above <+: names ∧ names[above.length]? = some name := by
  constructor
  · rintro ⟨rest, rfl⟩
    exact ⟨⟨name :: rest, by simp⟩, by simp⟩
  · rintro ⟨⟨rest, rfl⟩, hname⟩
    cases rest with
    | nil => simp at hname
    | cons next rest =>
      obtain rfl : next = name := by simpa using hname
      exact ⟨rest, by simp⟩

theorem mem_namesBelow_iff : name ∈ namesBelow entries above ↔ IsNode entries (above ++ [name]) := by
  unfold namesBelow IsNode
  simp only [List.mem_filterMap, append_singleton_prefix_iff]
  simp

theorem isLast_iff : isLast entries above name = true ↔
    ∀ other, IsNode entries (above ++ [other]) → ¬ Ahead entries above name other := by
  simp only [isLast, decide_eq_true_eq, mem_namesBelow_iff]

/-! ## Lines are lines -/

theorem newline_not_mem_branch (isLast : Bool) : '\n' ∉ (branch isLast).toList := by cases isLast <;> decide

theorem newline_not_mem_trunk (isLast : Bool) : '\n' ∉ (trunk isLast).toList := by cases isLast <;> decide

theorem newline_not_mem_label (h : '\n' ∉ name.toList) (isDir excluded : Bool) :
    '\n' ∉ (label name isDir excluded).toList := by
  have hmark : '\n' ∉ mark.toList := by decide
  cases isDir <;> cases excluded <;> simp [label, h, hmark]

theorem newline_not_mem_stem (entries : List WalkEntry) (above names : List String) :
    '\n' ∉ (stem entries above names).toList := by
  fun_induction stem entries above names with
  | case1 => simp
  | case2 => exact newline_not_mem_branch _
  | case3 above name next rest ih =>
    rw [String.toList_append, List.mem_append, not_or]
    exact ⟨newline_not_mem_trunk _, ih⟩

theorem newline_not_mem_lineBelow (h : ∀ name ∈ names, '\n' ∉ name.toList) :
    '\n' ∉ (lineBelow entries above names).toList := by
  have hlast : '\n' ∉ (names.getLast?.getD "").toList := by
    cases hnames : names.getLast? with
    | none => simp
    | some name => exact h name (List.mem_of_getLast? hnames)
  rw [lineBelow, String.toList_append, List.mem_append, not_or]
  exact ⟨newline_not_mem_stem entries above names, newline_not_mem_label hlast _ _⟩

/-- The stem has four columns for each name. -/
theorem length_stem (entries : List WalkEntry) (above names : List String) :
    (stem entries above names).length = 4 * names.length := by
  have hbranch (isLast : Bool) : (branch isLast).length = 4 := by cases isLast <;> decide
  have htrunk (isLast : Bool) : (trunk isLast).length = 4 := by cases isLast <;> decide
  fun_induction stem entries above names with
  | case1 => rfl
  | case2 => exact hbranch _
  | case3 above name next rest ih =>
    rw [String.length_append, htrunk, ih]
    simp only [List.length_cons]
    omega

end PromptPack.Listing
