import PromptPack.FileSystem
import PromptPack.Proofs.Path.Names
/-!
# File systems as trees

The items of a file system form a tree: no two of them stand at one location, and each stands in a
directory under a name. What is found at a location then has directories all the way up.
-/

namespace PromptPack.FileSystem

/-- What makes the items of a file system a tree. -/
structure IsTree (fs : FileSystem) : Prop where
  distinct : fs.items.Pairwise fun x y => x.1 ≠ y.1
  nonempty : ∀ x ∈ fs.items, x.1 ≠ []
  parent : ∀ x ∈ fs.items, fs.lookup x.1.dropLast = some .dir
  isName : ∀ x ∈ fs.items, ∀ n ∈ x.1, Path.IsName n

instance (found : Option Item) : Decidable (found = some .dir) :=
  match found with
  | some .dir => .isTrue rfl
  | some (.file _) | some (.link _) | none => .isFalse nofun

instance : DecidablePred IsTree := fun fs =>
  decidable_of_iff ((fs.items.Pairwise fun x y => x.1 ≠ y.1) ∧ (∀ x ∈ fs.items, x.1 ≠ []) ∧
      (∀ x ∈ fs.items, fs.lookup x.1.dropLast = some .dir) ∧ ∀ x ∈ fs.items, ∀ n ∈ x.1, Path.IsName n)
    ⟨fun ⟨hdistinct, hne, hparent, hname⟩ => ⟨hdistinct, hne, hparent, hname⟩,
      fun h => ⟨h.distinct, h.nonempty, h.parent, h.isName⟩⟩

variable {fs : FileSystem} {loc : Location} {name : String} {item : Item}

theorem mem_items_of_lookup (hne : loc ≠ []) (h : fs.lookup loc = some item) : (loc, item) ∈ fs.items := by
  rw [lookup, if_neg (by simpa using hne), Option.map_eq_some_iff] at h
  obtain ⟨⟨loc', item'⟩, hfind, rfl⟩ := h
  obtain rfl : loc' = loc := by simpa using List.find?_some hfind
  exact List.mem_of_find?_eq_some hfind

namespace IsTree

theorem lookup_of_mem_items (tree : fs.IsTree) (h : (loc, item) ∈ fs.items) : fs.lookup loc = some item := by
  have hne : loc ≠ [] := tree.nonempty _ h
  obtain ⟨before, after, heq⟩ := List.append_of_mem h
  have hdistinct := tree.distinct
  rw [heq, List.pairwise_append] at hdistinct
  have hbefore : before.find? (·.1 == loc) = none := by
    rw [List.find?_eq_none]
    intro x hx
    simpa using hdistinct.2.2 x hx _ List.mem_cons_self
  rw [lookup, if_neg (by simpa using hne), heq, List.find?_append, hbefore, Option.none_or,
    List.find?_cons_of_pos (by simp), Option.map_some]

theorem lookup_dir (tree : fs.IsTree) (h : fs.lookup (loc ++ [name]) = some item) :
    fs.lookup loc = some .dir := by
  have := tree.parent _ (mem_items_of_lookup (by simp) h)
  rwa [List.dropLast_concat] at this

theorem isName_of_lookup (tree : fs.IsTree) (h : fs.lookup loc = some item) : ∀ n ∈ loc, Path.IsName n := by
  intro n hn
  exact tree.isName _ (mem_items_of_lookup (List.ne_nil_of_mem hn) h) n hn

theorem isName_below (tree : fs.IsTree) {names : List String} (h : fs.lookup (loc ++ names) = some item) :
    ∀ n ∈ names, Path.IsName n := fun n hn =>
  tree.isName_of_lookup h n (List.mem_append_right _ hn)

/-- Whatever is above an item of the tree is a directory. -/
theorem lookup_prefix (tree : fs.IsTree) {names : List String} (hne : names ≠ [])
    (h : fs.lookup (loc ++ names) = some item) : fs.lookup loc = some .dir := by
  induction names generalizing loc with
  | nil => exact absurd rfl hne
  | cons n rest ih =>
    by_cases hrest : rest = []
    · subst hrest
      exact tree.lookup_dir h
    · rw [List.append_cons] at h
      exact tree.lookup_dir (ih hrest h)

/-- No location in the tree is longer than the list of items. -/
theorem length_le (tree : fs.IsTree) (h : fs.lookup loc = some item) : loc.length ≤ fs.items.length := by
  -- Each front of the location is the location of an item, and they all differ in length.
  let above := (List.range loc.length).map fun i => loc.take (i + 1)
  have hnodup : above.Nodup := by
    refine List.pairwise_map.2 (List.nodup_range.imp_of_mem fun hi hj hne heq => hne ?_)
    have := congrArg List.length heq
    rw [List.mem_range] at hi hj
    simp only [List.length_take] at this
    omega
  have hsubset : above ⊆ fs.items.map (·.1) := by
    intro loc' hloc'
    obtain ⟨i, hi, rfl⟩ := List.mem_map.1 hloc'
    have hne : loc.take (i + 1) ≠ [] := by
      rw [List.mem_range] at hi
      exact List.ne_nil_of_length_pos (by rw [List.length_take]; omega)
    obtain ⟨item', hitem'⟩ : ∃ item', fs.lookup (loc.take (i + 1)) = some item' := by
      rcases Nat.lt_or_ge (i + 1) loc.length with hlt | hge
      · have hbelow : loc.drop (i + 1) ≠ [] := List.ne_nil_of_length_pos (by rw [List.length_drop]; omega)
        have hwhole : fs.lookup (loc.take (i + 1) ++ loc.drop (i + 1)) = some item := by rwa [List.take_append_drop]
        exact ⟨.dir, tree.lookup_prefix hbelow hwhole⟩
      · exact ⟨item, by rwa [List.take_of_length_le hge]⟩
    exact List.mem_map.2 ⟨_, mem_items_of_lookup hne hitem', rfl⟩
  simpa [above] using hnodup.length_le_of_subset hsubset

end IsTree

/-! ## The items of a directory -/

theorem nameIn?_eq_some_iff {dir : Location} : nameIn? dir loc = some name ↔ loc = dir ++ [name] := by
  unfold nameIn?
  constructor
  · intro h
    split at h
    · rename_i hdir
      obtain rfl : loc.dropLast = dir := by simpa using hdir
      obtain ⟨front, rfl⟩ := List.getLast?_eq_some_iff.1 h
      rw [List.dropLast_concat]
    · cases h
  · rintro rfl
    simp

theorem mem_children {dir : Location} : (name, item) ∈ fs.children dir ↔ (dir ++ [name], item) ∈ fs.items := by
  simp only [children, List.mem_filterMap, Option.map_eq_some_iff, Prod.exists, Prod.mk.injEq,
    nameIn?_eq_some_iff]
  constructor
  · rintro ⟨_, _, h, _, rfl, rfl, rfl⟩
    exact h
  · intro h
    exact ⟨_, _, h, _, rfl, rfl, rfl⟩

theorem IsTree.mem_children_iff (tree : fs.IsTree) {dir : Location} :
    (name, item) ∈ fs.children dir ↔ fs.lookup (dir ++ [name]) = some item := by
  rw [mem_children]
  exact ⟨tree.lookup_of_mem_items, mem_items_of_lookup (by simp)⟩

/-- The items of a directory have different names. -/
theorem IsTree.children_distinct (tree : fs.IsTree) (dir : Location) :
    (fs.children dir).Pairwise fun x y => x.1 ≠ y.1 := by
  refine tree.distinct.filterMap _ ?_
  rintro ⟨loc, item⟩ ⟨loc', item'⟩ hne x hx y hy heq
  simp only [Option.map_eq_some_iff, nameIn?_eq_some_iff] at hx hy
  obtain ⟨name, rfl, rfl⟩ := hx
  obtain ⟨name', rfl, rfl⟩ := hy
  exact hne (congrArg (dir ++ [·]) heq)

/-! ## Where a path leads -/

/-- Whichever way a path is followed, it ends with what stands at the location found. -/
theorem lookup_of_follow {last : Bool} {links : Nat} {comps : List Path.Component} {found : Place}
    (h : fs.follow last links loc comps = some found) : fs.lookup found.loc = found.item := by
  fun_induction follow fs last links loc comps <;> grind

theorem lookup_of_place {p : Path} {last : Bool} {found : Place} (h : fs.place p last = some found) :
    fs.lookup found.loc = found.item := by
  unfold place at h
  split at h
  · cases h
  · split at h
    · rename_i hfollow
      have := lookup_of_follow hfollow
      grind
    · cases h

theorem exists_place_of_isDir {p : Path} (h : fs.isDir p = true) : ∃ loc, fs.place p = some ⟨loc, some .dir⟩ := by
  unfold isDir item? at h
  split at h
  · rename_i hitem
    obtain ⟨⟨loc, item⟩, hplace, rfl⟩ := Option.bind_eq_some_iff.1 hitem
    exact ⟨loc, hplace⟩
  · cases h

theorem isDir_of_place {p : Path} (h : fs.place p = some ⟨loc, some .dir⟩) : fs.isDir p = true := by
  rw [isDir, item?, h]
  rfl

/-- What can be read is a file. -/
theorem isFile_of_readBytes? {p : Path} {bytes : ByteArray} (h : fs.readBytes? p = some bytes) :
    fs.isFile p = true := by
  unfold readBytes? at h
  split at h
  · rename_i hplace
    rw [isFile, item?, hplace]
    rfl
  · cases h

end PromptPack.FileSystem
