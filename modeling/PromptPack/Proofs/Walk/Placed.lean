import PromptPack.Proofs.Walk.Coherent
import PromptPack.Proofs.Walk.Traversal
/-!
# Where the entries of a walk stand

Whatever links a walk follows and whatever ignore files it reads, an entry stands where its names say, and no
directory on the way there is pruned (`placed_of_mem_walk`). A file of a walk that follows no links stands in the tree
itself.
-/

namespace PromptPack.Walker

variable {w : Walker} {fs : FileSystem} {ambient : Ignore.Rules} {home root : Path} {loc : Location} {item : Item}
  {depth : Nat} {st : Stage} {start names : List String} {name : String} {e : WalkEntry}

/-- How an entry comes up when the walk of a directory gets to one of the items. -/
inductive Met (w : Walker) (fs : FileSystem) (ambient : Ignore.Rules) (depth : Nat) (st : Stage) (name : String)
    (item : Item) : WalkEntry → Prop
  | file (found : w.find fs st.within (st.loc ++ [name]) item = .file) : Met w fs ambient depth st name item
      ⟨st.path.join ⟨name⟩, .ofNames (st.rel ++ [name]), false, !w.shouldInclude (.ofNames (st.rel ++ [name]))⟩
  | dir (loc : Location) (found : w.find fs st.within (st.loc ++ [name]) item = .dir loc) :
      Met w fs ambient depth st name item
        ⟨st.path.join ⟨name⟩, .ofNames (st.rel ++ [name]), true, w.isPruned (.ofNames (st.rel ++ [name]))⟩
  | below (loc : Location) (e : WalkEntry) (found : w.find fs st.within (st.loc ++ [name]) item = .dir loc)
      (entered : w.isPruned (.ofNames (st.rel ++ [name])) = false)
      (mem : e ∈ w.entriesBelow fs ambient depth (st.enter w fs name loc)) : Met w fs ambient depth st name item e

theorem exists_met (h : e ∈ w.entriesBelow fs ambient (depth + 1) st) :
    ∃ name item, (name, item) ∈ fs.children st.loc ∧ Met w fs ambient depth st name item e := by
  rw [entriesBelow] at h
  obtain ⟨⟨name, item⟩, hitem, he⟩ := List.mem_flatMap.1 h
  refine ⟨name, item, hitem, ?_⟩
  dsimp only at he
  cases hfind : w.find fs st.within (st.loc ++ [name]) item with
  | nothing => simp [hfind] at he
  | file =>
    simp only [hfind] at he
    split at he
    · cases he
    · obtain rfl := List.mem_singleton.1 he
      exact .file hfind
  | dir loc =>
    simp only [hfind] at he
    split at he
    · cases he
    · have hdir : Met w fs ambient depth st name item
          ⟨st.path.join ⟨name⟩, .ofNames (st.rel ++ [name]), true, w.isPruned (.ofNames (st.rel ++ [name]))⟩ :=
        .dir loc hfind
      cases hpruned : w.isPruned (.ofNames (st.rel ++ [name])) with
      | true =>
        rw [hpruned] at hdir
        rw [Path.ofNames] at hpruned
        rw [if_pos hpruned, List.mem_singleton] at he
        exact he ▸ hdir
      | false =>
        rw [hpruned] at hdir
        have hentered := hpruned
        rw [Path.ofNames] at hpruned
        rw [hpruned, if_neg Bool.false_ne_true] at he
        rcases List.mem_cons.1 he with rfl | he
        · exact hdir
        · exact .below loc e hfind hentered he

/-! ## The way from the root -/

/-- The path of the stage was put together from the root and the names of the stage. -/
structure Stage.Rooted (st : Stage) (root : Path) : Prop where
  isName : ∀ n ∈ st.rel, Path.IsName n
  join : ∀ name, Path.IsName name → st.path.join ⟨name⟩ = root.join (.ofNames (st.rel ++ [name]))

theorem rooted_rootStage (w : Walker) (fs : FileSystem) (root : Path) (loc : Location) :
    (w.rootStage fs root loc).Rooted root where
  isName := by simp [rootStage]
  join name _ := Path.join_ofNames_singleton root name

theorem Stage.Rooted.enter (h : st.Rooted root) (hname : Path.IsName name) (w : Walker) (fs : FileSystem)
    (loc : Location) : (st.enter w fs name loc).Rooted root where
  isName := by
    rintro n hn
    rcases List.mem_append.1 hn with hn | hn
    · exact h.isName n hn
    · rwa [List.mem_singleton.1 hn]
  join name' hname' := by
    have hnames : ∀ n ∈ st.rel ++ [name], Path.IsName n :=
      List.forall_mem_append.2 ⟨h.isName, List.forall_mem_singleton.2 hname⟩
    have hjoin := Path.join_ofNames_join root (by simp) hnames hname'
    rwa [← h.join name hname] at hjoin

/-- The entry stands at the names below a directory of the walk, which `start` leads to from the root. -/
structure Placed (w : Walker) (fs : FileSystem) (root : Path) (loc : Location) (start names : List String)
    (e : WalkEntry) : Prop where
  nonempty : names ≠ []
  isName : ∀ n ∈ start ++ names, Path.IsName n
  rel : e.rel = .ofNames (start ++ names)
  path : e.path = root.join (.ofNames (start ++ names))
  through : Open (fun above => w.isPruned (.ofNames (start ++ above)) = true) names
  mark : e.isDir = true → e.excluded = w.isPruned (.ofNames (start ++ names))
  file : w.followLinks = false → e.isDir = false → ∃ bytes, fs.lookup (loc ++ names) = some (.file bytes)

/-- What stands below a directory that is entered stands below the directory around it. -/
theorem Placed.of_below {below : Location} (h : Placed w fs root below (start ++ [name]) names e)
    (hentered : w.isPruned (.ofNames (start ++ [name])) = false)
    (hbelow : w.followLinks = false → below = loc ++ [name]) : Placed w fs root loc start (name :: names) e where
  nonempty := List.cons_ne_nil name names
  isName := by simpa using h.isName
  rel := by simpa using h.rel
  path := by simpa using h.path
  through := by
    refine (open_cons_iff h.nonempty).2 ⟨by simp [hentered], ?_⟩
    simpa using h.through
  mark := by simpa using h.mark
  file hlinks hfile := by
    have hlookup := h.file hlinks hfile
    rw [hbelow hlinks] at hlookup
    simpa using hlookup

theorem placed_of_mem_entriesBelow (tree : fs.IsTree) (hst : st.Rooted root)
    (h : e ∈ w.entriesBelow fs ambient depth st) : ∃ names, Placed w fs root st.loc st.rel names e := by
  induction depth generalizing st with
  | zero => simp [entriesBelow] at h
  | succ depth ih =>
    obtain ⟨name, item, hitem, hmet⟩ := exists_met h
    have hname : Path.IsName name := isName_of_mem_children tree hitem
    have hnames : ∀ n ∈ st.rel ++ [name], Path.IsName n :=
      List.forall_mem_append.2 ⟨hst.isName, List.forall_mem_singleton.2 hname⟩
    have hlookup := tree.mem_children_iff.1 hitem
    cases hmet with
    | file found =>
      refine ⟨[name], by simp, hnames, rfl, hst.join name hname, open_singleton _ _, by simp, fun hlinks _ => ?_⟩
      -- Without links only a file is taken for a file.
      cases item with
      | file bytes => exact ⟨bytes, hlookup⟩
      | dir => simp [find] at found
      | link target => simp [find, hlinks] at found
    | dir loc found =>
      exact ⟨[name], by simp, hnames, rfl, hst.join name hname, open_singleton _ _, fun _ => rfl, by simp⟩
    | below loc _ found entered mem =>
      obtain ⟨names, hplaced⟩ := ih (hst.enter hname w fs loc) mem
      refine ⟨name :: names, hplaced.of_below entered fun hlinks => ?_⟩
      cases item with
      | file bytes => simp [find] at found
      | dir =>
        cases found
        rfl
      | link target => simp [find, hlinks] at found

theorem placed_of_mem_walk (tree : fs.IsTree) (hroot : fs.place root = some ⟨loc, some .dir⟩)
    (h : e ∈ w.walk fs home root) : ∃ names, Placed w fs root loc [] names e := by
  simp only [walk, hroot] at h
  split at h
  · cases h
  · exact placed_of_mem_entriesBelow tree (rooted_rootStage w fs root loc) (List.mem_mergeSort.1 h)

theorem Placed.names_eq (h : Placed w fs root loc [] names e) : e.names = names :=
  names_of_rel h.nonempty h.isName h.rel

end PromptPack.Walker
