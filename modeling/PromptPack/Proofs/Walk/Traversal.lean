import PromptPack.Proofs.FileSystem.Tree
import PromptPack.Proofs.Path.Order
import PromptPack.Walk
/-!
# What a walk reports

A plain walk goes down from directory to directory and stops at those that are pruned. By induction
on the depth, the entries below a directory are those of the files and directories that are reached
without passing a pruned one (`mem_entriesBelow_iff`).
-/

namespace PromptPack.Walker

variable {w : Walker} {fs : FileSystem} {ambient : Ignore.Rules} {root : Path} {loc : Location} {item : Item}
  {names : List String} {name : String} {st : Stage} {e : WalkEntry}

/-- The walker follows no links and reads no ignore files. -/
structure Plain (w : Walker) : Prop where
  followLinks : w.followLinks = false
  ignoreFiles : w.ignoreFiles = false

/-- The entry of what stands at a chain of names below the root; a link has none. -/
def report? (w : Walker) (root : Path) (names : List String) : Item → Option WalkEntry
  | .file _ => some ⟨root.join (.ofNames names), .ofNames names, false, !w.shouldInclude (.ofNames names)⟩
  | .dir => some ⟨root.join (.ofNames names), .ofNames names, true, w.isPruned (.ofNames names)⟩
  | .link _ => none

/-! ## The way down -/

/-- Nothing on the way along the names is pruned, the end apart. -/
def Open (prunes : List String → Prop) (names : List String) : Prop :=
  ∀ above rest, names = above ++ rest → above ≠ [] → rest ≠ [] → ¬ prunes above

theorem open_singleton (prunes : List String → Prop) (name : String) : Open prunes [name] := by
  intro above rest heq habove hrest
  rcases List.append_eq_singleton_iff.1 heq.symm with ⟨rfl, -⟩ | ⟨-, rfl⟩
  · exact absurd rfl habove
  · exact absurd rfl hrest

theorem open_cons_iff {prunes : List String → Prop} (hne : names ≠ []) :
    Open prunes (name :: names) ↔ ¬ prunes [name] ∧ Open (fun above => prunes (name :: above)) names := by
  constructor
  · intro h
    refine ⟨h [name] names rfl (by simp) hne, fun above rest heq _ hrest => ?_⟩
    exact h (name :: above) rest (by rw [heq]; rfl) (by simp) hrest
  · rintro ⟨hfirst, hbelow⟩ above rest heq habove hrest
    cases above with
    | nil => exact absurd rfl habove
    | cons n above =>
      obtain rfl := (List.cons.inj heq).1
      cases above with
      | nil => exact hfirst
      | cons n' above => exact hbelow (n' :: above) rest (List.cons.inj heq).2 (by simp) hrest

/-- The stage of the directory at a chain of names below the root. -/
structure Stage.At (st : Stage) (root : Path) (loc : Location) (names : List String) : Prop where
  loc_eq : st.loc = loc ++ names
  rel_eq : st.rel = names
  join : ∀ name, Path.IsName name → st.path.join ⟨name⟩ = root.join (.ofNames (names ++ [name]))

theorem Stage.At.ofRoot (w : Walker) (fs : FileSystem) (root : Path) (loc : Location) :
    (w.rootStage fs root loc).At root loc [] where
  loc_eq := (List.append_nil loc).symm
  rel_eq := rfl
  join name _ := Path.join_ofNames_singleton root name

theorem Stage.At.lookup_child (h : st.At root loc names) (tree : fs.IsTree) (hx : (name, item) ∈ fs.children st.loc) :
    fs.lookup (loc ++ (names ++ [name])) = some item := by
  rw [← List.append_assoc, ← h.loc_eq]
  exact tree.mem_children_iff.1 hx

theorem Stage.At.isName_child (h : st.At root loc names) (tree : fs.IsTree) (hx : (name, item) ∈ fs.children st.loc) :
    ∀ n ∈ names ++ [name], Path.IsName n := fun n hn =>
  tree.isName_of_lookup (h.lookup_child tree hx) n (List.mem_append_right _ hn)

theorem Stage.At.enter (h : st.At root loc names) (tree : fs.IsTree) (hx : (name, item) ∈ fs.children st.loc)
    (w : Walker) : (st.enter w fs name (st.loc ++ [name])).At root loc (names ++ [name]) where
  loc_eq := by rw [← List.append_assoc, ← h.loc_eq]; rfl
  rel_eq := by rw [← h.rel_eq]; rfl
  join name' hname' := by
    have hnames := h.isName_child tree hx
    rw [← Path.join_ofNames_join root (by simp) hnames hname', ← h.join name (hnames name (by simp))]
    rfl

/-! ## One step down -/

/-- What a plain walk reports for an item of a directory: the item, and what lies below a directory that is
not pruned. -/
def entriesAt (w : Walker) (fs : FileSystem) (ambient : Ignore.Rules) (depth : Nat) (st : Stage) (root : Path)
    (name : String) (item : Item) : List WalkEntry :=
  let names := st.rel ++ [name]
  (w.report? root names item).toList ++
    match item with
    | .dir =>
      if w.isPruned (.ofNames names) then []
      else w.entriesBelow fs ambient depth (st.enter w fs name (st.loc ++ [name]))
    | _ => []

theorem entriesBelow_succ (plain : w.Plain) (hst : st.At root loc names)
    (hnames : ∀ x ∈ fs.children st.loc, Path.IsName x.1) (depth : Nat) :
    w.entriesBelow fs ambient (depth + 1) st =
      (fs.children st.loc).flatMap fun x => w.entriesAt fs ambient depth st root x.1 x.2 := by
  rw [entriesBelow, List.flatMap_def, List.flatMap_def]
  refine congrArg List.flatten (List.map_congr_left fun ⟨name, item⟩ hx => ?_)
  have hjoin := hst.join name (hnames _ hx)
  rw [← hst.rel_eq] at hjoin
  cases item with
  | file bytes =>
    simp only [find, plain.ignoreFiles, Bool.false_and, Bool.false_eq_true, if_false, hjoin]
    rfl
  | link target =>
    simp only [find, plain.followLinks, Bool.false_eq_true, if_false]
    rfl
  | dir =>
    simp only [find, plain.ignoreFiles, Bool.false_and, Bool.false_eq_true, if_false, hjoin, entriesAt, report?]
    cases hpruned : w.isPruned (.ofNames (st.rel ++ [name])) with
    | true =>
      rw [Path.ofNames] at hpruned
      simp [Path.ofNames, hpruned]
    | false =>
      rw [Path.ofNames] at hpruned
      simp [Path.ofNames, hpruned]

theorem mem_entriesAt_iff {depth : Nat} : e ∈ w.entriesAt fs ambient depth st root name item ↔
    w.report? root (st.rel ++ [name]) item = some e ∨
      item = .dir ∧ w.isPruned (.ofNames (st.rel ++ [name])) = false ∧
        e ∈ w.entriesBelow fs ambient depth (st.enter w fs name (st.loc ++ [name])) := by
  unfold entriesAt
  rw [List.mem_append, Option.mem_toList]
  refine or_congr_right ?_
  cases item with
  | file bytes => simp
  | link target => simp
  | dir => cases w.isPruned (.ofNames (st.rel ++ [name])) <;> simp

theorem isName_of_mem_children (tree : fs.IsTree) {dir : Location} {x : String × Item} (hx : x ∈ fs.children dir) :
    Path.IsName x.1 :=
  tree.isName_of_lookup (tree.mem_children_iff.1 hx) x.1 (by simp)

/-! ## The whole way down -/

/-- The entry is that of something below the directory at `start`, reached without passing a pruned
directory. -/
def Reports (w : Walker) (fs : FileSystem) (root : Path) (loc : Location) (start : List String) (e : WalkEntry) :
    Prop :=
  ∃ names item, names ≠ [] ∧ Open (fun above => w.isPruned (.ofNames (start ++ above)) = true) names ∧
    fs.lookup (loc ++ (start ++ names)) = some item ∧ w.report? root (start ++ names) item = some e

theorem reports_cons_iff (tree : fs.IsTree) {start : List String} : w.Reports fs root loc start e ↔
    ∃ name item, fs.lookup (loc ++ (start ++ [name])) = some item ∧
      (w.report? root (start ++ [name]) item = some e ∨
        item = .dir ∧ w.isPruned (.ofNames (start ++ [name])) = false ∧
          w.Reports fs root loc (start ++ [name]) e) := by
  constructor
  · rintro ⟨names, item, hne, hopen, hlookup, hreport⟩
    cases names with
    | nil => exact absurd rfl hne
    | cons name names =>
      by_cases hrest : names = []
      · subst hrest
        exact ⟨name, item, hlookup, .inl hreport⟩
      · rw [open_cons_iff hrest, Bool.not_eq_true] at hopen
        rw [List.append_cons start name] at hlookup hreport
        have hdir := tree.lookup_prefix hrest (by rwa [List.append_assoc])
        refine ⟨name, .dir, hdir, .inr ⟨rfl, hopen.1, names, item, hrest, ?_, hlookup, hreport⟩⟩
        simpa only [List.append_assoc, List.singleton_append] using hopen.2
  · rintro ⟨name, item, hlookup, hreport | ⟨rfl, hpruned, names, item, hne, hopen, hlookup', hreport⟩⟩
    · exact ⟨[name], item, by simp, open_singleton _ _, hlookup, hreport⟩
    · rw [List.append_assoc, List.singleton_append] at hlookup' hreport
      refine ⟨name :: names, item, by simp, (open_cons_iff hne).2 ⟨by simpa using hpruned, ?_⟩, hlookup', hreport⟩
      simpa only [List.append_assoc, List.singleton_append] using hopen

/-- The entries below a directory are those of what is reached from it, as long as the depth lasts for
the longest way down. -/
theorem mem_entriesBelow_iff (tree : fs.IsTree) (plain : w.Plain) {depth : Nat} {start : List String}
    (hst : st.At root loc start) (hdepth : fs.items.length < depth + (loc ++ start).length) :
    e ∈ w.entriesBelow fs ambient depth st ↔ w.Reports fs root loc start e := by
  induction depth generalizing st start with
  | zero =>
    -- Nothing can stand below a location that is as long as the list of items.
    refine iff_of_false (by simp [entriesBelow]) ?_
    rintro ⟨names, item, hne, -, hlookup, -⟩
    have := tree.length_le hlookup
    simp only [List.length_append] at *
    omega
  | succ depth ih =>
    rw [entriesBelow_succ plain hst fun x => isName_of_mem_children tree, List.mem_flatMap, reports_cons_iff tree,
      Prod.exists]
    refine exists_congr fun name => exists_congr fun item => ?_
    rw [mem_entriesAt_iff, hst.rel_eq, ← List.append_assoc, ← hst.loc_eq, ← tree.mem_children_iff]
    refine and_congr_right fun hx => or_congr_right (and_congr_right fun _ => and_congr_right fun _ => ?_)
    refine ih (hst.enter tree hx w) ?_
    simp only [List.length_append, List.length_singleton] at hdepth ⊢
    omega

end PromptPack.Walker
