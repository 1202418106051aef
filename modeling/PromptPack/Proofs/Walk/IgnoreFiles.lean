import Mathlib.Data.List.Basic
import Mathlib.Data.List.Flatten
import PromptPack.Proofs.FileSystem.Tree
import PromptPack.Proofs.Path.Order
import PromptPack.Walk
/-!
# Ignore files only remove

The rules of ignore files have one say in a walk: an item that they ignore is left out, with all that lies below it.
They have none in where the walk goes otherwise or in the marks of the entries, so a walk that reads them finds nothing
that one without them would not find. One without them does not see what any file holds (`ignore_files_only_remove`).
-/

namespace PromptPack

/-- Sorting keeps a part of a list a part of it. -/
theorem mergeSort_sublist {α : Type} {le : α → α → Bool}
    (htrans : ∀ a b c, le a b = true → le b c = true → le a c = true) (htotal : ∀ a b, (le a b || le b a) = true)
    {part whole : List α} (h : part.Sublist whole) : (part.mergeSort le).Sublist (whole.mergeSort le) := by
  -- A further item goes behind those that it may not come before, and in front of the others.
  have hplaced (a : α) (items : List α) : (a :: items).mergeSort le =
      (items.mergeSort le).filter (fun b => !le a b) ++ a :: (items.mergeSort le).filter (le a) := by
    obtain ⟨before, behind, hsorted, hrest, hbefore⟩ := List.mergeSort_cons htrans htotal a items
    have hpairwise := List.pairwise_mergeSort htrans htotal (a :: items)
    rw [hsorted, List.pairwise_append, List.pairwise_cons] at hpairwise
    have hbehind : ∀ b ∈ behind, le a b = true := hpairwise.2.1.1
    rw [hsorted, hrest, List.filter_append, List.filter_append, List.filter_eq_self.2 hbefore,
      List.filter_eq_self.2 hbehind, List.filter_eq_nil_iff.2 (by simpa using hbehind),
      List.filter_eq_nil_iff.2 (by simpa using hbefore), List.append_nil, List.nil_append]
  induction h with
  | slnil => exact List.Sublist.refl _
  | @cons part whole a _ ih =>
    obtain ⟨before, behind, hsorted, hrest, -⟩ := List.mergeSort_cons htrans htotal a whole
    rw [hrest] at ih
    rw [hsorted]
    exact ih.trans ((List.Sublist.refl before).append (List.sublist_cons_self a behind))
  | @cons_cons part whole a _ ih =>
    rw [hplaced, hplaced]
    exact (ih.filter _).append ((ih.filter _).cons_cons a)

/-! ## Files that hold something else -/

/-- The item with other contents, if it is a file. -/
def Item.refilled (change : ByteArray → ByteArray) : Item → Item
  | .file bytes => .file (change bytes)
  | .dir => .dir
  | .link target => .link target

namespace FileSystem

/-- The same tree of files, directories and links, with other contents in its files, of which others may be closed. -/
def refilled (fs : FileSystem) (contents : Location → ByteArray → ByteArray) (closed : List Location) : FileSystem where
  items := fs.items.map fun x => (x.1, x.2.refilled (contents x.1))
  cwd := fs.cwd
  closed := closed

/-- The place with other contents in what stands there. -/
def Place.refilled (contents : Location → ByteArray → ByteArray) (p : Place) : Place where
  loc := p.loc
  item := p.item.map (·.refilled (contents p.loc))

variable (fs : FileSystem) (contents : Location → ByteArray → ByteArray) (closed : List Location)

theorem lookup_refilled (loc : Location) :
    (fs.refilled contents closed).lookup loc = (fs.lookup loc).map (·.refilled (contents loc)) := by
  have hfind : (fs.refilled contents closed).items.find? (·.1 == loc) =
      (fs.items.find? (·.1 == loc)).map fun x => (x.1, x.2.refilled (contents x.1)) := List.find?_map ..
  unfold lookup
  rw [hfind]
  split
  · rfl
  · cases hitem : fs.items.find? (·.1 == loc) with
    | none => rfl
    | some x =>
      obtain rfl : x.1 = loc := by simpa using List.find?_some hitem
      rfl

theorem follow_refilled (last : Bool) (links : Nat) (start : Location) (comps : List Path.Component) :
    (fs.refilled contents closed).follow last links start comps =
      (fs.follow last links start comps).map (Place.refilled contents) := by
  fun_induction follow fs last links start comps with
  | case1 links start =>
    rw [follow, lookup_refilled]
    rfl
  | case2 _ _ _ ih | case3 _ _ _ ih | case4 _ _ _ ih => rw [follow, ih]
  | case5 _ _ _ _ child hlookup hrest | case6 _ _ _ _ child hlookup hrest | case8 _ _ _ _ child _ hlookup hrest
  | case9 _ _ _ _ child _ hlookup hrest | case10 _ _ _ _ child _ hlookup hrest | case11 _ _ _ child _ hlookup hrest =>
    rw [follow, lookup_refilled, hlookup]
    simp [hrest, Item.refilled, Place.refilled, child]
  | case7 _ _ _ _ _ hlookup ih =>
    rw [follow, lookup_refilled, hlookup]
    exact ih
  | case12 _ _ _ _ _ hlookup hrest _ ih =>
    rw [follow, lookup_refilled, hlookup]
    simpa [hrest, Item.refilled] using ih

/-- A path leads to the same place whatever the files hold. -/
theorem place_refilled (p : Path) (last : Bool) :
    (fs.refilled contents closed).place p last = (fs.place p last).map (Place.refilled contents) := by
  have hcwd : (fs.refilled contents closed).cwd = fs.cwd := rfl
  unfold place
  rw [hcwd, follow_refilled]
  split
  · rfl
  · cases fs.follow (last || demandsDir p) 40 fs.cwd p.components with
    | none => rfl
    | some found =>
      obtain ⟨loc, item⟩ := found
      cases item with
      | none => rfl
      | some item =>
        cases item with
        | file bytes =>
          simp only [Option.map_some, Place.refilled, Item.refilled]
          split <;> rfl
        | dir => rfl
        | link target => rfl

theorem isLink_refilled (p : Path) : (fs.refilled contents closed).isLink p = fs.isLink p := by
  unfold isLink
  rw [place_refilled]
  cases fs.place p false with
  | none => rfl
  | some found =>
    obtain ⟨loc, item⟩ := found
    rcases item with - | - | - | - <;> rfl

theorem children_refilled (dir : Location) : (fs.refilled contents closed).children dir =
    (fs.children dir).map fun x => (x.1, x.2.refilled (contents (dir ++ [x.1]))) := by
  unfold children refilled
  rw [List.filterMap_map, List.map_filterMap]
  refine List.filterMap_congr fun x _ => ?_
  obtain ⟨loc, item⟩ := x
  cases hname : nameIn? dir loc with
  | none => simp [hname]
  | some name =>
    obtain rfl := nameIn?_eq_some_iff.1 hname
    simp [hname]

end FileSystem

namespace Walker

/-- The same walker, but for reading ignore files. -/
def heeding (w : Walker) (ignores : Bool) : Walker := { w with ignoreFiles := ignores }

variable {fs : FileSystem} {contents : Location → ByteArray → ByteArray} {closed : List Location} {home home' root : Path}
  {ambient ambient' : Ignore.Rules} {w : Walker}

theorem find_refilled (within : List Location) (loc : Location) (item : Item) (change : ByteArray → ByteArray) :
    w.find (fs.refilled contents closed) within loc (item.refilled change) = w.find fs within loc item := by
  cases item with
  | file bytes => rfl
  | dir => rfl
  | link target =>
    simp only [Item.refilled, find, FileSystem.place_refilled]
    cases fs.place (FileSystem.pathOf loc) with
    | none => rfl
    | some found =>
      obtain ⟨target, item⟩ := found
      rcases item with - | - | - | - <;> rfl

/-- Without ignore files, the entries below a directory do not depend on what the files hold. -/
theorem entriesBelow_refilled (h : w.ignoreFiles = false) (depth : Nat) (st : Stage) :
    w.entriesBelow (fs.refilled contents closed) ambient' depth st = w.entriesBelow fs ambient depth st := by
  induction depth generalizing st with
  | zero => rfl
  | succ depth ih =>
    have henter (name : String) (loc : Location) :
        st.enter w (fs.refilled contents closed) name loc = st.enter w fs name loc := by
      simp [Stage.enter, h]
    rw [entriesBelow, entriesBelow, FileSystem.children_refilled, List.flatMap_map]
    refine List.flatMap_congr fun x _ => ?_
    obtain ⟨name, item⟩ := x
    simp only [find_refilled, henter, ih, h, Bool.false_and]

theorem walk_refilled (h : w.ignoreFiles = false) :
    w.walk (fs.refilled contents closed) home' root = w.walk fs home root := by
  have hsingle : w.singleFile (fs.refilled contents closed) root = w.singleFile fs root := by
    simp only [singleFile, FileSystem.isLink_refilled]
  have hdeepest : deepest (fs.refilled contents closed) = deepest fs := by
    simp [deepest, FileSystem.refilled]
  unfold walk
  rw [FileSystem.place_refilled, hsingle]
  cases fs.place root with
  | none => rfl
  | some found =>
    obtain ⟨loc, item⟩ := found
    rcases item with - | - | - | -
    · rfl
    · rfl
    · have hstage : w.rootStage (fs.refilled contents closed) root loc = w.rootStage fs root loc := by
        simp [rootStage, h]
      simp only [Option.map_some, FileSystem.Place.refilled, Item.refilled]
      rw [hstage, hdeepest, entriesBelow_refilled h]
    · rfl

/-! ## With rules and without them -/

/-- What is found below a directory under ignore rules is found without them, in the same order. -/
theorem entriesBelow_sublist (w : Walker) (depth : Nat) (st : Stage) :
    (w.entriesBelow fs ambient depth st).Sublist
      ((w.heeding false).entriesBelow fs ambient' depth { st with levels := [] }) := by
  induction depth generalizing st with
  | zero => exact List.Sublist.refl _
  | succ depth ih =>
    rw [entriesBelow, entriesBelow]
    refine List.Sublist.flatMap_right _ fun x _ => ?_
    obtain ⟨name, item⟩ := x
    -- The two walkers tell files from directories, prune and mark alike.
    have hfind : (w.heeding false).find = w.find := rfl
    have hpruned : (w.heeding false).isPruned = w.isPruned := rfl
    have hkeeps : (w.heeding false).shouldInclude = w.shouldInclude := rfl
    have hignores : (w.heeding false).ignoreFiles = false := rfl
    dsimp only
    rw [hfind, hpruned, hkeeps, hignores]
    simp only [Bool.false_and, Bool.false_eq_true, if_false]
    cases w.find fs st.within (st.loc ++ [name]) item with
    | nothing => exact List.Sublist.refl _
    | file =>
      dsimp only
      split
      · exact List.nil_sublist _
      · exact List.Sublist.refl _
    | dir loc =>
      dsimp only
      split
      · exact List.nil_sublist _
      · split
        · exact List.Sublist.refl _
        · exact (ih (st.enter w fs name loc)).cons_cons _

theorem walk_sublist (w : Walker) (fs : FileSystem) (home root : Path) :
    (w.walk fs home root).Sublist ((w.heeding false).walk fs home root) := by
  have htrans (a b c : WalkEntry) (hab : a.rel.le b.rel = true) (hbc : b.rel.le c.rel = true) :
      a.rel.le c.rel = true := Path.le_trans hab hbc
  have htotal (a b : WalkEntry) : (a.rel.le b.rel || b.rel.le a.rel) = true := Path.le_total a.rel b.rel
  unfold walk
  split
  · split
    · exact List.Sublist.refl _
    · exact mergeSort_sublist htrans htotal (entriesBelow_sublist w _ _)
  · exact List.Sublist.refl _

/-- Every entry of a walk that reads ignore files is an entry of the walk that does not, with the same marks and in the
same order; and that one stays the same whatever the files below the root and elsewhere hold, ignore files among them,
and whichever of them can be opened. -/
theorem ignore_files_only_remove (w : Walker) (fs : FileSystem) (home root : Path) :
    ((w.heeding true).walk fs home root).Sublist ((w.heeding false).walk fs home root) ∧
      ∀ (contents : Location → ByteArray → ByteArray) (closed : List Location) (home' : Path),
        (w.heeding false).walk (fs.refilled contents closed) home' root = (w.heeding false).walk fs home root :=
  ⟨walk_sublist (w.heeding true) fs home root, fun _ _ _ => walk_refilled rfl⟩

end Walker

end PromptPack
