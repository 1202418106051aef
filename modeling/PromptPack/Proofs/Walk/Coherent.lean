import Mathlib.Data.List.Pairwise
import PromptPack.Proofs.FileSystem.Tree
import PromptPack.Walk
/-!
# The entries of a walk among themselves

Whatever links a walk follows and whatever ignore files it reads, it reports no names twice below a directory, and
reports something below an entry only if the entry is a directory that is kept (`coherent_walk`).
-/

namespace PromptPack

namespace WalkEntry

/-- The entries have different names; one whose names the names of the other begin with is a kept directory. -/
structure Apart (a b : WalkEntry) : Prop where
  ne : a.names ≠ b.names
  above : a.names <+: b.names → a.isDir = true ∧ a.excluded = false
  below : b.names <+: a.names → b.isDir = true ∧ b.excluded = false

theorem Apart.symm {a b : WalkEntry} (h : a.Apart b) : b.Apart a := ⟨h.ne.symm, h.below, h.above⟩

instance : Std.Symm Apart := ⟨fun _ _ => Apart.symm⟩

/-- The entries lie below a chain of names, each apart from the others. -/
structure Coherent (above : List String) (entries : List WalkEntry) : Prop where
  below : ∀ e ∈ entries, ∃ names, names ≠ [] ∧ e.names = above ++ names
  apart : entries.Pairwise Apart

variable {above : List String} {entries entries' : List WalkEntry} {a b e : WalkEntry}

theorem Coherent.sublist (h : Coherent above entries) (hsub : entries'.Sublist entries) : Coherent above entries' :=
  ⟨fun e he => h.below e (hsub.subset he), h.apart.sublist hsub⟩

theorem Coherent.perm (h : Coherent above entries) (hperm : entries'.Perm entries) : Coherent above entries' :=
  ⟨fun e he => h.below e (hperm.subset he), (hperm.pairwise_iff Apart.symm).2 h.apart⟩

theorem Coherent.names_ne_nil (h : Coherent above entries) : ∀ e ∈ entries, e.names ≠ [] := by
  intro e he
  obtain ⟨names, hne, heq⟩ := h.below e he
  simp [heq, hne]

theorem Coherent.names_distinct (h : Coherent above entries) : entries.Pairwise fun a b => a.names ≠ b.names :=
  h.apart.imp fun hab => hab.ne

/-- Only below a kept directory is there another entry. -/
theorem Coherent.eq_or_kept_dir (h : Coherent above entries) (ha : a ∈ entries) (hb : b ∈ entries)
    (hfront : a.names <+: b.names) : a = b ∨ a.isDir = true ∧ a.excluded = false := by
  by_cases heq : a = b
  · exact .inl heq
  · exact .inr ((h.apart.forall ha hb heq).above hfront)

theorem not_prefix_of_ways_part {n m : String} (hne : n ≠ m) (rest rest' : List String) :
    ¬ above ++ n :: rest <+: above ++ m :: rest' := by
  rw [List.prefix_append_right_inj, List.cons_prefix_cons]
  exact fun h => hne h.1

/-- Entries whose ways part are apart. -/
theorem apart_of_ways_part {n m : String} (hne : n ≠ m) {rest rest' : List String} (ha : a.names = above ++ n :: rest)
    (hb : b.names = above ++ m :: rest') : a.Apart b := by
  have hfront : ¬ a.names <+: b.names := by
    rw [ha, hb]
    exact not_prefix_of_ways_part hne rest rest'
  have hfront' : ¬ b.names <+: a.names := by
    rw [ha, hb]
    exact not_prefix_of_ways_part hne.symm rest' rest
  exact ⟨fun heq => hfront (heq ▸ List.prefix_refl _), fun h => absurd h hfront, fun h => absurd h hfront'⟩

/-- A kept directory is apart from what lies below it. -/
theorem apart_of_below {names : List String} (hdir : a.isDir = true) (hkept : a.excluded = false) (hne : names ≠ [])
    (hb : b.names = a.names ++ names) : a.Apart b := by
  have hpos := List.length_pos_iff.2 hne
  refine ⟨fun heq => ?_, fun _ => ⟨hdir, hkept⟩, fun h => ?_⟩
  · have := congrArg List.length heq
    simp only [hb, List.length_append] at this
    omega
  · have := h.length_le
    simp only [hb, List.length_append] at this
    omega

end WalkEntry

namespace Walker

open WalkEntry

variable {w : Walker} {fs : FileSystem} {ambient : Ignore.Rules} {depth : Nat} {st : Stage} {name : String}
  {entries : List WalkEntry} {e : WalkEntry}

/-- What a walk reports for an item of a directory: nothing, one entry, or a kept directory with what lies below. -/
inductive Step (w : Walker) (fs : FileSystem) (ambient : Ignore.Rules) (depth : Nat) (st : Stage) (name : String) :
    List WalkEntry → Prop
  | nothing : Step w fs ambient depth st name []
  | single (e : WalkEntry) (rel : e.rel = .ofNames (st.rel ++ [name])) : Step w fs ambient depth st name [e]
  | entered (e : WalkEntry) (loc : Location) (rel : e.rel = .ofNames (st.rel ++ [name])) (dir : e.isDir = true)
    (kept : e.excluded = false) :
    Step w fs ambient depth st name (e :: w.entriesBelow fs ambient depth (st.enter w fs name loc))

theorem exists_steps (w : Walker) (fs : FileSystem) (ambient : Ignore.Rules) (depth : Nat) (st : Stage) :
    ∃ report : String × Item → List WalkEntry,
      w.entriesBelow fs ambient (depth + 1) st = (fs.children st.loc).flatMap report ∧
        ∀ x, Step w fs ambient depth st x.1 (report x) := by
  refine ⟨_, by rw [entriesBelow], fun ⟨name, item⟩ => ?_⟩
  dsimp only
  cases w.find fs st.within (st.loc ++ [name]) item with
  | nothing => exact .nothing
  | file =>
    dsimp only
    split
    · exact .nothing
    · exact .single _ rfl
  | dir loc =>
    dsimp only
    split
    · exact .nothing
    · split
      · exact .single _ rfl
      · exact .entered _ loc rfl rfl rfl

theorem names_of_rel {names : List String} (hne : names ≠ []) (hnames : ∀ n ∈ names, Path.IsName n)
    (h : e.rel = .ofNames names) : e.names = names := by
  rw [WalkEntry.names, h, Path.components_ofNames hne hnames, List.map_map]
  exact List.map_id names

/-- What is reported for an item begins with the names of the item, and is apart when what lies below is. -/
theorem Step.coherent (h : Step w fs ambient depth st name entries) (hnames : ∀ n ∈ st.rel ++ [name], Path.IsName n)
    (hbelow : ∀ loc, Coherent (st.rel ++ [name]) (w.entriesBelow fs ambient depth (st.enter w fs name loc))) :
    (∀ e ∈ entries, ∃ rest, e.names = st.rel ++ name :: rest) ∧ entries.Pairwise Apart := by
  cases h with
  | nothing => exact ⟨by simp, .nil⟩
  | single e rel =>
    have he : e.names = st.rel ++ [name] := names_of_rel (by simp) hnames rel
    exact ⟨by simp [he], List.pairwise_singleton _ _⟩
  | entered e loc rel dir kept =>
    have he : e.names = st.rel ++ [name] := names_of_rel (by simp) hnames rel
    refine ⟨List.forall_mem_cons.2 ⟨⟨[], he⟩, fun b hb => ?_⟩, List.pairwise_cons.2 ⟨fun b hb => ?_, (hbelow loc).apart⟩⟩
    · obtain ⟨names, -, heq⟩ := (hbelow loc).below b hb
      exact ⟨names, by rw [heq, ← List.append_cons]⟩
    · obtain ⟨names, hne, heq⟩ := (hbelow loc).below b hb
      exact apart_of_below dir kept hne (by rw [heq, he])

theorem coherent_entriesBelow (tree : fs.IsTree) (st : Stage) (hst : ∀ n ∈ st.rel, Path.IsName n) :
    Coherent st.rel (w.entriesBelow fs ambient depth st) := by
  induction depth generalizing st with
  | zero => exact ⟨by simp [entriesBelow], .nil⟩
  | succ depth ih =>
    obtain ⟨report, heq, hstep⟩ := exists_steps w fs ambient depth st
    have hreport (x : String × Item) (hx : x ∈ fs.children st.loc) :
        (∀ e ∈ report x, ∃ rest, e.names = st.rel ++ x.1 :: rest) ∧ (report x).Pairwise Apart := by
      have hname : Path.IsName x.1 := tree.isName_of_lookup (tree.mem_children_iff.1 hx) x.1 (by simp)
      have hnames : ∀ n ∈ st.rel ++ [x.1], Path.IsName n := by
        simpa [or_imp, forall_and] using ⟨hst, hname⟩
      exact (hstep x).coherent hnames fun loc => ih (st.enter w fs x.1 loc) hnames
    rw [heq]
    refine ⟨fun e he => ?_, List.pairwise_flatMap.2 ⟨fun x hx => (hreport x hx).2, ?_⟩⟩
    · obtain ⟨x, hx, he⟩ := List.mem_flatMap.1 he
      obtain ⟨rest, hrest⟩ := (hreport x hx).1 e he
      exact ⟨x.1 :: rest, List.cons_ne_nil x.1 rest, hrest⟩
    · -- Items of a directory differ in their names, so the ways to what lies below two of them part.
      refine (tree.children_distinct st.loc).imp_of_mem fun {x y} hx hy hne a ha b hb => ?_
      obtain ⟨rest, ha⟩ := (hreport x hx).1 a ha
      obtain ⟨rest', hb⟩ := (hreport y hy).1 b hb
      exact apart_of_ways_part hne ha hb

/-- Below a directory no path is reported twice. -/
theorem entriesBelow_distinct (tree : fs.IsTree) (st : Stage) (hst : ∀ n ∈ st.rel, Path.IsName n) :
    (w.entriesBelow fs ambient depth st).Pairwise fun a b => a.rel.components ≠ b.rel.components :=
  (coherent_entriesBelow tree st hst).apart.imp fun hab heq => hab.ne (congrArg (List.map Path.Component.text) heq)

/-- The entries of a walk of a directory are coherent. -/
theorem coherent_walk (tree : fs.IsTree) {root : Path} (hroot : fs.isDir root = true) (w : Walker) (home : Path) :
    Coherent [] (w.walk fs home root) := by
  obtain ⟨loc, hplace⟩ := FileSystem.exists_place_of_isDir hroot
  unfold walk
  rw [hplace]
  dsimp only
  split
  · exact ⟨nofun, .nil⟩
  · refine Coherent.perm (coherent_entriesBelow tree (w.rootStage fs root loc) ?_) (List.mergeSort_perm ..)
    simp [rootStage]

end Walker

end PromptPack
