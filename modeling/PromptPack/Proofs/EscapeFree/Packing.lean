import PromptPack.Packing
import PromptPack.Proofs.ByName
import PromptPack.Proofs.EscapeFree.Files
import PromptPack.Proofs.Packing.Accounts
/-!
# Packed files without escapes

A walk of files whose names are free of escapes finds paths that are, and so are the drawing of what it finds, the
record of what is left out, and the entries that are made of the files' contents.
-/

namespace PromptPack

/-! ## Walks -/

namespace WalkEntry

/-- Both paths of the entry are free of escapes. -/
structure Plain (e : WalkEntry) : Prop where
  path : EscapeFree e.path.text
  rel : EscapeFree e.rel.text

theorem Plain.names {e : WalkEntry} (h : e.Plain) : ∀ name ∈ e.names, EscapeFree name := by
  intro name hname
  obtain ⟨c, hc, rfl⟩ := List.mem_map.1 hname
  exact Path.escapeFree_component h.rel hc

end WalkEntry

namespace Walker

variable {w : Walker} {fs : FileSystem} {ambient : Ignore.Rules} {depth : Nat} {st : Stage} {name : String}
  {e : WalkEntry} {root : Path}

/-- What the paths below a stage are put together from is free of escapes. -/
structure Stage.Plain (st : Stage) : Prop where
  path : EscapeFree st.path.text
  rel : ∀ name ∈ st.rel, EscapeFree name

theorem Stage.Plain.enter (h : st.Plain) (hname : EscapeFree name) (w : Walker) (fs : FileSystem)
    (loc : Location) : (st.enter w fs name loc).Plain where
  path := Path.escapeFree_join h.path hname
  rel := List.forall_mem_append.2 ⟨h.rel, by simpa using hname⟩

theorem plain_of_mem_entriesBelow (hfs : fs.Plain) (hst : st.Plain)
    (he : e ∈ w.entriesBelow fs ambient depth st) : e.Plain := by
  induction depth generalizing st with
  | zero => simp [entriesBelow] at he
  | succ depth ih =>
    rw [entriesBelow, List.mem_flatMap] at he
    obtain ⟨⟨name, item⟩, hchild, he⟩ := he
    have hname : EscapeFree name := hfs.of_mem_children hchild
    have hbelow (loc : Location) := hst.enter hname w fs loc
    -- The two paths that an entry for the item itself has.
    have hpath := (hbelow st.loc).path
    have hrel : EscapeFree (String.intercalate "/" (st.rel ++ [name])) :=
      escapeFree_intercalate (escapeFree_literal rfl) (hbelow st.loc).rel
    dsimp only at he
    split at he
    · cases he
    · split at he
      · cases he
      · rw [List.mem_singleton] at he
        subst he
        exact ⟨hpath, hrel⟩
    · split at he
      · cases he
      · split at he
        · rw [List.mem_singleton] at he
          subst he
          exact ⟨hpath, hrel⟩
        · rcases List.mem_cons.1 he with rfl | he
          · exact ⟨hpath, hrel⟩
          · exact ih (hbelow _) he

theorem plain_of_mem_walk {home : Path} (hfs : fs.Plain) (hroot : EscapeFree root.text)
    (he : e ∈ w.walk fs home root) : e.Plain := by
  unfold walk at he
  split at he
  · split at he
    · cases he
    · rw [List.mem_mergeSort] at he
      exact plain_of_mem_entriesBelow hfs ⟨hroot, by simp [rootStage]⟩ he
  · unfold singleFile at he
    split at he
    · cases he
    · rw [Option.mem_toList, Option.map_eq_some_iff] at he
      obtain ⟨name, hname, rfl⟩ := he
      exact ⟨hroot, Path.escapeFree_fileName hroot hname⟩

end Walker

/-! ## Drawings -/

namespace Listing

variable {t : Listing} {names : List String} {entries : List WalkEntry} {root : Path}

/-- All names below the node are free of escapes. -/
inductive Plain : Listing → Prop
  | node {d x : Bool} {cs : List (String × Listing)} (names : ∀ c ∈ cs, EscapeFree c.1)
    (below : ∀ c ∈ cs, Plain c.2) : Plain (node d x cs)

theorem Plain.change {d x : Bool} {cs : ByName Listing} {fresh : Listing} {name : String} {f : Listing → Listing}
    (h : (Listing.node d x cs).Plain) (hname : EscapeFree name) (hfresh : fresh.Plain)
    (hf : ∀ c : Listing, c.Plain → (f c).Plain) : (Listing.node d x (ByName.change fresh name f cs)).Plain := by
  cases h with
  | node hnames hbelow =>
    have hnew (x : Listing) (hx : x = fresh ∨ (name, x) ∈ cs) : (f x).Plain := by
      refine hf x ?_
      rcases hx with rfl | hx
      · exact hfresh
      · exact hbelow _ hx
    refine .node (fun y hy => ?_) (fun y hy => ?_)
    · rcases ByName.mem_change hy with hy | ⟨x, -, rfl⟩
      · exact hnames y hy
      · exact hname
    · rcases ByName.mem_change hy with hy | ⟨x, hx, rfl⟩
      · exact hbelow y hy
      · exact hnew x hx

theorem plain_childless (d x : Bool) : (Listing.node d x []).Plain := .node (by simp) (by simp)

theorem Plain.insert (h : t.Plain) (d x : Bool) (hnames : ∀ name ∈ names, EscapeFree name) :
    (insert d x names t).Plain := by
  induction names generalizing t with
  | nil => exact h
  | cons name rest ih =>
    obtain ⟨d', x', cs⟩ := t
    rw [List.forall_mem_cons] at hnames
    cases rest with
    | nil =>
      refine h.change hnames.1 (plain_childless _ _) fun c hc => ?_
      cases hc with
      | node hnames hbelow => exact .node hnames hbelow
    | cons next rest => exact h.change hnames.1 (plain_childless _ _) fun c hc => ih hc hnames.2

theorem plain_ofEntries (h : ∀ e ∈ entries, e.Plain) : (ofEntries entries).Plain := by
  have hfold (t : Listing) (ht : t.Plain) : (entries.foldl insertEntry t).Plain := by
    induction entries generalizing t with
    | nil => exact ht
    | cons e entries ih =>
      rw [List.forall_mem_cons] at h
      exact ih h.2 _ (ht.insert e.isDir e.excluded h.1.names)
  exact hfold _ (plain_childless _ _)

theorem escapeFree_label {name : String} (h : EscapeFree name) (d x : Bool) :
    EscapeFree (label name d x) := by
  have hmark : EscapeFree mark := escapeFree_literal rfl
  have hspace := escapeFree_space
  have hslash := escapeFree_slash
  unfold label
  refine (h.append ?_).append ?_ <;> split <;> simp_all

theorem escapeFree_branch (isLast : Bool) : EscapeFree (branch isLast) := by
  cases isLast <;> exact escapeFree_literal rfl

theorem escapeFree_trunk (isLast : Bool) : EscapeFree (trunk isLast) := by
  cases isLast <;> exact escapeFree_literal rfl

mutual

theorem escapeFree_of_mem_drawChildren {indent line : String} (hindent : EscapeFree indent) (t : Listing)
    (ht : t.Plain) (hline : line ∈ drawChildren indent t) : EscapeFree line := by
  match t, ht with
  | node d x cs, .node hnames hbelow =>
    rw [drawChildren, List.mem_append] at hline
    rcases hline with hline | hline
    · exact escapeFree_of_mem_drawSome hindent cs hnames hbelow hline
    · exact escapeFree_of_mem_drawSome hindent cs hnames hbelow hline

theorem escapeFree_of_mem_drawSome {indent line : String} {dirs more : Bool} (hindent : EscapeFree indent)
    (cs : List (String × Listing)) (hnames : ∀ c ∈ cs, EscapeFree c.1) (hbelow : ∀ c ∈ cs, c.2.Plain)
    (hline : line ∈ drawSome indent dirs more cs) : EscapeFree line := by
  match cs with
  | [] => simp [drawSome] at hline
  | (name, child) :: rest =>
    rw [List.forall_mem_cons] at hnames hbelow
    rw [drawSome] at hline
    split at hline
    · rw [List.mem_cons, List.mem_append] at hline
      rcases hline with rfl | hline | hline
      · exact (hindent.append (escapeFree_branch _)).append (escapeFree_label hnames.1 _ _)
      · exact escapeFree_of_mem_drawChildren (hindent.append (escapeFree_trunk _)) child hbelow.1 hline
      · exact escapeFree_of_mem_drawSome hindent rest hnames.2 hbelow.2 hline
    · exact escapeFree_of_mem_drawSome hindent rest hnames.2 hbelow.2 hline

end

theorem escapeFree_dropNewlines {s : String} (h : EscapeFree s) : EscapeFree (dropNewlines s) := by
  refine escapeFree_ofList.2 fun hmark => h ?_
  rw [List.mem_reverse] at hmark
  simpa using (List.dropWhile_sublist _).subset hmark

theorem escapeFree_rootName (hroot : EscapeFree root.text) : EscapeFree (rootName root) := by
  unfold rootName
  cases hname : root.fileName? with
  | none => exact hroot
  | some name => exact Path.escapeFree_fileName hroot hname

theorem escapeFree_draw (hroot : EscapeFree root.text) (h : ∀ e ∈ entries, e.Plain) (hide : Bool) :
    EscapeFree (draw root entries hide) := by
  have hhead (marked : Bool) : EscapeFree (if marked then markHeader ++ "\n\n" else "") := by
    cases marked <;> decide +kernel
  unfold draw
  dsimp only
  refine (hhead _).append (escapeFree_dropNewlines (escapeFree_intercalate escapeFree_newline ?_))
  refine List.forall_mem_cons.2 ⟨?_, ?_⟩
  · exact (escapeFree_rootName hroot).append escapeFree_slash
  · intro line hline
    refine escapeFree_of_mem_drawChildren escapeFree_empty _ (plain_ofEntries fun e he => h e ?_) hline
    split at he
    · exact (List.mem_filter.1 he).1
    · exact he

theorem escapeFree_drawFile (hroot : EscapeFree root.text) : EscapeFree (drawFile root) := by
  have hfile : EscapeFree "File: " := escapeFree_literal rfl
  exact hfile.append hroot

end Listing

/-! ## What is left out -/

namespace Omissions

variable {o : Omissions} {p : Path}

/-- What is said about the record is free of escapes. -/
structure Plain (o : Omissions) : Prop where
  extensions : ∀ x ∈ o.extensions, EscapeFree x.1
  files : ∀ f ∈ o.files, EscapeFree f

theorem Plain.recordFile (h : o.Plain) (hp : EscapeFree p.text) : (o.recordFile p).Plain where
  extensions := by
    intro x hx
    unfold Omissions.recordFile at hx
    dsimp only at hx
    split at hx
    · rename_i ext hext
      rcases ByName.mem_change hx with hx | ⟨n, -, rfl⟩
      · exact h.extensions x hx
      · have hdot : EscapeFree "." := escapeFree_literal rfl
        exact hdot.append (Path.escapeFree_extension hp hext)
    · exact h.extensions x hx
  files := by
    intro f hf
    unfold Omissions.recordFile at hf
    dsimp only at hf
    split at hf
    · rcases List.mem_append.1 hf with hf | hf
      · exact h.files f hf
      · obtain rfl := List.mem_singleton.1 hf
        exact hp
    · exact h.files f hf

theorem Plain.recordDir (h : o.Plain) (p : Path) : (o.recordDir p).Plain := ⟨h.extensions, h.files⟩

theorem Plain.record {entries : List WalkEntry} (h : o.Plain) (hentries : ∀ e ∈ entries, e.Plain) :
    (PackedRoot.record o entries).Plain := by
  unfold PackedRoot.record
  have hleft : ∀ e ∈ entries.filter (·.excluded), e.Plain := fun e he => hentries e (List.mem_filter.1 he).1
  generalize entries.filter (·.excluded) = left at hleft
  induction left generalizing o with
  | nil => exact h
  | cons e left ih =>
    rw [List.forall_mem_cons] at hleft
    refine ih ?_ hleft.2
    dsimp only
    split
    · exact h.recordDir e.path
    · exact h.recordFile hleft.1.path

end Omissions

/-! ## Files of a prompt -/

/-- Outlines of texts without escapes are free of escapes. -/
def Outliner.Plain (f : Outliner) : Prop :=
  ∀ p text outline, EscapeFree text → f p text = .ok outline → EscapeFree outline

namespace FileEntry

variable {fs : FileSystem} {path rel base : Path} {format : FileFormat} {outliner : Option Outliner} {f : FileEntry}

/-- All texts of the entry are free of escapes. -/
structure Plain (f : FileEntry) : Prop where
  path : EscapeFree f.path
  extension : EscapeFree f.extension
  code : EscapeFree f.code

theorem escapeFree_plainCode {extension text : String} (htext : EscapeFree text) (hext : EscapeFree extension) :
    EscapeFree (plainCode format extension text) := by
  have hnumbered : EscapeFree (if format.lineNumbers then Text.numberLines text else text) := by
    split
    · exact escapeFree_numberLines htext
    · exact htext
  unfold plainCode
  dsimp only
  split
  · exact hnumbered
  · exact escapeFree_fence hnumbered hext

theorem escapeFree_shownPath {relative : Bool} (hpath : EscapeFree path.text) (hrel : EscapeFree rel.text)
    (hbase : EscapeFree base.text) : EscapeFree (shownPath path rel base relative) := by
  unfold shownPath
  split
  · exact hpath
  · split
    · rename_i name hname
      exact Path.escapeFree_join (Path.escapeFree_fileName hbase hname) hrel
    · exact hrel

theorem plain_of_ofFile (hfs : fs.Plain) (hpath : EscapeFree path.text) (hrel : EscapeFree rel.text)
    (hbase : EscapeFree base.text) (houtliner : ∀ o ∈ outliner, o.Plain)
    (hf : ofFile fs path rel base format outliner = .ok (some f)) : f.Plain := by
  unfold ofFile at hf
  cases hread : fs.readContent path with
  | error e =>
    rw [hread] at hf
    cases hf
  | ok c =>
    have htext := hfs.of_readContent hread
    have hext := Path.escapeFree_dottedExtension hpath
    rw [hread] at hf
    replace hf : ofContent path rel base format outliner c = some f := Except.ok.inj hf
    unfold ofContent at hf
    split at hf
    · cases hf
    · obtain rfl := Option.some.inj hf
      refine ⟨escapeFree_shownPath hpath hrel hbase, hext, ?_⟩
      dsimp only
      -- An outline that fails leaves the code as it was read.
      cases houtline : outliner.bind fun f => (f path c.text).toOption with
      | none => exact escapeFree_plainCode htext hext
      | some outline =>
        obtain ⟨f, hmem, houtline⟩ := Option.bind_eq_some_iff.1 houtline
        cases hresult : f path c.text with
        | error e =>
          rw [hresult] at houtline
          cases houtline
        | ok text =>
          rw [hresult] at houtline
          obtain rfl : text = outline := Option.some.inj houtline
          exact houtliner f hmem path c.text text htext hresult

end FileEntry

namespace PackedRoot

variable {w : Walker} {fs : FileSystem} {home root : Path} {format : FileFormat} {hide : Bool}
  {outliner : Option Outliner} {o : Omissions}

/-- What one root contributes is free of escapes. -/
structure Plain (r : PackedRoot) : Prop where
  tree : EscapeFree r.tree
  files : ∀ f ∈ r.files, f.Plain

theorem escapeFree_base (hroot : EscapeFree root.text) : EscapeFree (base fs root).text := by
  unfold base
  split
  · exact hroot
  · cases hparent : root.parent? with
    | none => exact hroot
    | some parent => exact Path.escapeFree_parent hroot hparent

/-- A root whose files and names are free of escapes contributes texts that are. -/
theorem plain_pack (hfs : fs.Plain) (hroot : EscapeFree root.text) (houtliner : ∀ o ∈ outliner, o.Plain)
    (ho : o.Plain) : (pack w fs home root format hide outliner o).1.Plain ∧
      (pack w fs home root format hide outliner o).2.Plain := by
  have hentries (e : WalkEntry) (he : e ∈ w.walk fs home root) : e.Plain := Walker.plain_of_mem_walk hfs hroot he
  refine ⟨⟨?_, fun f hf => ?_⟩, ho.record hentries⟩
  · unfold pack
    dsimp only
    split
    · exact Listing.escapeFree_draw hroot hentries hide
    · exact Listing.escapeFree_drawFile hroot
  · obtain ⟨e, he, hf⟩ := List.mem_filterMap.1 hf
    have he := hentries e (List.mem_filter.1 he).1
    exact FileEntry.plain_of_ofFile hfs he.path he.rel (escapeFree_base hroot) houtliner (fileOf?_eq_some_iff.1 hf)

end PackedRoot

end PromptPack
