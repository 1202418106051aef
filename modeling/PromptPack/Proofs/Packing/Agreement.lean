import PromptPack.Proofs.Listing.Nodes
import PromptPack.Proofs.Packing.Accounts
import PromptPack.Proofs.Walk.Coherent
import PromptPack.Proofs.Walk.Pruned
/-!
# What is drawn and what is packed

The drawing and the files of a root are made from the entries of its walk, each in its own way. They agree
(`drawing_agrees_with_files`), since the walk reports no names twice and nothing below what is left out.
-/

namespace PromptPack

namespace Listing

variable {entries : List WalkEntry} {e : WalkEntry} {n : Node} {hide : Bool}

/-- The entries that are drawn; with `hide` those left out are not. -/
def shown (entries : List WalkEntry) (hide : Bool) : List WalkEntry :=
  if hide then entries.filter (!·.excluded) else entries

/-- The nodes of the drawing of some entries. -/
def drawn (entries : List WalkEntry) (hide : Bool) : List Node := nodes [] (ofEntries (shown entries hide))

theorem mem_shown_iff : e ∈ shown entries hide ↔ e ∈ entries ∧ (hide = true → e.excluded = false) := by
  unfold shown
  cases hide <;> simp

theorem shown_sublist (entries : List WalkEntry) (hide : Bool) : (shown entries hide).Sublist entries := by
  unfold shown
  split
  · exact List.filter_sublist
  · exact List.Sublist.refl entries

/-- A drawing has a line for its root and a line for each node, with a note on the marks where there are any. -/
theorem draw_eq (root : Path) (entries : List WalkEntry) (hide : Bool) :
    ∃ lines, List.Forall₂ (DrawnAs "" []) (drawn entries hide) lines ∧
      draw root entries hide = (if (shown entries hide).any (·.excluded) then markHeader ++ "\n\n" else "") ++
        dropNewlines (String.intercalate "\n" ((rootName root ++ "/") :: lines)) :=
  ⟨_, forall₂_drawChildren "" [] _, rfl⟩

/-- The names of a node are the first of the names of an entry that is shown. -/
theorem exists_of_mem_drawn (h : WalkEntry.Coherent [] entries) (hn : n ∈ drawn entries hide) :
    ∃ e ∈ shown entries hide, e.Explains n.names n.isDir n.excluded := by
  obtain ⟨hne, hflags⟩ := flags?_of_mem_nodes (ordered_ofEntries _) hn
  exact exists_of_flags? (h.sublist (shown_sublist entries hide)).names_ne_nil hne hflags

/-- Each entry that is shown is drawn, as a leaf unless it is a kept directory. -/
theorem exists_mem_drawn (h : WalkEntry.Coherent [] entries) (he : e ∈ shown entries hide) :
    ∃ leaf, ⟨e.names, e.isDir, e.excluded, leaf⟩ ∈ drawn entries hide ∧
      (¬ (e.isDir = true ∧ e.excluded = false) → leaf = true) := by
  have hshown := h.sublist (shown_sublist entries hide)
  have hflags := flags?_of_mem hshown.names_ne_nil hshown.names_distinct he
  obtain ⟨leaf, hmem, hleaf⟩ := exists_mem_nodes (ordered_ofEntries _) (hshown.names_ne_nil e he) hflags
  refine ⟨leaf, hmem, fun hnot => hleaf fun name => ?_⟩
  -- Flags right below the entry would be those of an entry below it.
  cases hbelow : (ofEntries (shown entries hide)).flags? (e.names ++ [name]) with
  | none => rfl
  | some flags =>
    obtain ⟨b, hb, hexplains⟩ := exists_of_flags? hshown.names_ne_nil (by simp) hbelow
    have hfront : e.names ++ [name] <+: b.names := hexplains.leads
    rcases hshown.eq_or_kept_dir he hb ((List.prefix_append _ _).trans hfront) with rfl | hdir
    · have := hfront.length_le
      simp only [List.length_append, List.length_singleton] at this
      omega
    · exact absurd hdir hnot

/-- A node that is a file or carries the mark is that of an entry. -/
theorem exists_of_mem_drawn_of_end (h : WalkEntry.Coherent [] entries) (hn : n ∈ drawn entries hide)
    (hend : n.isDir = false ∨ n.excluded = true) :
    ∃ e ∈ shown entries hide, e.names = n.names ∧ e.isDir = n.isDir ∧ e.excluded = n.excluded := by
  obtain ⟨e, he, ⟨hnames, hdir, hexcluded⟩ | ⟨-, -, hdir, hexcluded⟩⟩ := exists_of_mem_drawn h hn
  · exact ⟨e, he, hnames.symm, hdir.symm, hexcluded.symm⟩
  · rw [hdir, hexcluded] at hend
    simp at hend

/-- Nothing is drawn at or below an entry that is hidden. -/
theorem not_prefix_of_hidden (h : WalkEntry.Coherent [] entries) (he : e ∈ entries) (hexcluded : e.excluded = true)
    (hn : n ∈ drawn entries true) : ¬ e.names <+: n.names := by
  intro hfront
  obtain ⟨b, hb, hexplains⟩ := exists_of_mem_drawn h hn
  obtain ⟨hmem, hkept⟩ := mem_shown_iff.1 hb
  rcases h.eq_or_kept_dir he hmem (hfront.trans hexplains.leads) with rfl | ⟨-, hnot⟩
  · rw [hkept rfl] at hexcluded
    cases hexcluded
  · rw [hnot] at hexcluded
    cases hexcluded

end Listing

namespace PackedRoot

variable {w : Walker} {fs : FileSystem} {home root : Path} {format : FileFormat} {hide : Bool}
  {outliner : Option Outliner} {o : Omissions}

theorem mem_files_iff {f : FileEntry} : f ∈ (pack w fs home root format hide outliner o).1.files ↔
    ∃ e ∈ w.walk fs home root, e.isDir = false ∧ e.excluded = false ∧
      FileEntry.ofFile fs e.path e.rel (base fs root) format outliner = .ok (some f) := by
  unfold pack
  simp [List.mem_filterMap, fileOf?_eq_some_iff, and_assoc]

/-- The drawing of some entries, with its nodes, agrees with the files that are packed of them. -/
structure Agrees (fs : FileSystem) (root : Path) (format : FileFormat) (hide : Bool) (outliner : Option Outliner)
    (entries : List WalkEntry) (drawn : List Listing.Node) (packed : PackedRoot) : Prop where
  /-- Each node has its line, behind the line of the root. -/
  lines : ∃ lines, List.Forall₂ (Listing.DrawnAs "" []) drawn lines ∧
    packed.tree = (if (Listing.shown entries hide).any (·.excluded) then Listing.markHeader ++ "\n\n" else "") ++
      Listing.dropNewlines (String.intercalate "\n" ((Listing.rootName root ++ "/") :: lines))
  distinct : ∀ n ∈ drawn, ∀ n' ∈ drawn, n.names = n'.names → n = n'
  /-- What is packed is drawn as a leaf, neither as a directory nor with the mark. -/
  packed_drawn : ∀ f ∈ packed.files, ∃ e ∈ entries,
    FileEntry.ofFile fs e.path e.rel (base fs root) format outliner = .ok (some f) ∧ ⟨e.names, false, false, true⟩ ∈ drawn
  /-- A file without the mark is packed, or it is binary or cannot be read. -/
  drawn_packed : ∀ n ∈ drawn, n.isDir = false → n.excluded = false → ∃ e ∈ entries, e.names = n.names ∧
    ((∃ f ∈ packed.files, FileEntry.ofFile fs e.path e.rel (base fs root) format outliner = .ok (some f)) ∨
      (∃ c, fs.readContent e.path = .ok c ∧ c.isBinary = true) ∨ ∃ error, fs.readContent e.path = .error error)
  marked : hide = false → ∀ e ∈ entries, e.excluded = true → ∃ leaf, ⟨e.names, e.isDir, true, leaf⟩ ∈ drawn
  /-- Of what is left out nothing is drawn, not even as a directory on the way to something else. -/
  hidden : hide = true → ∀ e ∈ entries, e.excluded = true → ∀ n ∈ drawn, ¬ e.names <+: n.names

/-- The drawing of a directory agrees with the files that are packed from it, however it is walked. -/
theorem drawing_agrees_with_files (tree : fs.IsTree) (hroot : fs.isDir root = true) (w : Walker) (home : Path)
    (format : FileFormat) (hide : Bool) (outliner : Option Outliner) (o : Omissions) :
    let entries := w.walk fs home root
    Agrees fs root format hide outliner entries (Listing.drawn entries hide)
      (pack w fs home root format hide outliner o).1 := by
  intro entries
  have hcoherent : WalkEntry.Coherent [] entries := Walker.coherent_walk tree hroot w home
  refine ⟨?lines, ?distinct, ?packed_drawn, ?drawn_packed, ?marked, ?hidden⟩
  case lines =>
    have htree : (pack w fs home root format hide outliner o).1.tree = Listing.draw root entries hide := if_pos hroot
    rw [htree]
    exact Listing.draw_eq root entries hide
  case distinct => exact fun n hn n' hn' => Listing.eq_of_mem_nodes (Listing.ordered_ofEntries _) hn hn'
  case packed_drawn =>
    intro f hf
    obtain ⟨e, he, hdir, hkept, hfile⟩ := mem_files_iff.1 hf
    obtain ⟨leaf, hmem, hleaf⟩ := Listing.exists_mem_drawn hcoherent (Listing.mem_shown_iff.2 ⟨he, fun _ => hkept⟩)
    obtain rfl := hleaf (by simp [hdir])
    rw [hdir, hkept] at hmem
    exact ⟨e, he, hfile, hmem⟩
  case drawn_packed =>
    intro n hn hdir hkept
    obtain ⟨e, he, hnames, hdir', hkept'⟩ := Listing.exists_of_mem_drawn_of_end hcoherent hn (.inl hdir)
    rw [hdir] at hdir'
    rw [hkept] at hkept'
    have he := (Listing.mem_shown_iff.1 he).1
    refine ⟨e, he, hnames, ?_⟩
    cases htext : fs.hasText e.path with
    | true =>
      obtain ⟨f, hf⟩ := FileEntry.exists_ofFile_iff.2 htext
      exact .inl ⟨f, mem_files_iff.2 ⟨e, he, hdir', hkept', hf⟩, hf⟩
    | false =>
      have hpassed : e.isPassedOver fs = true := by simp [WalkEntry.isPassedOver, hkept', htext]
      obtain ⟨-, hdir | hreason⟩ := WalkEntry.isPassedOver_iff.1 hpassed
      · rw [hdir'] at hdir
        cases hdir
      · exact .inr hreason
  case marked =>
    rintro rfl e he hexcluded
    have hshown : e ∈ Listing.shown entries false := Listing.mem_shown_iff.2 ⟨he, nofun⟩
    obtain ⟨leaf, hmem, -⟩ := Listing.exists_mem_drawn hcoherent hshown
    rw [hexcluded] at hmem
    exact ⟨leaf, hmem⟩
  case hidden =>
    rintro rfl e he hexcluded n hn
    exact Listing.not_prefix_of_hidden hcoherent he hexcluded hn

theorem drawing_of_two_dirs_agrees :
    let entries := Walker.withoutB.walk Walker.twoDirs ⟨"/h"⟩ ⟨"."⟩
    Walker.twoDirs.IsTree ∧ Walker.twoDirs.isDir ⟨"."⟩ = true ∧
      Agrees Walker.twoDirs ⟨"."⟩ {} true none entries (Listing.drawn entries true)
        (pack Walker.withoutB Walker.twoDirs ⟨"/h"⟩ ⟨"."⟩ {} true none {}).1 := by
  have hroot : Walker.twoDirs.isDir ⟨"."⟩ = true := by cbv
  exact ⟨Walker.twoDirs_isTree, hroot, drawing_agrees_with_files Walker.twoDirs_isTree hroot Walker.withoutB ⟨"/h"⟩ {} true none {}⟩

end PackedRoot

end PromptPack
