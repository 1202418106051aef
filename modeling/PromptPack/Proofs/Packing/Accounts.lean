import Mathlib.Data.List.Forall2
import PromptPack.Proofs.Omissions.Record
/-!
# What becomes of the walked entries

Each entry of a walk is packed, recorded as left out, or passed over, and only one of these. A root that is
packed accounts for the entries of its walk (`accounts_pack`), and roots packed one behind the other with one
record account for all of their entries (`pack_accounts_for_every_entry`).
-/

namespace PromptPack

/-- Whether a path leads to a file that can be read and is not binary. -/
def FileSystem.hasText (fs : FileSystem) (p : Path) : Bool :=
  match fs.readContent p with
  | .ok c => !c.isBinary
  | .error _ => false

namespace WalkEntry

/-- Kept files with text are packed. -/
def isPacked (fs : FileSystem) (e : WalkEntry) : Bool := !e.excluded && (!e.isDir && fs.hasText e.path)

/-- Kept directories are passed over, and kept files that are binary or cannot be read. -/
def isPassedOver (fs : FileSystem) (e : WalkEntry) : Bool := !e.excluded && (e.isDir || !fs.hasText e.path)

theorem isPassedOver_iff {fs : FileSystem} {e : WalkEntry} : e.isPassedOver fs = true ↔
    e.excluded = false ∧ (e.isDir = true ∨ (∃ c, fs.readContent e.path = .ok c ∧ c.isBinary = true) ∨
      ∃ error, fs.readContent e.path = .error error) := by
  unfold isPassedOver FileSystem.hasText
  cases fs.readContent e.path <;> simp

theorem isPacked_and_kept (fs : FileSystem) (e : WalkEntry) : (e.isPacked fs && !e.excluded) = e.isPacked fs := by
  unfold isPacked
  cases e.excluded <;> simp

theorem isPassedOver_eq (fs : FileSystem) (e : WalkEntry) :
    e.isPassedOver fs = (!e.isPacked fs && !e.excluded) := by
  unfold isPassedOver isPacked
  cases e.excluded <;> simp

/-- An entry has one fate and no other. -/
theorem filter_fates_perm {α : Type} (entry : α → WalkEntry) (fs : FileSystem) (xs : List α) :
    xs.Perm (xs.filter (fun x => (entry x).excluded) ++
      (xs.filter (fun x => (entry x).isPacked fs) ++ xs.filter fun x => (entry x).isPassedOver fs)) := by
  have hkept := List.filter_append_perm (fun x => (entry x).isPacked fs) (xs.filter fun x => !(entry x).excluded)
  simp only [List.filter_filter, isPacked_and_kept, ← isPassedOver_eq] at hkept
  exact (List.filter_append_perm _ xs).symm.trans (hkept.symm.append_left _)

end WalkEntry

namespace FileEntry

variable {fs : FileSystem} {path rel base : Path} {format : FileFormat} {outliner : Option Outliner}

/-- A file has an entry exactly when it has text. -/
theorem exists_ofFile_iff :
    (∃ f, ofFile fs path rel base format outliner = .ok (some f)) ↔ fs.hasText path = true := by
  unfold ofFile FileSystem.hasText
  cases fs.readContent path with
  | error e => simp [Except.map]
  | ok c => cases hbinary : c.isBinary <;> simp [Except.map, ofContent, hbinary]

end FileEntry

namespace PackedRoot

section

variable {fs : FileSystem} {base : Path} {format : FileFormat} {outliner : Option Outliner} {e : WalkEntry}

theorem fileOf?_eq_some_iff {f : FileEntry} : fileOf? fs base format outliner e = some f ↔
    FileEntry.ofFile fs e.path e.rel base format outliner = .ok (some f) := by
  unfold fileOf?
  cases FileEntry.ofFile fs e.path e.rel base format outliner <;> simp [Except.toOption]

theorem isSome_fileOf? : (fileOf? fs base format outliner e).isSome = fs.hasText e.path := by
  rw [Bool.eq_iff_iff, Option.isSome_iff_exists, ← FileEntry.exists_ofFile_iff]
  exact exists_congr fun f => fileOf?_eq_some_iff

end

/-- The results of a partial function are those of the members that have one, in their order. -/
theorem forall₂_filterMap {α β : Type} (f : α → Option β) (xs : List α) :
    List.Forall₂ (fun x y => f x = some y) (xs.filter fun x => (f x).isSome) (xs.filterMap f) := by
  induction xs with
  | nil => exact .nil
  | cons x xs ih =>
    cases hx : f x with
    | none =>
      rw [List.filter_cons_of_neg (by simp [hx]), List.filterMap_cons_none hx]
      exact ih
    | some y =>
      rw [List.filter_cons_of_pos (by simp [hx]), List.filterMap_cons_some hx]
      exact .cons hx ih

variable (w : Walker) (fs : FileSystem) (home : Path) (format : FileFormat) (hide : Bool) (outliner : Option Outliner)

/-- The entries of the walks of some roots, each with its root. -/
def walkAll (roots : List Path) : List (Path × WalkEntry) :=
  roots.flatMap fun root => (w.walk fs home root).map (root, ·)

/-- Packs roots one after the other with one record. -/
def packAll : List Path → Omissions → List PackedRoot × Omissions
  | [], o => ([], o)
  | root :: rest, o =>
    let (packed, o) := pack w fs home root format hide outliner o
    let (more, o) := packAll rest o
    (packed :: more, o)

/-- The files are those of the packed entries, in their order, and the record has grown by the entries that
were left out. -/
structure Accounts (walked : List (Path × WalkEntry)) (files : List FileEntry) (o o' : Omissions) : Prop where
  files : List.Forall₂
    (fun x f => FileEntry.ofFile fs x.2.path x.2.rel (base fs x.1) format outliner = .ok (some f))
    (walked.filter fun x => x.2.isPacked fs) files
  record : o' = ((walked.filter fun x => x.2.excluded).map fun x => Omission.ofEntry x.2).foldl Omissions.add o

variable {fs format outliner}

theorem Accounts.append {walked walked' : List (Path × WalkEntry)} {files files' : List FileEntry}
    {o o' o'' : Omissions} (h : Accounts fs format outliner walked files o o')
    (h' : Accounts fs format outliner walked' files' o' o'') :
    Accounts fs format outliner (walked ++ walked') (files ++ files') o o'' where
  files := by
    rw [List.filter_append]
    exact List.rel_append h.files h'.files
  record := by rw [List.filter_append, List.map_append, List.foldl_append, ← h.record, h'.record]

theorem Accounts.totalFiles {walked : List (Path × WalkEntry)} {files : List FileEntry} {o o' : Omissions}
    (h : Accounts fs format outliner walked files o o') :
    o'.totalFiles = o.totalFiles + walked.countP fun x => x.2.excluded && !x.2.isDir := by
  have hfile (e : WalkEntry) : (Omission.ofEntry e).isFile = !e.isDir := by
    unfold Omission.ofEntry
    split <;> simp [Omission.isFile, *]
  rw [h.record, Omissions.totalFiles_foldl, List.countP_map, List.countP_filter]
  simp [hfile, Bool.and_comm]

theorem Accounts.mem_directories {walked : List (Path × WalkEntry)} {files : List FileEntry} {o o' : Omissions}
    (h : Accounts fs format outliner walked files o o') {x : Path × WalkEntry} (hx : x ∈ walked)
    (hexcluded : x.2.excluded = true) (hdir : x.2.isDir = true) : x.2.path.text ∈ o'.directories.map (·.1) := by
  rw [h.record, Omissions.mem_directories_foldl]
  refine .inr ⟨.ofEntry x.2, List.mem_map_of_mem (List.mem_filter.2 ⟨hx, hexcluded⟩), ?_⟩
  rw [Omission.ofEntry, if_pos hdir, Omission.directory]

variable (fs format outliner)

/-- A packed root accounts for the entries of its walk. -/
theorem accounts_pack (root : Path) (o : Omissions) :
    Accounts fs format outliner ((w.walk fs home root).map (root, ·))
      (pack w fs home root format hide outliner o).1.files o (pack w fs home root format hide outliner o).2 where
  files := by
    have hfiles := forall₂_filterMap (fileOf? fs (base fs root) format outliner)
      ((w.walk fs home root).filter fun e => !e.isDir && !e.excluded)
    simp only [isSome_fileOf?, List.filter_filter] at hfiles
    have hpacked (e : WalkEntry) : (fs.hasText e.path && (!e.isDir && !e.excluded)) = e.isPacked fs := by
      rw [WalkEntry.isPacked, Bool.and_comm, Bool.and_assoc, Bool.and_comm, Bool.and_assoc, Bool.and_comm (fs.hasText _)]
    simp only [hpacked] at hfiles
    rw [List.filter_map, List.forall₂_map_left_iff]
    exact hfiles.imp fun _ _ => fileOf?_eq_some_iff.1
  record := by
    rw [List.filter_map, List.map_map]
    exact Omissions.record_eq o _

/-- Roots packed with one record account for every walked entry once: the packed files are those of the kept
files with text, in the order of the roots and of their walks; the record grows by the files and directories
left out; and what is neither packed nor recorded is a kept directory, or a kept file that is binary or cannot
be read. -/
theorem pack_accounts_for_every_entry (roots : List Path) (o : Omissions) :
    let walked := walkAll w fs home roots
    let result := packAll w fs home format hide outliner roots o
    List.Forall₂ (fun x f => FileEntry.ofFile fs x.2.path x.2.rel (base fs x.1) format outliner = .ok (some f))
        (walked.filter fun x => x.2.isPacked fs) (result.1.flatMap (·.files)) ∧
      result.2 = ((walked.filter fun x => x.2.excluded).map fun x => Omission.ofEntry x.2).foldl Omissions.add o ∧
      (result.2.totalFiles = o.totalFiles + walked.countP fun x => x.2.excluded && !x.2.isDir) ∧
      (∀ x ∈ walked, x.2.excluded = true → x.2.isDir = true → x.2.path.text ∈ result.2.directories.map (·.1)) ∧
      walked.Perm (walked.filter (fun x => x.2.excluded) ++
        (walked.filter (fun x => x.2.isPacked fs) ++ walked.filter fun x => x.2.isPassedOver fs)) ∧
      ∀ x ∈ walked, x.2.isPassedOver fs = true ↔
        x.2.excluded = false ∧ (x.2.isDir = true ∨ (∃ c, fs.readContent x.2.path = .ok c ∧ c.isBinary = true) ∨
          ∃ error, fs.readContent x.2.path = .error error) := by
  intro walked result
  have haccounts : Accounts fs format outliner walked (result.1.flatMap (·.files)) o result.2 := by
    -- Each root goes on with the record of the roots in front of it.
    induction roots generalizing o with
    | nil => exact ⟨.nil, rfl⟩
    | cons root rest ih =>
      have hroot := accounts_pack w fs home format hide outliner root o
      exact hroot.append (ih _)
  exact ⟨haccounts.files, haccounts.record, haccounts.totalFiles, fun x => haccounts.mem_directories,
    WalkEntry.filter_fates_perm Prod.snd fs walked, fun x _ => WalkEntry.isPassedOver_iff⟩

end PackedRoot

end PromptPack
