import PromptPack.Entry
import PromptPack.Listing
import PromptPack.Omissions
/-!
# Packing one root

A root contributes the drawing of its tree and the entries of its kept files; what it leaves out
is added to the record.
-/

namespace PromptPack

/-- What one root contributes to a prompt. -/
structure PackedRoot where
  tree : String
  files : List FileEntry
  deriving DecidableEq, Repr

namespace PackedRoot

/-- Records the entries that are left out. -/
def record (o : Omissions) (entries : List WalkEntry) : Omissions :=
  (entries.filter (·.excluded)).foldl
    (fun o e => if e.isDir then o.recordDir e.path else o.recordFile e.path) o

/-- The entry of a walked file; unreadable and binary files have none. -/
def fileOf? (fs : FileSystem) (base : Path) (format : FileFormat) (outliner : Option Outliner)
    (e : WalkEntry) : Option FileEntry :=
  ((FileEntry.ofFile fs e.path e.rel base format outliner).toOption).join

/-- The directory that relative paths start from. -/
def base (fs : FileSystem) (root : Path) : Path :=
  if fs.isDir root then root else root.parent?.getD root

/-- Walks a root and packs its files in the order of the walk. -/
def pack (w : Walker) (fs : FileSystem) (home root : Path) (format : FileFormat) (hide : Bool)
    (outliner : Option Outliner) (o : Omissions) : PackedRoot × Omissions :=
  let entries := w.walk fs home root
  let tree := if fs.isDir root then Listing.draw root entries hide else Listing.drawFile root
  let kept := entries.filter fun e => !e.isDir && !e.excluded
  (⟨tree, kept.filterMap (fileOf? fs (base fs root) format outliner)⟩, record o entries)

end PackedRoot

end PromptPack
