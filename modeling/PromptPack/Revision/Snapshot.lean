import PromptPack.FileSystem
import PromptPack.Revision.ObjectId
/-!
# Snapshots

A snapshot holds the tracked files by their paths below the work tree, in the order of paths. Its
objects are a blob for each file and a tree for each directory.
-/

namespace PromptPack

/-- The id of an object of some kind. -/
def ObjectId.ofObject (kind : String) (content : List UInt8) : ObjectId :=
  ofBytes ((kind ++ " " ++ toString content.length).toUTF8.toList ++ 0 :: content)

def ObjectId.ofBlob (bytes : ByteArray) : ObjectId := ofObject "blob" bytes.toList

/-- A tracked file or link. -/
structure Tracked where
  path : List String
  bytes : ByteArray
  isLink : Bool := false

def Tracked.id (t : Tracked) : ObjectId := .ofBlob t.bytes

def Tracked.mode (t : Tracked) : String := if t.isLink then "120000" else "100644"

def Tracked.pathText (t : Tracked) : String := String.intercalate "/" t.path

/-- Whether two tracked files are the same but for their paths. -/
def Tracked.same (s t : Tracked) : Bool := s.bytes == t.bytes && s.isLink == t.isLink

/-- Whether the same stands at two places, or nothing at both. -/
def Tracked.alike : Option Tracked → Option Tracked → Bool
  | some s, some t => s.same t
  | none, none => true
  | _, _ => false

abbrev Snapshot := List Tracked

namespace Snapshot

def find? (s : Snapshot) (path : List String) : Option Tracked :=
  List.find? (fun t => t.path == path) s

/-- Whether two snapshots hold the same files. -/
def agrees (s t : Snapshot) : Bool :=
  s.length == t.length && List.all s fun a => (find? t a.path).any a.same

def le (a b : Tracked) : Bool := a.pathText ≤ b.pathText

def sorted (s : Snapshot) : Snapshot := s.mergeSort le

/-- An item of a tree object; the names of directories are ordered as if they ended in a slash. -/
structure TreeItem where
  name : String
  mode : String
  id : ObjectId

def TreeItem.key (t : TreeItem) : String := if t.mode == "40000" then t.name ++ "/" else t.name

def TreeItem.bytes (t : TreeItem) : List UInt8 :=
  (t.mode ++ " " ++ t.name).toUTF8.toList ++ 0 :: t.id.bytes

/-- The id of the tree of a snapshot. The depth bounds how far down directories are nested. -/
def treeId : (depth : Nat) → Snapshot → ObjectId
  | 0, _ => .ofObject "tree" []
  | depth + 1, s =>
    let files := s.filterMap fun t =>
      match t.path with
      | [name] => some (⟨name, t.mode, t.id⟩ : TreeItem)
      | _ => none
    let dirs := (s.filterMap fun t =>
      match t.path with
      | dir :: _ :: _ => some dir
      | _ => none).eraseDups
    let trees := dirs.map fun dir =>
      let inside := s.filterMap fun t =>
        match t.path with
        | first :: second :: rest =>
          if first == dir then some { t with path := second :: rest } else none
        | _ => none
      (⟨dir, "40000", treeId depth inside⟩ : TreeItem)
    let items := (files ++ trees).mergeSort fun a b => a.key ≤ b.key
    .ofObject "tree" (items.flatMap TreeItem.bytes)

/-- The id of the snapshot's top tree. -/
def id (s : Snapshot) : ObjectId := treeId ((s.map (·.path.length)).foldl max 0 + 1) s

/-- The files below a location, those of repositories' own directories left out. -/
def ofFiles (fs : FileSystem) (top : Location) : Snapshot :=
  sorted (fs.items.filterMap fun (loc, item) =>
    if loc.take top.length == top && loc.length != top.length then
      let path := loc.drop top.length
      if path.contains ".git" then none
      else
        match item with
        | .file bytes => some { path, bytes }
        | .link target => some { path, bytes := target.toUTF8, isLink := true }
        | .dir => none
    else none)

/-- The snapshot with what the files of another one say about its own paths. -/
def refresh (s files : Snapshot) : Snapshot :=
  List.filterMap (fun (t : Tracked) => find? files t.path) s

/-! ## Work trees -/

/-- A file system with a tracked file below a location, and the directories on the way. -/
def withFile (fs : FileSystem) (top : Location) (t : Tracked) : FileSystem :=
  let dirs := (List.range t.path.length).map fun n => top ++ t.path.take n
  let fs := dirs.foldl (fun fs dir => if (fs.lookup dir).isSome then fs else fs.put dir .dir) fs
  fs.put (top ++ t.path) (if t.isLink then .link (Text.decodeLossy t.bytes) else .file t.bytes)

/-- A file system without a file below a location, and without the directories that are empty then. -/
def withoutFile (fs : FileSystem) (top : Location) (path : List String) : FileSystem :=
  let drop (fs : FileSystem) (loc : Location) : FileSystem :=
    { fs with items := fs.items.filter (·.1 != loc) }
  let dirs := ((List.range path.length).drop 1).reverse.map fun n => top ++ path.take n
  dirs.foldl (fun fs dir => if (fs.children dir).isEmpty then drop fs dir else fs)
    (drop fs (top ++ path))

/-- The work tree below a location brought from one snapshot to another; what both have in common is
left as it is. -/
def brought (fs : FileSystem) (top : Location) (old new : Snapshot) : FileSystem :=
  let gone := old.filter fun s => (find? new s.path).isNone
  let changed := new.filter fun t => !((find? old t.path).map t.same).getD false
  changed.foldl (fun fs t => withFile fs top t)
    (gone.foldl (fun fs t => withoutFile fs top t.path) fs)

/-- The snapshot with a tracked file in place of the one at its path. -/
def put (s : Snapshot) (t : Tracked) : Snapshot := sorted (t :: s.filter (·.path != t.path))

end Snapshot

end PromptPack
