import PromptPack.Path
import PromptPack.Text.Decoding
/-!
# File systems as values

A file system holds files, directories and symbolic links by their location, the list of names
from the root. Reading and writing go through paths, which are resolved from the working
directory and through links.
-/

namespace PromptPack

abbrev Location := List String

inductive Item
  | file (bytes : ByteArray)
  | dir
  | link (target : String)
  deriving Inhabited

structure FileSystem where
  items : List (Location × Item)
  /-- The working directory. -/
  cwd : Location
  /-- Where the files stand that cannot be opened. -/
  closed : List Location := []

namespace FileSystem

/-- What stands at a location; the root is a directory. -/
def lookup (fs : FileSystem) (loc : Location) : Option Item :=
  if loc.isEmpty then some .dir else (fs.items.find? (·.1 == loc)).map (·.2)

/-- Puts an item at a location, in place of what stood there. -/
def put (fs : FileSystem) (loc : Location) (item : Item) : FileSystem :=
  { fs with items := (loc, item) :: fs.items.filter (·.1 != loc) }

/-- Gives the item at a location, and all below it, another location. -/
def rename (fs : FileSystem) (old new : Location) : FileSystem :=
  let moved (loc : Location) : Location :=
    if old.isPrefixOf loc then new ++ loc.drop old.length else loc
  { fs with
    items := fs.items.map fun (loc, item) => (moved loc, item)
    closed := fs.closed.map moved }

/-- A resolved path: its location and what stands there, if anything. -/
structure Place where
  loc : Location
  item : Option Item

/-- Follows components from a directory on. At most `links` links are followed; the last component
may be missing, and when it is a link it is followed only on request. -/
def follow (fs : FileSystem) (last : Bool) (links : Nat) (at_ : Location)
    (comps : List Path.Component) : Option Place :=
  match comps with
  | [] => some ⟨at_, fs.lookup at_⟩
  | .root :: rest => follow fs last links [] rest
  | .here :: rest => follow fs last links at_ rest
  | .up :: rest => follow fs last links at_.dropLast rest
  | .name n :: rest =>
    let child := at_ ++ [n]
    match fs.lookup child with
    | none => if rest.isEmpty then some ⟨child, none⟩ else none
    | some .dir => follow fs last links child rest
    | some (.file b) => if rest.isEmpty then some ⟨child, some (.file b)⟩ else none
    | some (.link target) =>
      if rest.isEmpty && !last then some ⟨child, some (.link target)⟩
      else
        match links with
        | 0 => none
        | links + 1 => follow fs last links at_ (Path.components ⟨target⟩ ++ rest)
termination_by (links, comps.length)

/-- Whether a path demands a directory by its last piece. -/
def demandsDir (p : Path) : Bool :=
  match p.pieces.reverse with
  | last :: _ :: _ => Path.isIdle last
  | _ => false

/-- The place that a path leads to. -/
def place (fs : FileSystem) (p : Path) (last : Bool := true) : Option Place :=
  if p.text.isEmpty then none
  else
    match fs.follow (last || demandsDir p) 40 fs.cwd p.components with
    | some found =>
      match found.item with
      | some (.file _) => if demandsDir p then none else some found
      | _ => some found
    | none => none

/-- What a path leads to, through links. -/
def item? (fs : FileSystem) (p : Path) : Option Item := (fs.place p).bind (·.item)

def isDir (fs : FileSystem) (p : Path) : Bool :=
  match fs.item? p with
  | some .dir => true
  | _ => false

def isFile (fs : FileSystem) (p : Path) : Bool :=
  match fs.item? p with
  | some (.file _) => true
  | _ => false

def exists? (fs : FileSystem) (p : Path) : Bool := (fs.item? p).isSome

def isLink (fs : FileSystem) (p : Path) : Bool :=
  match (fs.place p false).bind (·.item) with
  | some (.link _) => true
  | _ => false

/-- Whether the file at a location can be opened. -/
def opens (fs : FileSystem) (loc : Location) : Bool := !fs.closed.contains loc

/-- The bytes of a file. -/
def readBytes? (fs : FileSystem) (p : Path) : Option ByteArray :=
  match fs.place p with
  | some ⟨loc, some (.file bytes)⟩ => if fs.opens loc then some bytes else none
  | _ => none

/-- The text of a file that is well-formed UTF-8. -/
def readText? (fs : FileSystem) (p : Path) : Option String :=
  (fs.readBytes? p).bind Text.decode?

/-- The absolute path of a location. -/
def pathOf (loc : Location) : Path := ⟨"/" ++ String.intercalate "/" loc⟩

/-- The location that a path leads to, when something stands there. -/
def locate? (fs : FileSystem) (p : Path) : Option Location :=
  (fs.place p).bind fun found => found.item.map fun _ => found.loc

/-- The absolute path without links that leads to the same place. -/
def canonical? (fs : FileSystem) (p : Path) : Option Path := (fs.locate? p).map pathOf

/-- The name of an item in a directory, when it stands right in there. -/
def nameIn? (dir loc : Location) : Option String :=
  if loc.dropLast == dir then loc.getLast? else none

/-- The names in a directory with what stands there. -/
def children (fs : FileSystem) (dir : Location) : List (String × Item) :=
  fs.items.filterMap fun (loc, item) => (nameIn? dir loc).map (·, item)

/-! ## Writing -/

/-- Writes a file; its directory has to be there already. -/
def writeFile? (fs : FileSystem) (p : Path) (bytes : ByteArray) : Option FileSystem :=
  if demandsDir p then none
  else
    match fs.place p with
    | some ⟨loc, none⟩ => some (fs.put loc (.file bytes))
    | some ⟨loc, some (.file _)⟩ => if fs.opens loc then some (fs.put loc (.file bytes)) else none
    | _ => none

/-- Makes one directory, unless a directory stands there already. -/
def makeDir? (fs : FileSystem) (p : Path) : Option FileSystem :=
  if fs.isDir p then some fs
  else
    match fs.place p false with
    | some ⟨loc, none⟩ => some (fs.put loc .dir)
    | _ => none

/-- Makes the directories of a path one after the other; those made before a failure stay. -/
def makeDirsFrom (fs : FileSystem) (made : List Path.Component) :
    List Path.Component → FileSystem × Bool
  | [] => (fs, true)
  | c :: rest =>
    match fs.makeDir? (.ofComponents (made ++ [c])) with
    | some fs => makeDirsFrom fs (made ++ [c]) rest
    | none => (fs, false)

/-- Makes a directory and those above it, as far as they are missing; tells whether it is there
now. -/
def makeDirs (fs : FileSystem) (p : Path) : FileSystem × Bool := makeDirsFrom fs [] p.components

end FileSystem

end PromptPack
