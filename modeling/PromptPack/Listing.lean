import PromptPack.ByName
import PromptPack.Walk
/-!
# The drawing of a source tree

Walked entries are gathered into a tree. It is drawn with directories before files, each group by
name; directories end in a slash and what is left out carries a mark.
-/

namespace PromptPack

/-- A node of the tree with its children in the order of their names. -/
inductive Listing
  | node (isDir excluded : Bool) (children : List (String × Listing))
  deriving Inhabited

namespace Listing

def isDir : Listing → Bool
  | node d _ _ => d

def excluded : Listing → Bool
  | node _ x _ => x

def children : Listing → List (String × Listing)
  | node _ _ cs => cs

/-- A directory without children. -/
def directory : Listing := node true false []

/-- Places an entry below the node; directories on the way that are missing are made. -/
def insert (isDir excluded : Bool) : List String → Listing → Listing
  | [], t => t
  | [leaf], node d x cs =>
    node d x (ByName.change (node false false []) leaf (fun c => node isDir excluded c.children) cs)
  | name :: rest, node d x cs =>
    node d x (ByName.change directory name (insert isDir excluded rest) cs)

def insertEntry (t : Listing) (e : WalkEntry) : Listing :=
  insert e.isDir e.excluded e.names t

/-! ## Drawing -/

/-- The mark of what is left out. -/
def mark : String := " ❌"

def label (name : String) (isDir excluded : Bool) : String :=
  name ++ (if isDir then "/" else "") ++ (if excluded then mark else "")

/-- What stands before the lines of a child and before those of its own children. -/
def branch (isLast : Bool) : String := if isLast then "└── " else "├── "

def trunk (isLast : Bool) : String := if isLast then "    " else "│   "

mutual

/-- The lines of the children of a node: the directories, then the files. -/
def drawChildren (indent : String) : Listing → List String
  | node _ _ cs =>
    drawSome indent true (cs.any fun c => !c.2.isDir) cs ++ drawSome indent false false cs

/-- The lines of the children that are directories or of those that are not; `more` tells that
others follow. -/
def drawSome (indent : String) (dirs more : Bool) : List (String × Listing) → List String
  | [] => []
  | (name, child) :: rest =>
    if child.isDir == dirs then
      let isLast := !more && !(rest.any fun c => c.2.isDir == dirs)
      (indent ++ branch isLast ++ label name child.isDir child.excluded) ::
        (drawChildren (indent ++ trunk isLast) child ++ drawSome indent dirs more rest)
    else drawSome indent dirs more rest

end

/-- The first line of a drawing with marks. -/
def markHeader : String :=
  "(Files/directories marked with ❌ are excluded or not included here)"

def dropNewlines (s : String) : String :=
  String.ofList ((s.toList.reverse.dropWhile (· == '\n')).reverse)

/-- The tree of the entries that are to be drawn. -/
def ofEntries (entries : List WalkEntry) : Listing := entries.foldl insertEntry directory

/-- The name that a directory is drawn under. -/
def rootName (root : Path) : String := root.fileName?.getD root.text

/-- Draws the entries below `root`; with `hide` the entries left out are not drawn. -/
def draw (root : Path) (entries : List WalkEntry) (hide : Bool) : String :=
  let shown := if hide then entries.filter (!·.excluded) else entries
  let lines := (rootName root ++ "/") :: drawChildren "" (ofEntries shown)
  let head := if shown.any (·.excluded) then markHeader ++ "\n\n" else ""
  head ++ dropNewlines (String.intercalate "\n" lines)

/-- What stands for the tree of a single file. -/
def drawFile (p : Path) : String := "File: " ++ p.text

end Listing

end PromptPack
