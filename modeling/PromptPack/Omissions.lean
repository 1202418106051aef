import PromptPack.ByName
import PromptPack.Path
/-!
# What was left out

A running record of the files and directories that a prompt leaves out: how many files by
directory and by extension, how many in all, and the first few by name.
-/

namespace PromptPack

/-- Counts by name, in the order of names. -/
abbrev Counts := ByName Nat

/-- Changes the count of a name, which is zero at first. -/
def Counts.change (name : String) (f : Nat → Nat) (counts : Counts) : Counts := ByName.change 0 name f counts

structure Omissions where
  /-- Files left out by the directory they stand in; directories left out as a whole have none. -/
  directories : Counts := []
  /-- Files left out by extension. -/
  extensions : Counts := []
  totalFiles : Nat := 0
  /-- The first files left out. -/
  files : List String := []
  deriving DecidableEq, Repr

namespace Omissions

/-- No more files than this are listed by name. -/
def maxListed : Nat := 20

def recordFile (o : Omissions) (p : Path) : Omissions where
  directories := o.directories.change ((p.parent?.map (·.text)).getD "") (· + 1)
  extensions :=
    match p.extension? with
    | some e => o.extensions.change ("." ++ e) (· + 1)
    | none => o.extensions
  totalFiles := o.totalFiles + 1
  files := if o.totalFiles + 1 ≤ maxListed then o.files ++ [p.text] else o.files

def recordDir (o : Omissions) (p : Path) : Omissions :=
  { o with directories := o.directories.change p.text fun _ => 0 }

def isEmpty (o : Omissions) : Bool := o.totalFiles == 0 && o.directories.isEmpty

end Omissions

end PromptPack
