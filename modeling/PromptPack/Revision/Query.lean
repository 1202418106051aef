import PromptPack.Revision.Patch
/-!
# What a prompt asks of a repository

The changes of the work tree, the changes between two branches, and the list of commits between
them. A directory belongs to the repository of the nearest work tree around it.
-/

namespace PromptPack

/-- What could not be had from a repository. -/
inductive RevisionError
  | diff
  | diffBetween
  | logBetween
  deriving DecidableEq, Repr

def RevisionError.message : RevisionError → String
  | .diff => "Failed to get git diff"
  | .diffBetween => "Failed to get git diff between branches"
  | .logBetween => "Failed to get git log"

abbrev Repositories := List Repository

namespace Repositories

/-- The repository of a location: the one whose work tree is nearest above it. -/
def around? (rs : Repositories) (loc : Location) : Option Repository :=
  (List.range (loc.length + 1)).reverse.findSome? fun n =>
    List.find? (fun (r : Repository) => r.top == loc.take n) rs

/-- The repository that a directory belongs to. -/
def ofDirectory? (rs : Repositories) (fs : FileSystem) (dir : Path) : Option Repository :=
  match fs.place dir with
  | some ⟨loc, some .dir⟩ => rs.around? loc
  | _ => none

/-- The changes of the work tree that are not in the index yet. -/
def diff (rs : Repositories) (fs : FileSystem) (dir : Path) : Except RevisionError String :=
  match rs.ofDirectory? fs dir with
  | some r => .ok (Patch.between r.index (Snapshot.refresh r.index (Snapshot.ofFiles fs r.top)))
  | none => .error .diff

/-- The two commits of a range in the repository of a directory. -/
def range? (rs : Repositories) (fs : FileSystem) (dir : Path) (base tip : String) :
    Option (Repository × ObjectId × ObjectId) := do
  let r ← rs.ofDirectory? fs dir
  return (r, ← r.endOfRange? base, ← r.endOfRange? tip)

/-- The changes from one branch to another. -/
def diffBetween (rs : Repositories) (fs : FileSystem) (dir : Path) (base tip : String) :
    Except RevisionError String :=
  match rs.range? fs dir base tip with
  | some (r, base, tip) =>
    match r.commit? base, r.commit? tip with
    | some b, some t => .ok (Patch.between b.snapshot t.snapshot)
    | _, _ => .error .diffBetween
  | none => .error .diffBetween

/-- The commits of one branch that another one lacks, one a line. -/
def logBetween (rs : Repositories) (fs : FileSystem) (dir : Path) (base tip : String) :
    Except RevisionError String :=
  match rs.range? fs dir base tip with
  | some (r, base, tip) =>
    .ok (String.join ((r.between base tip).map fun (id, c) =>
      Patch.shortId id ++ " " ++ c.subject ++ "\n"))
  | none => .error .logBetween

end Repositories

end PromptPack
