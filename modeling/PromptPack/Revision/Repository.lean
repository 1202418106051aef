import PromptPack.Ignore.Ambient
import PromptPack.Revision.Snapshot
/-!
# Repositories

A repository keeps commits, each a snapshot with the commits it came from; branches that name
commits; and the index, the snapshot that the next commit takes.
-/

namespace PromptPack

/-- Who made a commit and when, in seconds and with the offset of the time zone. -/
structure Authorship where
  name : String
  email : String
  seconds : Nat
  zone : String
  deriving DecidableEq, Repr

def Authorship.text (a : Authorship) : String :=
  a.name ++ " <" ++ a.email ++ "> " ++ toString a.seconds ++ " " ++ a.zone

structure Commit where
  snapshot : Snapshot
  parents : List ObjectId
  author : Authorship
  message : String

namespace Commit

def text (c : Commit) : String :=
  "tree " ++ c.snapshot.id.text ++ "\n" ++
    String.join (c.parents.map fun p => "parent " ++ p.text ++ "\n") ++
    "author " ++ c.author.text ++ "\ncommitter " ++ c.author.text ++ "\n\n" ++ c.message ++ "\n"

/-- Lines without blank ones at either end, of several blank ones in a row only one. -/
def tidyLines (blank : Bool) : List String → List String
  | [] => []
  | l :: ls =>
    if l.isEmpty then tidyLines true ls
    else
      let rest := l :: tidyLines false ls
      if blank then "" :: rest else rest

/-- A message as it is kept: lines without blanks at their ends. -/
def tidied (message : String) : String :=
  String.intercalate "\n"
    ((tidyLines false ((Text.splitAt '\n' message).map Text.trimEnd)).dropWhile String.isEmpty)

def id (c : Commit) : ObjectId := .ofObject "commit" c.text.toUTF8.toList

/-- The lines of the message before its first blank one, as one line. -/
def subject (c : Commit) : String :=
  String.intercalate " " ((Text.lines c.message).takeWhile fun l => !(Text.trim l).isEmpty)

end Commit

structure Repository where
  /-- Where the work tree is. -/
  top : Location
  /-- The commits, the last one made first. -/
  commits : List (ObjectId × Commit) := []
  branches : List (String × ObjectId) := []
  /-- The branch that is worked on. -/
  head : String
  index : Snapshot := []

namespace Repository

def commit? (r : Repository) (id : ObjectId) : Option Commit := r.commits.lookup id

/-- The commit that is worked on. -/
def tip? (r : Repository) : Option ObjectId := r.branches.lookup r.head

/-! ## Changing a repository -/

/-- Whether the rules of the work tree, or the user's own, leave out a file or a directory around it. -/
def ignores (r : Repository) (fs : FileSystem) (ambient : Ignore.Rules) (path : List String) : Bool :=
  (List.range path.length).any fun n =>
    let isDir := n + 1 < path.length
    let levels := (List.range (n + 1)).reverse.map fun k =>
      (⟨Ignore.Sources.ofDir fs (r.top ++ path.take k), (path.take n).drop k⟩ : Ignore.Level)
    let name := (path.drop n).headD ""
    ((Ignore.closest levels (·.tracked) name isDir).or
      ((Ignore.closest levels (·.local_) name isDir).or
        (Ignore.verdict ambient (String.intercalate "/" (path.take (n + 1))) isDir))) == .ignored

/-- Takes all files of the work tree that a test admits into the index; those that are ignored stay
out unless they are tracked. -/
def stage (r : Repository) (fs : FileSystem) (ambient : Ignore.Rules) (admits : List String → Bool) :
    Repository :=
  let kept := r.index.filter fun t => !admits t.path
  let taken := (Snapshot.ofFiles fs r.top).filter fun t =>
    admits t.path && ((r.index.find? t.path).isSome || !r.ignores fs ambient t.path)
  { r with index := Snapshot.sorted (kept ++ taken) }

/-- Takes the files that a test admits out of the index and the work tree. -/
def remove (r : Repository) (fs : FileSystem) (admits : List String → Bool) :
    Repository × FileSystem :=
  let kept := r.index.filter fun t => !admits t.path
  ({ r with index := kept }, Snapshot.brought fs r.top r.index kept)

/-- Gives the files at or below a path another path, in the index and in the work tree; refused when
none of them is tracked, or when the new place is taken or has no directory around it. -/
def move? (r : Repository) (fs : FileSystem) (old new : List String) :
    Option (Repository × FileSystem) :=
  let moved (t : Tracked) : Tracked :=
    if old.isPrefixOf t.path then { t with path := new ++ t.path.drop old.length } else t
  if (r.index.any fun t => old.isPrefixOf t.path) && (fs.lookup (r.top ++ old)).isSome
      && (fs.lookup (r.top ++ new)).isNone && fs.isDir (FileSystem.pathOf (r.top ++ new.dropLast)) then
    some ({ r with index := Snapshot.sorted (r.index.map moved) },
      fs.rename (r.top ++ old) (r.top ++ new))
  else none

/-- Takes what became of the tracked files into the index. -/
def stageTracked (r : Repository) (fs : FileSystem) : Repository :=
  { r with index := Snapshot.refresh r.index (Snapshot.ofFiles fs r.top) }

/-- What the commit that is worked on holds. -/
def tipSnapshot (r : Repository) : Snapshot :=
  (((r.tip?).bind r.commit?).map (·.snapshot)).getD []

/-- Commits the index to the branch that is worked on; refused when the index is what the commit
before holds, unless that is wanted. -/
def commitIndex? (r : Repository) (author : Authorship) (message : String) (wanted : Bool) :
    Option Repository :=
  if !wanted && r.index.agrees r.tipSnapshot then none
  else
    let c : Commit := ⟨r.index, r.tip?.toList, author, Commit.tidied message⟩
    let id := c.id
    some { r with
      commits := (id, c) :: r.commits
      branches := (r.head, id) :: r.branches.filter fun b => b.1 != r.head }

/-- Starts a branch where the work stands and works on it. -/
def startBranch (r : Repository) (name : String) : Repository :=
  { r with
    head := name
    branches := (r.tip?.toList.map fun id => (name, id)) ++ r.branches.filter fun b => b.1 != name }

/-- Names the commit that is worked on by one more branch. -/
def addBranch (r : Repository) (name : String) : Repository :=
  { r with
    branches := (r.tip?.toList.map fun id => (name, id)) ++ r.branches.filter fun b => b.1 != name }

/-- What the index holds for a path when the work goes from one commit to another; refused when
that would lose what is only in the index or in the work tree. -/
def carried? (base target index files : Snapshot) (path : List String) : Option (Option Tracked) :=
  let here := index.find? path
  let there := target.find? path
  if Tracked.alike (base.find? path) there || Tracked.alike here there then some here
  else if Tracked.alike here (base.find? path) && Tracked.alike (files.find? path) here then some there
  else none

/-- Works on a branch that is there already: the index and the work tree become what its commit
holds, but for what the commits have in common. -/
def switchTo? (r : Repository) (fs : FileSystem) (name : String) : Option (Repository × FileSystem) := do
  let target := (← r.commit? (← r.branches.lookup name)).snapshot
  let base := r.tipSnapshot
  let paths := ((base ++ target ++ r.index).map (·.path)).eraseDups
  let held ← paths.mapM (carried? base target r.index (Snapshot.ofFiles fs r.top))
  let index := Snapshot.sorted (held.filterMap id)
  return ({ r with head := name, index }, Snapshot.brought fs r.top r.index index)

/-! ## Naming commits -/

/-- The steps back that the end of a name asks for: carets one each, a tilde as many as its
number says. The end is given with its last character first. -/
def splitSteps : (fuel : Nat) → List Char → Nat × List Char
  | 0, cs => (0, cs)
  | _ + 1, [] => (0, [])
  | fuel + 1, '^' :: cs =>
    let (n, rest) := splitSteps fuel cs
    (n + 1, rest)
  | fuel + 1, cs =>
    let digits := cs.takeWhile Char.isDigit
    match cs.drop digits.length with
    | '~' :: rest =>
      let here := if digits.isEmpty then 1 else (String.ofList digits.reverse).toNat?.getD 0
      let (n, rest) := splitSteps fuel rest
      (n + here, rest)
    | _ => (0, cs)

/-- The commit so many first parents back. -/
def stepBack (r : Repository) : Nat → ObjectId → Option ObjectId
  | 0, id => some id
  | n + 1, id => ((r.commit? id).bind fun c => c.parents.head?).bind (stepBack r n)

/-- The shortest start of an id that can name it. -/
def shortestName : Nat := 4

/-- The commit that a plain name means: the one worked on, that of a branch, or the only one whose
id starts so. -/
def named? (r : Repository) (name : String) : Option ObjectId :=
  if name == "HEAD" || name == "@" then r.tip?
  else
    match r.branches.lookup name with
    | some id => some id
    | none =>
      if name.length < shortestName then none
      else
        match r.commits.filter fun c => Text.startsWith c.1.text (Text.lowerAscii name) with
        | [(id, _)] => some id
        | _ => none

/-- The commit that a name with steps back means. -/
def resolve? (r : Repository) (name : String) : Option ObjectId :=
  let cs := name.toList.reverse
  let (steps, rest) := splitSteps cs.length cs
  (r.named? (String.ofList rest.reverse)).bind (r.stepBack steps)

/-- The end of a range; an empty one is the commit that is worked on. -/
def endOfRange? (r : Repository) (name : String) : Option ObjectId :=
  if name.isEmpty then r.tip? else r.resolve? name

/-! ## History -/

/-- The commits that can be reached from the given ones, these included. Commits that are made
later stand earlier in the list of commits, so one pass is enough. -/
def reachable (r : Repository) (ids : List ObjectId) : List ObjectId :=
  (r.commits.foldl
    (fun (wanted, found) (id, c) =>
      if wanted.contains id then (c.parents ++ wanted, id :: found) else (wanted, found))
    (ids, ([] : List ObjectId))).2.reverse

/-- The commits that lead to the second commit and not to the first, the last one made first. -/
def between (r : Repository) (base tip : ObjectId) : List (ObjectId × Commit) :=
  let left := r.reachable [base]
  let right := r.reachable [tip]
  r.commits.filter fun c => right.contains c.1 && !left.contains c.1

end Repository

end PromptPack
