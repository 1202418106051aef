import PromptPack.Ignore.Ambient
/-!
# Walking a directory

A walk reports everything below a root in the order of relative paths, and nothing below a lone dash.
Directories that an exclude glob matches are reported and not entered; files that the globs leave out
are marked. Ignore rules remove an item altogether, with all that is below it.
-/

namespace PromptPack

open Ignore

/-- One walked item: its path from the root argument on, its path relative to the root, whether it
is a directory, and whether the globs leave it out. -/
structure WalkEntry where
  path : Path
  rel : Path
  isDir : Bool
  excluded : Bool
  deriving DecidableEq, Repr

/-- The names on the way from the root. -/
def WalkEntry.names (e : WalkEntry) : List String := e.rel.components.map Path.Component.text

/-- How to walk. -/
structure Walker where
  exclude : List Glob.Pattern
  /-- The exclude globs for directories, which also match a directory by a glob for its contents. -/
  excludeDirs : List Glob.Pattern
  /-- Files have to match one of these, when given. -/
  only : Option (List Glob.Pattern)
  /-- A file that matches both sides is kept. -/
  includePriority : Bool
  followLinks : Bool
  ignoreFiles : Bool

/-- Excluded whatever else is asked for. -/
def alwaysExcluded : String := "**/.git/**"

def compileGlobs (globs : List String) : Except Glob.GlobError (List Glob.Pattern) :=
  globs.mapM Glob.parse

/-- A glob for the contents of a directory as a glob for the directory. -/
def directoryGlob (glob : String) : String :=
  match dropEnd? "/**".toList glob.toList with
  | some cs => String.ofList cs
  | none => glob

namespace Walker

/-- The walker that leaves out what matches one of the globs. -/
def ofExcludes (globs : List String) : Except Glob.GlobError Walker := do
  let all := globs ++ [alwaysExcluded]
  let dirs := (all.map directoryGlob).filter fun g => g != "" && g != "**"
  return {
    exclude := ← compileGlobs all
    excludeDirs := ← compileGlobs dirs
    only := none
    includePriority := false
    followLinks := false
    ignoreFiles := true }

/-- Asks for files that match one of the globs, if there are any globs. -/
def withIncludes (w : Walker) (globs : List String) : Except Glob.GlobError Walker :=
  if globs.isEmpty then .ok { w with only := none }
  else (compileGlobs globs).map fun patterns => { w with only := some patterns }

def matchesAny (patterns : List Glob.Pattern) (rel : Path) : Bool :=
  patterns.any fun p => Glob.Pattern.matches p rel.text

def isExcluded (w : Walker) (rel : Path) : Bool := matchesAny w.exclude rel

/-- Whether a file is kept. -/
def shouldInclude (w : Walker) (rel : Path) : Bool :=
  let included :=
    match w.only with
    | some patterns => matchesAny patterns rel
    | none => true
  let excluded := w.isExcluded rel
  if included && excluded then w.includePriority else included && !excluded

/-- Whether a directory is reported without being entered. -/
def isPruned (w : Walker) (rel : Path) : Bool := matchesAny w.excludeDirs rel || w.isExcluded rel

/-! ## The walk -/

/-- What an item of a directory is to the walk. -/
inductive Found
  | file
  | dir (loc : Location)
  | nothing

/-- Links count only when they are followed: a file behind a link is a file, a directory behind a
link is entered unless it is one of those being walked. -/
def find (w : Walker) (fs : FileSystem) (within : List Location) (loc : Location) (item : Item) :
    Found :=
  match item with
  | .file _ => .file
  | .dir => .dir loc
  | .link _ =>
    if w.followLinks then
      match fs.place (FileSystem.pathOf loc) with
      | some ⟨_, some (.file _)⟩ => .file
      | some ⟨target, some .dir⟩ => if within.contains target then .nothing else .dir target
      | _ => .nothing
    else .nothing

/-- A directory being walked: its path, its path relative to the root, the levels of its ignore
rules, and the directories around it. -/
structure Stage where
  loc : Location
  path : Path
  rel : List String
  levels : List Level
  within : List Location

/-- The stage of a directory in the one at hand. -/
def Stage.enter (st : Stage) (w : Walker) (fs : FileSystem) (name : String) (loc : Location) :
    Stage where
  loc := loc
  path := st.path.join ⟨name⟩
  rel := st.rel ++ [name]
  levels :=
    if w.ignoreFiles then ⟨Sources.ofDir fs loc, []⟩ :: st.levels.map (·.enter name) else []
  within := loc :: st.within

/-- The path of an item for the ambient rules. -/
def ambientPath (p : Path) : String :=
  match Text.dropStart? ['.', '/'] p.text.toList with
  | some cs => String.ofList cs
  | none => p.text

/-- The entries below a directory. The depth bounds how far down the walk goes. -/
def entriesBelow (w : Walker) (fs : FileSystem) (ambient : Rules) : Nat → Stage → List WalkEntry
  | 0, _ => []
  | depth + 1, st =>
    (fs.children st.loc).flatMap fun (name, item) =>
      let path := st.path.join ⟨name⟩
      let rel : Path := ⟨String.intercalate "/" (st.rel ++ [name])⟩
      let ignored (isDir : Bool) : Bool :=
        w.ignoreFiles &&
          Ignore.decide st.levels ambient (ambientPath path) name isDir == .ignored
      match w.find fs st.within (st.loc ++ [name]) item with
      | .nothing => []
      | .file => if ignored false then [] else [⟨path, rel, false, !w.shouldInclude rel⟩]
      | .dir loc =>
        if ignored true then []
        else if w.isPruned rel then [⟨path, rel, true, true⟩]
        else
          ⟨path, rel, true, false⟩ :: entriesBelow w fs ambient depth (st.enter w fs name loc)

/-- The stage of a root. -/
def rootStage (w : Walker) (fs : FileSystem) (root : Path) (loc : Location) : Stage where
  loc := loc
  path := root
  rel := []
  levels := if w.ignoreFiles then ⟨Sources.ofDir fs loc, []⟩ :: levelsAbove fs loc else []
  within := [loc]

/-- A depth that no walk exceeds: a directory is entered at most twice on one way down. -/
def deepest (fs : FileSystem) : Nat := 2 * fs.items.length + 2

/-- The entry of a root that is no directory. -/
def singleFile (w : Walker) (fs : FileSystem) (root : Path) : Option WalkEntry :=
  if !w.followLinks && fs.isLink root then none
  else root.fileName?.map fun name => ⟨root, ⟨name⟩, false, !w.shouldInclude ⟨name⟩⟩

/-- Every reachable entry below a root, in the order of relative paths. -/
def walk (w : Walker) (fs : FileSystem) (home root : Path) : List WalkEntry :=
  match fs.place root with
  | some ⟨loc, some .dir⟩ =>
    if root.isStandardInput then []
    else
      let rules := if w.ignoreFiles then ambient fs home else []
      (w.entriesBelow fs rules (deepest fs) (w.rootStage fs root loc)).mergeSort fun a b =>
        a.rel.le b.rel
  | _ => (w.singleFile fs root).toList

/-- The kept files below a root. -/
def walkFiles (w : Walker) (fs : FileSystem) (home root : Path) : List Path :=
  ((w.walk fs home root).filter fun e => !e.isDir && !e.excluded).map (·.path)

end Walker

end PromptPack
