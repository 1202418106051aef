import PromptPack.FileSystem
import PromptPack.Glob.Lines
/-!
# Where exclude globs come from

A pattern file given by hand stands alone. Otherwise a default list in the user's directory
replaces everything; without it the built-in list is followed by the user's other lists.
-/

namespace PromptPack.Exclusion

/-- A pattern file that could not be read. -/
structure Unreadable where
  path : Path
  deriving DecidableEq, Repr

def Unreadable.message (e : Unreadable) : String := "Failed to read pattern file " ++ e.path.text

def readGlobs (fs : FileSystem) (p : Path) : Except Unreadable (List String) :=
  match fs.readText? p with
  | some text => .ok (Glob.parseLines text)
  | none => .error ⟨p⟩

/-- Whether a location lies at or below a directory. -/
def isBelow (dir loc : Location) : Bool := loc.take dir.length == dir && loc != dir

/-- The path of an item, when it is a pattern file below a directory; links are not followed. -/
def patternFile? (dir : Path) (loc : Location) : Location × Item → Option Path
  | (l, .file _) =>
    if isBelow loc l then
      let p := (l.drop loc.length).foldl (fun p n => p.join ⟨n⟩) dir
      if p.extension? == some "glob" then some p else none
    else none
  | _ => none

/-- The pattern files below a directory, by path. -/
def patternFiles (fs : FileSystem) (dir : Path) (loc : Location) : List Path :=
  (fs.items.filterMap (patternFile? dir loc)).mergeSort Path.le

/-- The globs of every pattern file below a directory; none when it is missing. -/
def readDirectory (fs : FileSystem) (dir : Path) : Except Unreadable (List String) :=
  match fs.place dir with
  | some ⟨loc, some .dir⟩ => do
    let files := if dir.isStandardInput then [] else patternFiles fs dir loc
    let lists ← files.mapM (readGlobs fs)
    return lists.flatten
  | _ => .ok []

/-- The globs in force. -/
def resolve (fs : FileSystem) (file : Option Path) (noDefaults : Bool) (userDir : Option Path) :
    Except Unreadable (List String) :=
  match file with
  | some p => readGlobs fs p
  | none =>
    let base := if noDefaults then [] else Glob.builtin
    match userDir with
    | none => .ok base
    | some dir =>
      let own := dir.join ⟨"default.glob"⟩
      if fs.isFile own then readGlobs fs own
      else (readDirectory fs dir).map (base ++ ·)

/-- Where a user's lists are kept, below the home directory. -/
def userDirectory (home : Path) : Path := home.join ⟨".config/ingest/patterns/exclude"⟩

end PromptPack.Exclusion
