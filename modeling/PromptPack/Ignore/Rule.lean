import PromptPack.Glob.Match
import PromptPack.FileSystem
/-!
# Ignore rules

An ignore file holds one rule a line. A rule is a glob for paths below the directory of its file;
the last rule that matches a path decides, and a rule with an exclamation mark keeps the path.
-/

namespace PromptPack.Ignore

open Text

/-- What a set of rules says about a path. -/
inductive Verdict
  | undecided
  | ignored
  | kept
  deriving DecidableEq, Repr

/-- The first opinion, when there is one. -/
def Verdict.or : Verdict → Verdict → Verdict
  | .undecided, v => v
  | v, _ => v

structure Rule where
  pattern : Glob.Pattern
  keeps : Bool
  dirsOnly : Bool

/-- A rule being read. -/
structure Draft where
  glob : List Char
  keeps : Bool
  /-- The rule is tied to the directory of its file. -/
  anchored : Bool
  dirsOnly : Bool

def dropEnd? (ending cs : List Char) : Option (List Char) :=
  (dropStart? ending.reverse cs.reverse).map List.reverse

/-- A line without its blank end, unless its last blank is escaped. -/
def bareLine (cs : List Char) : List Char :=
  if (dropEnd? ['\\', ' '] cs).isSome then cs else trimEndChars cs

/-- Reads the marks in front of a glob: an escaped or plain exclamation mark, and a slash. -/
def Draft.ofFront : List Char → Draft
  | '\\' :: '!' :: cs => ⟨'!' :: cs, false, false, false⟩
  | '\\' :: '#' :: cs => ⟨'#' :: cs, false, false, false⟩
  | '!' :: '/' :: cs => ⟨cs, true, true, false⟩
  | '!' :: cs => ⟨cs, true, false, false⟩
  | '/' :: cs => ⟨cs, false, true, false⟩
  | cs => ⟨cs, false, false, false⟩

/-- Reads the slash at the end, which stands for directories only. -/
def Draft.withEnd (d : Draft) : Draft :=
  match dropEnd? ['/'] d.glob with
  | none => d
  | some cs => { d with glob := (dropEnd? ['\\'] cs).getD cs, dirsOnly := true }

/-- A glob without a slash applies at every depth. -/
def Draft.deepened (d : Draft) : List Char :=
  if d.anchored || d.glob.contains '/' || d.glob == ['*', '*'] then d.glob
  else ['*', '*', '/'] ++ d.glob

/-- A double star at the end means what is inside a directory, not the directory. -/
def insideOnly (cs : List Char) : List Char :=
  if (dropEnd? ['/', '*', '*'] cs).isSome then cs ++ ['/', '*'] else cs

/-- The rule of a line; comments, blank lines and lines with a broken glob have none. -/
def Rule.ofLine? (line : List Char) : Option Rule :=
  if line.head? == some '#' then none
  else
    let bare := bareLine line
    if bare.isEmpty then none
    else
      let d := (Draft.ofFront bare).withEnd
      match Glob.parseWith true (String.ofList (insideOnly d.deepened)) with
      | .ok pattern => some ⟨pattern, d.keeps, d.dirsOnly⟩
      | .error _ => none

abbrev Rules := List Rule

/-- The lines of a file up to the first that is not well-formed UTF-8. -/
def readableLines (bytes : ByteArray) : List (List Char) :=
  let whole := decode bytes
  let rec go : List (Option Char) → List Char → List (List Char)
    | [], [] => []
    | [], line => [line.reverse]
    | none :: _, _ => []
    | some '\n' :: rest, line => dropReturn line.reverse :: go rest []
    | some c :: rest, line => go rest (c :: line)
  go whole []

/-- A byte order mark in front of the first line does not count. -/
def dropMarks (line : List Char) : List Char := line.dropWhile (· == '\uFEFF')

/-- The rules of an ignore file. -/
def ofBytes (bytes : ByteArray) : Rules :=
  match readableLines bytes with
  | [] => []
  | first :: rest => (dropMarks first :: rest).filterMap Rule.ofLine?

/-- What the rules say about a path relative to their directory. -/
def verdict (rules : Rules) (path : String) (isDir : Bool) : Verdict :=
  match rules.reverse.find? fun r => r.pattern.matches path && (!r.dirsOnly || isDir) with
  | some r => if r.keeps then .kept else .ignored
  | none => .undecided

/-! ## Levels -/

/-- The rules that the files of one directory give, by kind of file. -/
structure Sources where
  general : Rules
  tracked : Rules
  local_ : Rules

/-- The rules of an ignore file at a location, when it is there. -/
def rulesAt (fs : FileSystem) (loc : Location) (names : List String) : Rules :=
  match fs.readBytes? (FileSystem.pathOf (loc ++ names)) with
  | some bytes => ofBytes bytes
  | none => []

/-- The rules that stand in a directory. -/
def Sources.ofDir (fs : FileSystem) (loc : Location) : Sources where
  general := rulesAt fs loc [".ignore"]
  tracked := rulesAt fs loc [".gitignore"]
  local_ := rulesAt fs loc [".git", "info", "exclude"]

/-- The rules of a directory on the way to the one at hand, and the names from there to here. -/
structure Level where
  sources : Sources
  below : List String

/-- The levels of an item `name` of the directory at hand, seen from within it. -/
def Level.enter (l : Level) (name : String) : Level := { l with below := l.below ++ [name] }

/-- The levels of a directory that is reached without a walk: those above it, the closest first. -/
def levelsAbove (fs : FileSystem) : Location → List Level
  | loc =>
    (List.range loc.length).reverse.map fun n => ⟨Sources.ofDir fs (loc.take n), loc.drop n⟩

/-- The opinion of the closest level that has one. -/
def closest (levels : List Level) (rules : Sources → Rules) (name : String) (isDir : Bool) :
    Verdict :=
  levels.foldr (fun l rest =>
    (verdict (rules l.sources) (String.intercalate "/" (l.below ++ [name])) isDir).or rest)
    .undecided


/-- What all rules together say about an item: general rules come before tracked ones, those
before local ones, and those before the ambient ones. -/
def decide (levels : List Level) (ambient : Rules) (path : String) (name : String) (isDir : Bool) :
    Verdict :=
  (closest levels (·.general) name isDir).or
    ((closest levels (·.tracked) name isDir).or
      ((closest levels (·.local_) name isDir).or (verdict ambient path isDir)))

end PromptPack.Ignore
