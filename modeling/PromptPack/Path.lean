import PromptPack.Text.Blank
/-!
# Paths

A path is a text cut at slashes. Repeated slashes and `.` pieces count for nothing, except a `.`
in front of a relative path. Two paths are ordered by their components, not by their texts.
-/

namespace PromptPack

open Text

structure Path where
  text : String
  deriving DecidableEq, Repr, Inhabited

namespace Path

inductive Component
  | root
  | here
  | up
  | name (text : String)
  deriving DecidableEq, Repr

/-- A piece between slashes, when it counts. -/
def Component.ofPiece? (piece : String) : Option Component :=
  if piece == "" || piece == "." then none
  else if piece == ".." then some .up
  else some (.name piece)

def Component.text : Component → String
  | .root => "/"
  | .here => "."
  | .up => ".."
  | .name s => s

def isAbsolute (p : Path) : Bool := startsWith p.text "/"

def pieces (p : Path) : List String := splitAt '/' p.text

def components (p : Path) : List Component :=
  let named := p.pieces.filterMap Component.ofPiece?
  if p.isAbsolute then .root :: named
  else if p.pieces.head? == some "." then .here :: named
  else named

/-- Whether a path is a lone dash: it stands for standard input, below which nothing is looked for. -/
def isStandardInput (p : Path) : Bool := p.components == [.name "-"]

/-- The path that some components make. -/
def ofComponents : List Component → Path
  | .root :: names => ⟨"/" ++ String.intercalate "/" (names.map Component.text)⟩
  | comps => ⟨String.intercalate "/" (comps.map Component.text)⟩

/-- The last component, when it is a name. -/
def fileName? (p : Path) : Option String :=
  match p.components.getLast? with
  | some (.name s) => some s
  | _ => none

/-- What stands after the last dot of a file name; a name whose only dot comes first has none. -/
def extensionOf? (fileName : String) : Option String :=
  let rest := fileName.toList.reverse
  let ext := rest.takeWhile (· != '.')
  match rest.dropWhile (· != '.') with
  | [] => none
  | [_] => none
  | _ :: _ => some (String.ofList ext.reverse)

/-- The extension of the path without its dot. -/
def extension? (p : Path) : Option String := p.fileName?.bind extensionOf?

/-- The extension of the path with its dot, or nothing. -/
def dottedExtension (p : Path) : String :=
  match p.extension? with
  | some e => "." ++ e
  | none => ""

/-- Whether a piece at the end of a path says nothing. -/
def isIdle (piece : String) : Bool := piece == "" || piece == "."

/-- Drops idle pieces from the end of a reversed list of pieces, never the first piece of all. -/
def dropIdle : List String → List String
  | [] => []
  | [p] => [p]
  | p :: rest => if isIdle p then dropIdle rest else p :: rest

/-- The path without its last component; a root and the empty path have none. -/
def parent? (p : Path) : Option Path :=
  match p.components with
  | [] => none
  | [.root] => none
  | _ =>
    let kept := dropIdle (dropIdle p.pieces.reverse).tail
    match kept with
    | [] => some ⟨""⟩
    | [""] => some ⟨"/"⟩
    | _ => some ⟨String.intercalate "/" kept.reverse⟩

/-- `q` as seen from `p`; an absolute `q` stays as it is. -/
def join (p q : Path) : Path :=
  if q.isAbsolute then q
  else if p.text == "" || endsWith p.text "/" then ⟨p.text ++ q.text⟩
  else ⟨p.text ++ "/" ++ q.text⟩

/-- The components after those of `base`, when `p` starts with them. -/
def stripBase? (p base : Path) : Option Path :=
  let rec go : List Component → List Component → Option (List Component)
    | [], cs => some cs
    | b :: bs, c :: cs => if b = c then go bs cs else none
    | _ :: _, [] => none
  (go base.components p.components).map fun cs =>
    ⟨String.intercalate "/" (cs.map Component.text)⟩

/-- The place of a component in the order of paths: the root first, names last. -/
def Component.rank : Component → Nat
  | .root => 0
  | .here => 1
  | .up => 2
  | .name _ => 3

def Component.compare (a b : Component) : Ordering :=
  match a, b with
  | .name s, .name t => Ord.compare s t
  | a, b => Ord.compare a.rank b.rank

def compareComponents : List Component → List Component → Ordering
  | [], [] => .eq
  | [], _ :: _ => .lt
  | _ :: _, [] => .gt
  | a :: as, b :: bs => (a.compare b).then (compareComponents as bs)

/-- Whether `p` comes no later than `q`. -/
def le (p q : Path) : Bool := compareComponents p.components q.components != .gt

end Path

end PromptPack
