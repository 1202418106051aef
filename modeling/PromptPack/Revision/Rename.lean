import PromptPack.Content
import PromptPack.Revision.Snapshot
/-!
# Renamed files

Between two snapshots a file that is gone and one that is new are the same file under another name
when enough of their content is the same. Files of one content are paired first, then those that
keep their name in another directory, then the rest by how similar they are.
-/

namespace PromptPack.Rename

/-! ## Similarity -/

/-- The pieces that contents are compared by: lines, long ones cut. -/
def pieceSize : Nat := 64

/-- The pieces of some bytes; in texts a carriage return before a line end does not count, and what
stands behind the last piece does not either. The piece that has been begun is given with its last
byte first. -/
def piecesOf (isText : Bool) (n : Nat) (begun : List UInt8) : List UInt8 → List (List UInt8)
  | [] => []
  | b :: bs =>
    if isText && b == 13 && bs.head? == some 10 then piecesOf isText n begun bs
    else if n + 1 < pieceSize && b != 10 then piecesOf isText (n + 1) (b :: begun) bs
    else (b :: begun) :: piecesOf isText 0 [] bs

def pieces (bytes : ByteArray) : List (List UInt8) :=
  piecesOf (!isBinary bytes) 0 [] bytes.toList

/-- How many bytes of the first pieces are among the second ones, each counted once. -/
def commonBytes : List (List UInt8) → List (List UInt8) → Nat
  | [], _ => 0
  | p :: ps, qs => if qs.contains p then p.length + commonBytes ps (qs.erase p) else commonBytes ps qs

/-- The score of equal contents. -/
def fullScore : Nat := 60000

/-- The least score of a rename. -/
def leastScore : Nat := fullScore / 2

/-- The least score at which a file that keeps its name is paired before all others. -/
def leastNamedScore : Nat := leastScore + (fullScore - leastScore) / 2

/-- How similar two tracked files are; files of very different sizes are not compared. -/
def score (s t : Tracked) : Nat :=
  let larger := max s.bytes.size t.bytes.size
  let smaller := min s.bytes.size t.bytes.size
  if s.isLink || t.isLink || larger * (fullScore - leastScore) < (larger - smaller) * fullScore then 0
  else commonBytes (pieces s.bytes) (pieces t.bytes) * fullScore / larger

/-! ## Pairs -/

/-- A file under its old and its new name. -/
structure Pair where
  old : Tracked
  new : Tracked
  score : Nat

def baseName (t : Tracked) : String := t.path.getLast?.getD ""

def sameName (s t : Tracked) : Bool := baseName s == baseName t

/-- The files that none of the pairs has. -/
def unpaired (pairs : List Pair) (gone made : Snapshot) : Snapshot × Snapshot :=
  (gone.filter fun s => !pairs.any (·.old.path == s.path),
    made.filter fun t => !pairs.any (·.new.path == t.path))

/-- Pairs new files with gone ones of the same content, one of the same name first. -/
def equalPairs : (gone made : Snapshot) → List Pair
  | _, [] => []
  | gone, t :: made =>
    let equal := gone.filter t.same
    match (List.find? (sameName t) equal).or equal.head? with
    | some s => ⟨s, t, fullScore⟩ :: equalPairs (gone.filter (·.path != s.path)) made
    | none => equalPairs gone made

/-- Pairs files that alone have their name on their side. -/
def namedPairs (gone made : Snapshot) : List Pair :=
  gone.filterMap fun s =>
    match gone.filter (sameName s), made.filter (sameName s) with
    | [_], [t] => if leastNamedScore ≤ score s t then some ⟨s, t, score s t⟩ else none
    | _, _ => none

/-- The pairs whose files no pair before them has. -/
def distinctPairs (found : List Pair) : List Pair :=
  found.foldl (fun taken p =>
    if taken.any fun q => q.old.path == p.old.path || q.new.path == p.new.path then taken
    else taken ++ [p]) []

/-- Pairs files by how similar they are, the most similar first. -/
def similarPairs (gone made : Snapshot) : List Pair :=
  let all := made.flatMap fun t => gone.map fun s => (⟨s, t, score s t⟩ : Pair)
  let before (p q : Pair) : Bool :=
    q.score < p.score || (p.score == q.score && (sameName p.old p.new || !sameName q.old q.new))
  distinctPairs ((all.filter fun p => leastScore ≤ p.score).mergeSort before)

/-- The files that have another name in the second snapshot. -/
def pairs (old new : Snapshot) : List Pair :=
  let gone := old.filter fun s => (new.find? s.path).isNone
  let made := new.filter fun t => (old.find? t.path).isNone
  let equal := equalPairs gone made
  let (gone, made) := unpaired equal gone made
  let named := namedPairs gone made
  let (gone, made) := unpaired named gone made
  equal ++ named ++ similarPairs gone made

end PromptPack.Rename
