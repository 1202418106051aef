/-!
# Lines that two texts share

Of two lists of lines some are kept from the one to the other, in order, and the others change. The
lines that change are found on shortest paths: a path through the grid of both lists goes along a
diagonal where the lines are equal and pays for each step to the side. Paths are followed from both
ends until they meet, and the parts on either side of the meeting are treated in the same way.

Lines that cannot be kept, or that are so frequent that keeping them says little, are left out
before.
-/

namespace PromptPack.Matching

/-- Lines, and which of them a change touches. -/
structure Side where
  lines : Array String
  changed : Array Bool

namespace Side

def ofLines (ls : List String) : Side := ⟨ls.toArray, Array.replicate ls.length false⟩

def size (s : Side) : Nat := s.lines.size

/-- Whether a change touches a line; there is none behind the last. -/
def touches (s : Side) (i : Nat) : Bool := s.changed.getD i false

def mark (s : Side) (value : Bool) (i : Nat) : Side :=
  { s with changed := s.changed.setIfInBounds i value }

end Side

/-! ## Lines that are left out -/

/-- How a line stands towards the other side. -/
inductive Standing
  | absent
  | matched
  /-- There are so many lines like it that a match tells little. -/
  | frequent
  deriving DecidableEq, Repr

/-- A power of two not far from the square root. -/
def rootAbout (n : Nat) : Nat := if h : n = 0 then 1 else 2 * rootAbout (n / 4)
termination_by n
decreasing_by omega

/-- No line that occurs less often counts as frequent. -/
def mostFrequent : Nat := 1024

def standing (other : Array String) (size : Nat) (line : String) : Standing :=
  let n := other.count line
  if n == 0 then .absent else if min (rootAbout size) mostFrequent ≤ n then .frequent else .matched

/-- No farther than this is looked for lines around a frequent one. -/
def windowSize : Nat := 100

/-- How many of the lines in front of the first matched one are absent, and how many frequent. -/
def runCounts (around : List Standing) : Nat × Nat :=
  let run := (around.take windowSize).takeWhile (· != .matched)
  (run.count .absent, run.count .frequent)

/-- Whether a frequent line is left out: absent lines stand on both sides of it, and there are many
of them for each frequent one. The lines before it are given with the nearest first. -/
def isDrowned (before behind : List Standing) : Bool :=
  let (absent, frequent) := runCounts before
  let (absent', frequent') := runCounts behind
  absent != 0 && absent' != 0 &&
    4 * (frequent + frequent' + 2) < absent + absent' + (frequent + frequent' + 2)

/-- For each line whether it stays. -/
def stayFrom (before : List Standing) : List Standing → List Bool
  | [] => []
  | s :: behind =>
    (s == .matched || (s == .frequent && !isDrowned before behind)) :: stayFrom (s :: before) behind

/-! ## Paths -/

/-- The lines that are compared, with their places in their texts. -/
structure Pair where
  old : Array (String × Nat)
  new : Array (String × Nat)

/-- A part of the grid: the lines from the starts to before the stops. -/
structure Box where
  oldStart : Int
  oldStop : Int
  newStart : Int
  newStop : Int
  deriving Repr

def Pair.same (p : Pair) (i j : Int) : Bool :=
  match p.old[i.toNat]?, p.new[j.toNat]? with
  | some (l, _), some (m, _) => l == m
  | _, _ => false

/-- How far equal lines lead on from a place. -/
def onward (p : Pair) (box : Box) (i j : Int) : Int :=
  if h : i < box.oldStop ∧ j < box.newStop then
    if p.same i j then onward p box (i + 1) (j + 1) else i
  else i
termination_by (box.oldStop - i).toNat
decreasing_by omega

/-- How far equal lines lead back from a place. -/
def back (p : Pair) (box : Box) (i j : Int) : Int :=
  if h : box.oldStart < i ∧ box.newStart < j then
    if p.same (i - 1) (j - 1) then back p box (i - 1) (j - 1) else i
  else i
termination_by (i - box.oldStart).toNat
decreasing_by omega

/-- How far the paths of one price have come: for each diagonal from the lowest to the highest the
place among the old lines. A diagonal is the number of old lines less that of new ones. -/
structure Front where
  low : Int
  high : Int
  /-- The diagonal that the first entry is for. -/
  first : Int
  places : Array Int

namespace Front

def place (f : Front) (d : Int) : Int := f.places.getD (d - f.first).toNat 0

def reach (f : Front) (d i : Int) : Front :=
  { f with places := f.places.setIfInBounds (d - f.first).toNat i }

def covers (f : Front) (d : Int) : Bool := f.low ≤ d && d ≤ f.high

/-- The front of the paths that have cost nothing. -/
def ofPlace (box : Box) (d i : Int) : Front :=
  let first := box.oldStart - box.newStop - 1
  let size := (box.oldStop - box.newStart + 1 - first).toNat + 1
  reach ⟨d, d, first, Array.replicate size 0⟩ d i

/-- The front with one more diagonal on either side, or one less where the box ends; `unreached` is
what stands for a diagonal that no path has come to. -/
def widen (f : Front) (box : Box) (unreached : Int) : Front :=
  let f :=
    if box.oldStart - box.newStop < f.low then ({ f with low := f.low - 1 }).reach (f.low - 2) unreached
    else { f with low := f.low + 1 }
  if f.high < box.oldStop - box.newStart then ({ f with high := f.high + 1 }).reach (f.high + 2) unreached
  else { f with high := f.high - 1 }

/-- Every second diagonal, the highest first. -/
def diagonals (f : Front) : List Int :=
  (List.range ((f.high - f.low) / 2 + 1).toNat).map fun (k : Nat) => f.high - 2 * (k : Int)

end Front

/-- A step of all paths from the start, and a place where one of them meets a path from the end. -/
def stepOnward (p : Pair) (box : Box) (meets : Option Front) :
    Front → List Int → Front × Option (Int × Int)
  | f, [] => (f, none)
  | f, d :: ds =>
    let i := if f.place (d + 1) ≤ f.place (d - 1) then f.place (d - 1) + 1 else f.place (d + 1)
    let i := onward p box i (i - d)
    let f := f.reach d i
    if meets.any fun other => other.covers d && other.place d ≤ i then (f, some (i, i - d))
    else stepOnward p box meets f ds

/-- A step of all paths from the end, and a place where one of them meets a path from the start. -/
def stepBack (p : Pair) (box : Box) (meets : Option Front) :
    Front → List Int → Front × Option (Int × Int)
  | f, [] => (f, none)
  | f, d :: ds =>
    let i := if f.place (d - 1) < f.place (d + 1) then f.place (d - 1) else f.place (d + 1) - 1
    let i := back p box i (i - d)
    let f := f.reach d i
    if meets.any fun other => other.covers d && i ≤ other.place d then (f, some (i, i - d))
    else stepBack p box meets f ds

/-- The place where the paths from both ends meet. They can meet behind a step onward when the
corners of the box are an odd number of steps apart, and behind a step back otherwise. -/
def meeting (p : Pair) (box : Box) (odd : Bool) : (fuel : Nat) → Front → Front → Option (Int × Int)
  | 0, _, _ => none
  | fuel + 1, start, stop =>
    let start := start.widen box (-1)
    match stepOnward p box (if odd then some stop else none) start start.diagonals with
    | (_, some place) => some place
    | (start, none) =>
      let stop := stop.widen box (box.oldStop + box.newStop + 1)
      match stepBack p box (if odd then none else some start) stop stop.diagonals with
      | (_, some place) => some place
      | (stop, none) => meeting p box odd fuel start stop

/-- The box without the equal lines at its ends. -/
def Box.trimmed (p : Pair) (box : Box) : Box :=
  let i := onward p box box.oldStart box.newStart
  let box := { box with oldStart := i, newStart := box.newStart + (i - box.oldStart) }
  let i := back p box box.oldStop box.newStop
  { box with oldStop := i, newStop := box.newStop - (box.oldStop - i) }

def Box.size (box : Box) : Nat := (box.oldStop - box.oldStart + (box.newStop - box.newStart)).toNat

/-- The places in their texts of the lines from a start to before a stop. -/
def placesIn (ls : Array (String × Nat)) (start stop : Int) : List Nat :=
  (ls.extract start.toNat stop.toNat).toList.map (·.2)

/-- The old and the new lines of a box that change. -/
def changesIn (p : Pair) : (fuel : Nat) → Box → List Nat × List Nat
  | 0, _ => ([], [])
  | fuel + 1, box =>
    let box := box.trimmed p
    let all :=
      (placesIn p.old box.oldStart box.oldStop, placesIn p.new box.newStart box.newStop)
    if box.oldStart == box.oldStop || box.newStart == box.newStop then all
    else
      let low := box.oldStart - box.newStart
      let high := box.oldStop - box.newStop
      match meeting p box ((low - high) % 2 != 0) (box.size + 1)
          (Front.ofPlace box low box.oldStart) (Front.ofPlace box high box.oldStop) with
      | none => all
      | some (i, j) =>
        let (olds, news) := changesIn p fuel { box with oldStop := i, newStop := j }
        let (olds', news') := changesIn p fuel { box with oldStart := i, newStart := j }
        (olds ++ olds', news ++ news')

/-! ## Both texts -/

/-- The lines between the equal ones at both ends, with their places, and whether each stays. -/
def candidates (s other : Side) (front rear : Nat) : List ((String × Nat) × Bool) :=
  let inner := (s.lines.toList.zipIdx.drop front).take (s.size - front - rear)
  inner.zip (stayFrom [] (inner.map fun l => standing other.lines s.size l.1))

/-- How many lines at the front of two lists are equal. -/
def commonFront : List String → List String → Nat
  | l :: ls, m :: ms => if l == m then commonFront ls ms + 1 else 0
  | _, _ => 0

/-- Both texts with the lines marked that change. -/
def between (old new : List String) : Side × Side :=
  let s := Side.ofLines old
  let t := Side.ofLines new
  let front := commonFront old new
  let rear := commonFront (old.drop front).reverse (new.drop front).reverse
  let olds := candidates s t front rear
  let news := candidates t s front rear
  let staying (ls : List ((String × Nat) × Bool)) := ((ls.filter (·.2)).map (·.1)).toArray
  let leaving (ls : List ((String × Nat) × Bool)) := (ls.filter (!·.2)).map (·.1.2)
  let p : Pair := ⟨staying olds, staying news⟩
  let box : Box := ⟨0, p.old.size, 0, p.new.size⟩
  let (changedOld, changedNew) := changesIn p (box.size + 1) box
  ((leaving olds ++ changedOld).foldl (Side.mark · true ·) s,
    (leaving news ++ changedNew).foldl (Side.mark · true ·) t)

end PromptPack.Matching
