import PromptPack.Revision.Matching
/-!
# Where a group of changed lines stands

A group of changed lines can slide up when the line above it equals its last one, and down when the
line below it equals its first. Of all the places that it can take it gets the one where lines of
the other side change as well, and otherwise the one that splits the text best: at blank lines, and
where the indentation is small.
-/

namespace PromptPack.Settling

open Matching

/-! ## Groups -/

/-- The changed lines between two kept ones; there may be none. -/
structure Group where
  start : Nat
  stop : Nat
  deriving DecidableEq, Repr

def Group.size (g : Group) : Nat := g.stop - g.start

def Group.isEmpty (g : Group) : Bool := g.start == g.stop

/-- Where the changed lines end that begin at a line. -/
def stopOf (s : Side) (i : Nat) : Nat :=
  if h : i < s.size then if s.touches i then stopOf s (i + 1) else i else i
termination_by s.size - i

/-- Where the changed lines start that end before a line. -/
def startOf (s : Side) : Nat → Nat
  | 0 => 0
  | i + 1 => if s.touches i then startOf s i else i + 1

def firstGroup (s : Side) : Group := ⟨0, stopOf s 0⟩

def nextGroup? (s : Side) (g : Group) : Option Group :=
  if s.size ≤ g.stop then none else some ⟨g.stop + 1, stopOf s (g.stop + 1)⟩

def previousGroup? (s : Side) (g : Group) : Option Group :=
  if g.start == 0 then none else some ⟨startOf s (g.start - 1), g.start - 1⟩

/-- A group of one side with the group of the other side at the same place among the kept lines. -/
structure Slide where
  side : Side
  other : Side
  group : Group
  facing : Group

namespace Slide

/-- One line up; groups that are met grow together. -/
def up? (s : Slide) : Option Slide :=
  let ⟨start, stop⟩ := s.group
  if start != 0 && s.side.lines[start - 1]? == s.side.lines[stop - 1]? then
    let side := (s.side.mark true (start - 1)).mark false (stop - 1)
    some { s with
      side
      group := ⟨startOf side (start - 1), stop - 1⟩
      facing := (previousGroup? s.other s.facing).getD s.facing }
  else none

/-- One line down; groups that are met grow together. -/
def down? (s : Slide) : Option Slide :=
  let ⟨start, stop⟩ := s.group
  if stop < s.side.size && s.side.lines[start]? == s.side.lines[stop]? then
    let side := (s.side.mark false start).mark true stop
    some { s with
      side
      group := ⟨start + 1, stopOf side (stop + 1)⟩
      facing := (nextGroup? s.other s.facing).getD s.facing }
  else none

/-- As far up as it goes. -/
def top : (fuel : Nat) → Slide → Slide
  | 0, s => s
  | fuel + 1, s =>
    match s.up? with
    | some s => top fuel s
    | none => s

/-- As far down as it goes; tells the end of the group at its last place with changes on the other
side, of those that it comes to and the one given. -/
def bottom : (fuel : Nat) → Slide → Option Nat → Slide × Option Nat
  | 0, s, facing => (s, facing)
  | fuel + 1, s, facing =>
    match s.down? with
    | some s => bottom fuel s (if s.facing.isEmpty then facing else some s.group.stop)
    | none => (s, facing)

/-- Up and down until no more groups grow together. The group is as far down as it goes then; tells
also its end when it is as far up as it goes, and whether it can stand where the other side
changes. -/
def range : (fuel : Nat) → Slide → Slide × Nat × Bool
  | 0, s => (s, s.group.stop, false)
  | fuel + 1, s =>
    let high := s.top s.side.size
    let (low, facing) :=
      high.bottom s.side.size (if high.facing.isEmpty then none else some high.group.stop)
    if low.group.size == s.group.size then (low, high.group.stop, facing.isSome) else low.range fuel

/-- Up until a place that a test admits. -/
def upTo (admits : Slide → Bool) : (fuel : Nat) → Slide → Slide
  | 0, s => s
  | fuel + 1, s =>
    if admits s then s
    else
      match s.up? with
      | some s => upTo admits fuel s
      | none => s

end Slide

/-! ## Splits -/

/-- Lines are not indented farther than this. -/
def widestIndent : Nat := 200

/-- The width of the blanks before a line; a blank line has none. -/
def indentOf (width : Nat) : List Char → Option Nat
  | [] => none
  | c :: cs =>
    let wider :=
      if c == ' ' then some (width + 1)
      else if c == '\t' then some (width + (8 - width % 8))
      else if c == '\n' || c == '\r' then some width
      else none
    match wider with
    | none => some width
    | some w => if widestIndent ≤ w then some widestIndent else indentOf w cs

/-- No more blank lines are counted than this. -/
def mostBlanks : Nat := 20

/-- The indentation of the first line that is not blank, and the number of blank ones before it. -/
def indentBehind (blanks : Nat) : List (Option Nat) → Nat × Option Nat
  | [] => (blanks, none)
  | some indent :: _ => (blanks, some indent)
  | none :: rest =>
    if mostBlanks ≤ blanks + 1 then (blanks + 1, some 0) else indentBehind (blanks + 1) rest

/-- What is bad about splits. -/
structure Badness where
  indent : Int := 0
  penalty : Int := 0

/-- What a split adds to the badness when it parts the lines of the given indentations; the end of
the text counts as a blank line. The lines above are given with the nearest first. -/
def Badness.split (b : Badness) (above below : List (Option Nat)) : Badness :=
  let (blanksAbove, indentAbove) := indentBehind 0 above
  let (blanksBelow, indentBelow) := indentBehind 0 (below.drop 1)
  let atBlank := below.head?.join.isNone
  let post := if atBlank then 1 + blanksBelow else 0
  let blanks := blanksAbove + post
  let indent := if atBlank then indentBelow else below.head?.join
  let atStart : Int := if indentAbove.isNone && blanksAbove == 0 then 1 else 0
  let atEnd : Int := if below.isEmpty then 21 else 0
  let choose (besideBlank plain : Int) : Int := if blanks == 0 then plain else besideBlank
  let relative : Int :=
    match indent, indentAbove with
    | some here, some before =>
      if before < here then choose 10 (-4)
      else if here == before then 0
      else if indentBelow.any (here < ·) then choose 17 24
      else choose 17 23
    | _, _ => 0
  { indent := b.indent + ((indent.map Int.ofNat).getD (-1))
    penalty := b.penalty + atStart + atEnd - 30 * (blanks : Int) + 6 * (post : Int) + relative }

/-- Whether one split is no worse than another: the indentation counts most. -/
def Badness.atMost (a b : Badness) : Bool :=
  let sign : Int := if b.indent < a.indent then 1 else if a.indent < b.indent then -1 else 0
  60 * sign + (a.penalty - b.penalty) ≤ 0

/-- The badness of a group of some size with its end before a line. -/
def badnessAt (indents : List (Option Nat)) (size stop : Nat) : Badness :=
  let splitAt (b : Badness) (n : Nat) : Badness := b.split (indents.take n).reverse (indents.drop n)
  splitAt (splitAt {} stop) (stop - size)

/-- The best end among some; of equally good ones the last. -/
def bestStop (indents : List (Option Nat)) (size : Nat) (stops : List Nat) : Option (Nat × Badness) :=
  stops.foldl (fun best stop =>
    let b := badnessAt indents size stop
    if best.all fun old => b.atMost old.2 then some (stop, b) else best) none

/-! ## Settling -/

/-- A group is not moved farther up than this by the way the text is split. -/
def farthestMove : Nat := 100

/-- The group at the place that it gets. -/
def Slide.settled (s : Slide) : Slide :=
  let (low, earliest, facing) := s.range (s.side.size + 1)
  let size := low.group.size
  let stop := low.group.stop
  if stop == earliest then low
  else if facing then low.upTo (fun s => !s.facing.isEmpty) low.side.size
  else
    let first := max earliest (max (stop - size - 1) (stop - farthestMove))
    let indents := low.side.lines.toList.map fun l => indentOf 0 l.toList
    let stops := (List.range (stop + 1 - first)).map (first + ·)
    match bestStop indents size stops with
    | some (best, _) => low.upTo (fun s => s.group.stop ≤ best) low.side.size
    | none => low

/-- Settles all groups from the given one on. -/
def settleFrom : (fuel : Nat) → Slide → Side
  | 0, s => s.side
  | fuel + 1, s =>
    let s := if s.group.isEmpty then s else s.settled
    match nextGroup? s.side s.group with
    | some group =>
      settleFrom fuel { s with group, facing := (nextGroup? s.other s.facing).getD s.facing }
    | none => s.side

/-- The first side with its groups settled. -/
def settle (side other : Side) : Side :=
  settleFrom (side.size + 1) ⟨side, other, firstGroup side, firstGroup other⟩

end PromptPack.Settling
