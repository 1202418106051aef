import PromptPack.Revision.Settling
/-!
# Changes of lines

The change from one list of lines to another is a script that keeps, drops and adds lines.
-/

namespace PromptPack.LineChange

inductive Edit
  | keep (line : String)
  | drop (line : String)
  | add (line : String)
  deriving DecidableEq, Repr

def Edit.isKeep : Edit → Bool
  | .keep _ => true
  | _ => false

/-- The lines that a script starts from. -/
def before : List Edit → List String
  | [] => []
  | .keep l :: es => l :: before es
  | .drop l :: es => l :: before es
  | .add _ :: es => before es

/-- The lines that a script leads to. -/
def after : List Edit → List String
  | [] => []
  | .keep l :: es => l :: after es
  | .drop _ :: es => after es
  | .add l :: es => l :: after es

/-- The script that drops the changed old lines and adds the changed new ones; at one place the
dropped lines come first. -/
def ofMarked : (old new : List (String × Bool)) → List Edit
  | (l, true) :: old, new => .drop l :: ofMarked old new
  | old, (l, true) :: new => .add l :: ofMarked old new
  | (l, false) :: old, (_, false) :: new => .keep l :: ofMarked old new
  | [], [] => []
  | (l, false) :: old, [] => .drop l :: ofMarked old []
  | [], (l, false) :: new => .add l :: ofMarked [] new
termination_by old new => old.length + new.length

/-- The lines of a side with their marks. -/
def marked (s : Matching.Side) : List (String × Bool) := s.lines.toList.zip s.changed.toList

/-- The change from the old lines to the new ones. -/
def between (old new : List String) : List Edit :=
  let (s, t) := Matching.between old new
  let s := Settling.settle s t
  ofMarked (marked s) (marked (Settling.settle t s))

end PromptPack.LineChange
