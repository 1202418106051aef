/-!
# Chunks and their assembly

A chunk is a piece of output together with the span of the source that it stands for. Assembly
orders chunks by position and leaves out each one that starts inside a region which a chunk
before it accounts for.
-/

namespace PromptPack.Outline

/-- How much of the source a chunk accounts for. -/
inductive Shape
  /-- The signature is kept and the body dropped: the whole span. -/
  | elided
  /-- The signature is kept and the members are still listed: the header alone. -/
  | outline (headerEnd : Nat)
  /-- The text is kept as it is: the whole span. -/
  | verbatim
  deriving DecidableEq, Repr

/-- Of chunks with the same span the one of least rank wins. -/
def Shape.rank : Shape → Nat
  | .elided => 0
  | .outline _ => 1
  | .verbatim => 2

structure Chunk where
  content : String
  start : Nat
  stop : Nat
  shape : Shape
  deriving DecidableEq, Repr

/-- A half-open range of offsets. -/
structure Region where
  start : Nat
  stop : Nat
  deriving DecidableEq, Repr

def Region.contains (r : Region) (n : Nat) : Bool := r.start ≤ n && n < r.stop

/-- The region of the source that the chunk stands in for. -/
def Chunk.covers (c : Chunk) : Region :=
  match c.shape with
  | .outline headerEnd => ⟨c.start, max headerEnd (c.start + 1)⟩
  | _ => ⟨c.start, c.stop⟩

/-- The order of assembly: by start, then the longer first, then by rank. -/
def Chunk.le (a b : Chunk) : Bool :=
  if a.start != b.start then a.start < b.start
  else if a.stop != b.stop then b.stop < a.stop
  else a.shape.rank ≤ b.shape.rank

/-- The chunks that survive, given those kept so far. -/
def select (kept : List Chunk) : List Chunk → List Chunk
  | [] => []
  | c :: rest =>
    if kept.any (fun k => k.start == c.start || k.covers.contains c.start) then select kept rest
    else c :: select (c :: kept) rest

/-- The line written after every chunk. -/
def separator : String := "\n// -----\n"

/-- What stands for an outline without chunks. -/
def nothingFound : String := "// No relevant code found after compression.\n"

/-- The chunks that make up the outline, in order. -/
def selected (chunks : List Chunk) : List Chunk := select [] (chunks.mergeSort Chunk.le)

/-- The outline made of the given chunks. -/
def assemble (chunks : List Chunk) : String :=
  let out := String.join ((selected chunks).map (·.content ++ separator))
  if out.isEmpty then nothingFound else out

end PromptPack.Outline
