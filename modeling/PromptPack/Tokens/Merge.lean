import Std.Data.HashMap
/-!
# Merging bytes

A piece starts as single bytes. The two neighbours whose union has the least rank are merged, the
first such pair among equals, until no union of neighbours has a rank.
-/

namespace PromptPack.Tokens

/-- The ranks of byte strings. -/
abbrev Ranks := Std.HashMap (List UInt8) Nat

/-- The ranks by position in a list; of equal entries the first counts. -/
def Ranks.ofList (entries : List (List UInt8)) : Ranks :=
  (entries.zipIdx).foldl (fun ranks (entry, n) => ranks.insertIfNew entry n) ∅

/-- The least rank of two neighbours' union, and the place of the first of them. -/
def leastPair (ranks : Ranks) (place : Nat) (best : Option (Nat × Nat)) :
    List (List UInt8) → Option (Nat × Nat)
  | a :: b :: rest =>
    let best :=
      match ranks[a ++ b]?, best with
      | some rank, some (least, _) => if rank < least then some (rank, place) else best
      | some rank, none => some (rank, place)
      | none, _ => best
    leastPair ranks (place + 1) best (b :: rest)
  | _ => best

/-- The part at a place and the one behind it as one. -/
def mergeAt : Nat → List (List UInt8) → List (List UInt8)
  | 0, a :: b :: rest => (a ++ b) :: rest
  | n + 1, a :: rest => a :: mergeAt n rest
  | _, parts => parts

/-- Merges until nothing is left to merge; every step leaves one part less. -/
def mergeAll (ranks : Ranks) : (steps : Nat) → List (List UInt8) → List (List UInt8)
  | 0, parts => parts
  | steps + 1, parts =>
    match leastPair ranks 0 none parts with
    | none => parts
    | some (_, place) => mergeAll ranks steps (mergeAt place parts)

/-- The tokens of a piece: one where the whole piece has a rank, else its merged bytes. -/
def tokensOf (ranks : Ranks) (piece : List UInt8) : List (List UInt8) :=
  if ranks.contains piece then [piece]
  else mergeAll ranks piece.length (piece.map ([·]))

end PromptPack.Tokens
