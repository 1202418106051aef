import PromptPack.Tokens.Correction
import PromptPack.Tokens.Digest
import PromptPack.Tokens.Encoding
/-!
# Counting tokens

A counter knows how to encode texts and whether its counts are corrected. A tally is a counter in
use: it remembers the counts of earlier texts by the digests of the texts, and may forget any of
them at any time.
-/

namespace PromptPack

/-- The tokens of a text. -/
abbrev Encoder := String → List Nat

structure TokenCounter where
  encoding : Encoding
  encode : Encoder
  corrected : Bool

namespace TokenCounter

/-- How many tokens a text has. -/
def rawCount (c : TokenCounter) (s : String) : Nat := (c.encode s).length

/-- The count as it is shown. -/
def shown (c : TokenCounter) (raw : Nat) : Nat := if c.corrected then Correction.apply raw else raw

def count (c : TokenCounter) (s : String) : Nat := c.shown (c.rawCount s)

end TokenCounter

structure Tally where
  counter : TokenCounter
  remembered : List (UInt64 × Nat) := []

namespace Tally

/-- The count of a text, remembered or made now, and the tally that remembers it. -/
def rawCount (t : Tally) (s : String) : Nat × Tally :=
  let key := Digest.ofText s
  match t.remembered.lookup key with
  | some n => (n, t)
  | none =>
    let n := t.counter.rawCount s
    (n, { t with remembered := (key, n) :: t.remembered })

def count (t : Tally) (s : String) : Nat × Tally :=
  let (n, t) := t.rawCount s
  (t.counter.shown n, t)

/-- Forgets the counts whose digests are not kept. -/
def forget (t : Tally) (kept : UInt64 → Bool) : Tally :=
  { t with remembered := t.remembered.filter fun entry => kept entry.1 }

/-- The raw and the shown counts of texts, one after the other. -/
def counts (t : Tally) : List String → List (Nat × Nat)
  | [] => []
  | s :: rest =>
    let (raw, t) := t.rawCount s
    let (shown, t) := t.count s
    (raw, shown) :: t.counts rest

end Tally

end PromptPack
