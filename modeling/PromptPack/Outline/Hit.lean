import PromptPack.Outline.Chunk
import PromptPack.Outline.Language
/-!
# Hits and their chunks

Reading a source by its grammar gives hits: nodes that are kept as they are, and definitions of
which the signature is kept. Each hit becomes at most one chunk.
-/

namespace PromptPack.Outline

open Text

/-- What a hit keeps of its node. -/
inductive Part
  /-- The whole text. -/
  | whole
  /-- The signature; the body goes with everything in it. -/
  | signature
  /-- The signature; what is in the body is listed on its own. -/
  | header
  deriving DecidableEq, Repr

/-- A node that a rule of the language captured. -/
structure Hit where
  /-- The place of the rule among the rules of its language. -/
  rule : Nat
  part : Part
  node : Region
  /-- The body of a definition. -/
  body : Option Region := none
  /-- The end of the colon that closes a header, in languages that have one. -/
  colon : Option Nat := none
  deriving DecidableEq, Repr

/-- What tells hits apart: the rule and the captured spans. -/
def Hit.key (h : Hit) : Nat × Region × Option Region := (h.rule, h.node, h.body)

/-- Keeps the first hit of each key, given those seen before. -/
def distinctFrom (seen : List Hit) : List Hit → List Hit
  | [] => []
  | h :: rest =>
    if seen.any fun g => g.key == h.key then distinctFrom seen rest
    else h :: distinctFrom (h :: seen) rest

/-- Keeps the first hit of each key. -/
def distinctHits (hits : List Hit) : List Hit := distinctFrom [] hits

/-- The characters between two byte offsets, when both stand between characters. -/
def slice? (source : List Char) (start stop : Nat) : Option (List Char) :=
  match source with
  | [] => if start == 0 && stop == 0 then some [] else none
  | c :: cs =>
    if start == 0 then
      if stop == 0 then some []
      else if stop < c.utf8Size then none
      else (slice? cs 0 (stop - c.utf8Size)).map (c :: ·)
    else if start < c.utf8Size || stop < start then none
    else slice? cs (start - c.utf8Size) (stop - c.utf8Size)

/-- The chunk of a node that is kept as it is; blank nodes have none. -/
def verbatimChunk? (source : List Char) (node : Region) : Option Chunk :=
  match slice? source node.start node.stop with
  | none => none
  | some text =>
    let shown := trimChars text
    if shown.isEmpty then none else some ⟨String.ofList shown, node.start, node.stop, .verbatim⟩

/-- Where the signature of a definition ends: at the colon of its header in languages that have
one, else where the body begins. -/
def Hit.signatureEnd (language : Language) (h : Hit) (body : Region) : Nat :=
  match language, h.colon with
  | .python, some n => n
  | _, _ => body.start

/-- The chunk of a definition. -/
def definitionChunk? (language : Language) (source : List Char) (h : Hit) (shape : Region → Shape) :
    Option Chunk :=
  match h.body with
  | none => verbatimChunk? source h.node
  | some body =>
    let stop := h.signatureEnd language body
    if stop ≤ h.node.start || h.node.stop < stop then verbatimChunk? source h.node
    else
      (slice? source h.node.start stop).map fun text =>
        ⟨String.ofList (trimChars text) ++ language.placeholder, h.node.start, h.node.stop,
          shape body⟩

/-- The chunk that a hit becomes. -/
def Hit.chunk? (language : Language) (source : List Char) (h : Hit) : Option Chunk :=
  match h.part with
  | .whole => verbatimChunk? source h.node
  | .signature => definitionChunk? language source h fun _ => .elided
  | .header => definitionChunk? language source h fun body => .outline body.start

/-- The chunks of a list of hits. -/
def chunksOf (language : Language) (source : List Char) (hits : List Hit) : List Chunk :=
  hits.filterMap (Hit.chunk? language source)

/-! ## Making hits -/

def Hit.whole (rule : Nat) (start stop : Nat) : Hit := ⟨rule, .whole, ⟨start, stop⟩, none, none⟩

def Hit.signature (rule : Nat) (start stop bodyStart bodyStop : Nat) : Hit :=
  ⟨rule, .signature, ⟨start, stop⟩, some ⟨bodyStart, bodyStop⟩, none⟩

def Hit.header (rule : Nat) (start stop bodyStart bodyStop : Nat) : Hit :=
  ⟨rule, .header, ⟨start, stop⟩, some ⟨bodyStart, bodyStop⟩, none⟩

end PromptPack.Outline
