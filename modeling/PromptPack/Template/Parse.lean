import PromptPack.Template.Tag
import PromptPack.Text.Blank
/-!
# Reading templates

A template is first cut into texts and tags. A tag that has a line to itself takes the whole line
away, and a mark inside a tag takes all blanks on its side away. Then tags that open and close
blocks are matched.
-/

namespace PromptPack.Template

/-! ## Pieces -/

inductive Piece
  | text (cs : List Char)
  /-- A tag; its line is to be dropped when nothing else stands on it. -/
  | tag (t : Tag) (trimsBefore trimsAfter alone : Bool) (indent : List Char)

def isLineSpace (c : Char) : Bool := c == ' ' || c == '\t'

/-- Whether nothing follows on the line, or nothing at all. -/
def lineEnds (cs : List Char) : Bool :=
  match cs.dropWhile isLineSpace with
  | '\n' :: _ => true
  | '\r' :: _ => true
  | _ => cs.isEmpty

/-- What has been seen of the line so far: only blanks, and which. -/
structure Line where
  blank : Bool := true
  spaces : List Char := []

def Line.push (l : Line) (c : Char) : Line :=
  if c == '\n' || c == '\r' then {}
  else if isLineSpace c then { l with spaces := l.spaces ++ [c] }
  else ⟨false, []⟩

/-- Puts a character in front of the text that begins the pieces. -/
def consChar (c : Char) : List Piece → List Piece
  | .text cs :: rest => .text (c :: cs) :: rest
  | rest => .text [c] :: rest

def tagPiece (t : TagRead) (line : Line) : Piece :=
  .tag t.tag t.trimsBefore t.trimsAfter (line.blank && lineEnds t.rest) line.spaces

/-- Whether a tag may have a line to itself; one that inserts a value may not. -/
def Tag.standsAlone : Tag → Bool
  | .value .. => false
  | .computed _ => false
  | _ => true

/-- What a backslash makes of what stands here: the text that it yields, and what follows. Two or
four braces behind one are text; of several before braces, the first goes away. -/
def escaped? (cs : List Char) : Option (List Char × List Char) :=
  match cs with
  | '\\' :: '\x7b' :: '\x7b' :: '\x7b' :: '\x7b' :: rest => some (List.replicate 4 '\x7b', rest)
  | '\\' :: '\x7b' :: '\x7b' :: rest => some (List.replicate 2 '\x7b', rest)
  | '\\' :: rest =>
    let run := rest.takeWhile (· == '\\')
    let behind := rest.drop run.length
    if !run.isEmpty && ['\x7b', '\x7b'].isPrefixOf behind then some (run, behind) else none
  | _ => none

/-- Cuts a template into pieces. The number bounds how many steps are taken. -/
def pieces? : Nat → Line → List Char → Option (List Piece)
  | 0, _, _ => none
  | n + 1, line, cs =>
    match escaped? cs with
    | some (kept, rest) => (pieces? n ⟨false, []⟩ rest).map fun ps => kept.foldr consChar ps
    | none =>
    match cs with
    | [] => some []
    | '\x7b' :: '\x7b' :: '\x7b' :: '\x7b' :: rest => do
      let trimsBefore := (skip rest).head? == some '~'
      let inner := if trimsBefore then (skip rest).tail else rest
      let (call, inner) ← applied? (skip inner)
      let (trimsAfter, inner) ← close? 4 inner
      let start := tagPiece ⟨.opening call, trimsBefore, trimsAfter, inner⟩ line
      let (text, inner) ← untilRawEnd (inner.length + 1) inner
      let (trimsBefore, inner) := match skip inner with
        | '~' :: inner => (true, skip inner)
        | inner => (false, inner)
      let inner ← Json.afterWord? ['/'] inner
      let (name, inner) ← identifier? (skip inner)
      let (trimsAfter, inner) ← close? 4 inner
      let line := text.foldl Line.push ⟨false, []⟩
      let text := skip text
      let stop := tagPiece ⟨.closing name, trimsBefore, trimsAfter, inner⟩ line
      let ps ← pieces? n ⟨false, []⟩ inner
      return start :: .text text :: stop :: ps
    | '\x7b' :: '\x7b' :: _ => do
      let t ← tag? cs
      let ps ← pieces? n ⟨false, []⟩ t.rest
      return tagPiece t line :: ps
    | c :: rest => (pieces? n (line.push c) rest).map (consChar c)
where
  /-- The text of a raw block, and what follows the braces behind it. -/
  untilRawEnd : Nat → List Char → Option (List Char × List Char)
    | 0, _ => none
    | n + 1, cs =>
      match escaped? cs with
      | some (kept, rest) => (untilRawEnd n rest).map fun (text, rest) => (kept ++ text, rest)
      | none =>
      match cs with
      | [] => none
      | '\x7b' :: '\x7b' :: '\x7b' :: '\x7b' :: rest => some ([], rest)
      | c :: rest => (untilRawEnd n rest).map fun (text, rest) => (c :: text, rest)

/-! ## Blanks around tags -/

/-- A text without the rest of the line it begins with. -/
def dropLineRest (cs : List Char) : List Char :=
  match cs.dropWhile isLineSpace with
  | '\r' :: '\n' :: rest => rest
  | '\n' :: rest => rest
  | rest => rest

def trimEndBy (test : Char → Bool) (cs : List Char) : List Char := (cs.reverse.dropWhile test).reverse

/-- A text behind a tag. -/
def trimAfter (previous : Option Piece) (cs : List Char) : List Char :=
  match previous with
  | some (.tag t _ after alone _) =>
    if after then cs.dropWhile Text.isBlank
    else if alone && t.standsAlone then dropLineRest cs
    else cs
  | _ => cs

/-- A text before a tag. The blanks before an inserted part stay. -/
def trimBefore (next : Option Piece) (cs : List Char) : List Char :=
  match next with
  | some (.tag t before _ alone _) =>
    if before then trimEndBy Text.isBlank cs
    else
      match t with
      | .insertion .. => cs
      | t => if alone && t.standsAlone then trimEndBy isLineSpace cs else cs
  | _ => cs

/-- Drops the blanks that tags take away. -/
def trimmed (previous : Option Piece) : List Piece → List Piece
  | [] => []
  | .text cs :: rest =>
    .text (trimBefore rest.head? (trimAfter previous cs)) :: trimmed none rest
  | p :: rest => p :: trimmed (some p) rest

/-! ## Blocks -/

/-- What ends a list of nodes. -/
inductive Ending
  | closing (name : String)
  | otherwise
  | otherwiseIf (call : Call)
  | nothing

mutual

/-- The nodes up to a tag that ends them. The number bounds how many pieces are read. -/
def nodes? : Nat → List Piece → Option (List Node × Ending × List Piece)
  | 0, _ => none
  | n + 1, ps =>
    match ps with
    | [] => some ([], .nothing, [])
    | .text cs :: rest => do
      let (ns, ending, rest) ← nodes? n rest
      return (if cs.isEmpty then ns else .text (String.ofList cs) :: ns, ending, rest)
    | .tag t _ _ _ indent :: rest =>
      match t with
      | .comment => nodes? n rest
      | .closing name => some ([], .closing name, rest)
      | .otherwise => some ([], .otherwise, rest)
      | .otherwiseIf call => some ([], .otherwiseIf call, rest)
      | .value r call => do
        let (ns, ending, rest) ← nodes? n rest
        return (.value r call :: ns, ending, rest)
      | .computed e => do
        let (ns, ending, rest) ← nodes? n rest
        return (.computed e :: ns, ending, rest)
      | .decoration call => do
        let (ns, ending, rest) ← nodes? n rest
        return (.decoration call :: ns, ending, rest)
      | .insertion part call => do
        let (ns, ending, rest) ← nodes? n rest
        return (.insertion part call (String.ofList indent) false [] :: ns, ending, rest)
      | .opening call => do
        let (node, rest) ← block? n call.name call rest
        let (ns, ending, rest) ← nodes? n rest
        return (node :: ns, ending, rest)
      | .insertionOpening part call => do
        let (body, rest) ← enclosed? n call.name rest
        let (ns, ending, rest) ← nodes? n rest
        return (.insertion part call "" true body :: ns, ending, rest)
      | .definitionOpening call => do
        let (body, rest) ← enclosed? n call.name rest
        let (ns, ending, rest) ← nodes? n rest
        return (.definition call body :: ns, ending, rest)

/-- The nodes up to a closing tag that has the given name or none. -/
def enclosed? : Nat → (name : String) → List Piece → Option (List Node × List Piece)
  | 0, _, _ => none
  | n + 1, name, ps => do
    let (body, ending, rest) ← nodes? n ps
    match ending with
    | .closing closed => if closed.isEmpty || closed == name then return (body, rest) else none
    | _ => none

/-- A block up to the tag that closes `name`; further conditions nest in the other branch. -/
def block? : Nat → (name : String) → Call → List Piece → Option (Node × List Piece)
  | 0, _, _, _ => none
  | n + 1, name, call, ps => do
    let (body, ending, rest) ← nodes? n ps
    match ending with
    | .closing closed => if closed == name then return (.block call body [] false, rest) else none
    | .otherwise =>
      let (inverse, ending, rest) ← nodes? n rest
      match ending with
      | .closing closed => if closed == name then return (.block call body inverse true, rest) else none
      | _ => none
    | .otherwiseIf inner =>
      let (node, rest) ← block? n name inner rest
      return (.block call body [node] true, rest)
    | .nothing => none

end

/-- The nodes of a template; none when it is malformed. -/
def parse? (source : String) : Option (List Node) := do
  let cs := source.toList
  let ps ← pieces? (cs.length + 1) {} cs
  let (nodes, ending, _) ← nodes? (3 * ps.length + 3) (trimmed none ps)
  match ending with
  | .nothing => return nodes
  | _ => none

end PromptPack.Template
