import PromptPack.Outline.Hit
import PromptPack.Syntax.Token
/-!
# Reading CSS

Comments, imports, rule sets, media and keyframes statements and declarations are kept. Blocks of
other at-rules are looked into, but the at-rules themselves are not kept.
-/

namespace PromptPack.Syntax.Css

open Outline

/-! ## Tokens -/

/-- The characters that end a plain word. -/
def isDelimiter (c : Char) : Bool :=
  Text.isBlank c || [',', ';', ':', '\x7b', '\x7d', '(', ')', '[', ']', '"', '\''].contains c

/-- The place behind a plain word; a comment ends it. -/
def skipWord (p : Point) : Point :=
  go p.pos p.rest
where
  go (pos : Nat) : List Char → Point
    | [] => ⟨pos, []⟩
    | '/' :: '*' :: cs => ⟨pos, '/' :: '*' :: cs⟩
    | c :: cs => if isDelimiter c then ⟨pos, c :: cs⟩ else go (pos + c.utf8Size) cs

/-- Whether a line comment begins: two slashes, and in a value no word right behind them. -/
def seesLineComment (inValue : Bool) (p : Point) : Bool :=
  match p.rest with
  | '/' :: '/' :: c :: _ => !inValue || Text.isBlank c
  | '/' :: '/' :: [] => true
  | _ => false

/-- One token from a character that is not blank, given the token before. -/
def read (before : Option Token) (p : Point) : Kind × Point :=
  match p.rest with
  | [] => (.mark, p)
  | c :: _ =>
    let inValue := (before.map fun t => !(t.is "\x7b" || t.is "\x7d" || t.is ";")).getD false
    if let some q := p.blockComment? then (.comment, q)
    else if seesLineComment inValue p then (.comment, p.skipLine)
    else if c == '"' || c == '\'' then (.text, p.next.skipQuoted c true)
    else if isDelimiter c then (.mark, p.next)
    else (.word, skipWord p)

/-! ## Statements -/

/-- What ends a statement of a block. -/
inductive Ending
  | semicolon (t : Tree)
  | block (t : Tree)
  | nothing

/-- A statement: the trees before its ending, and the ending. -/
structure Statement where
  head : List Tree
  ending : Ending

/-- The statements of a list of trees. A closing brace without its counterpart ends what stands
before it, which then is no statement. -/
def statements (head : List Tree) : List Tree → List Statement
  | [] => if head.isEmpty then [] else [⟨head.reverse, .nothing⟩]
  | t :: rest =>
    if t.is "\x7d" then statements [] rest else
    if t.is ";" then ⟨head.reverse, .semicolon t⟩ :: statements [] rest
    else if t.opensWith "\x7b" then ⟨head.reverse, .block t⟩ :: statements [] rest
    else statements (t :: head) rest

/-- The at-keyword of a statement. -/
def keyword? (head : List Tree) : Option String :=
  match head with
  | .leaf t :: _ => if t.kind == .word && Text.startsWith t.text "@" then some t.text else none
  | _ => none

/-- Whether a statement has the form of a declaration: a property, a colon and a value. -/
def isDeclaration : List Tree → Bool
  | p :: c :: _ :: _ => p.isWord && c.is ":"
  | _ => false

def isKeyframes (keyword : String) : Bool := Text.endsWith keyword "keyframes"

/-- The hits of a statement itself, without what is in its block. The block in which the source
ends counts as closed there. -/
def statementHits (nested : Bool) (s : Statement) : List Hit :=
  match s.head with
  | [] => []
  | first :: _ =>
    match keyword? s.head, s.ending with
    | some k, .semicolon t => if k == "@import" then [Hit.whole 1 first.start t.stop] else []
    | some k, .block t =>
      if k == "@media" then
        if t.isCut && s.head.length < 2 then [] else [Hit.whole 3 first.start t.stop]
      else if isKeyframes k then [Hit.whole 4 first.start t.stop]
      else []
    | some _, .nothing => []
    | none, .semicolon t =>
      if isDeclaration s.head then [Hit.whole 5 first.start t.stop] else []
    | none, .block t => [Hit.whole 2 first.start t.stop]
    | none, .nothing =>
      let stop := (s.head.getLast?.getD first).stop
      if nested && isDeclaration s.head then [Hit.whole 5 first.start stop]
      else if s.head.any (·.is "\x7b") && !first.is "\x7b" then [Hit.whole 2 first.start stop]
      else []

/-- Whether the blocks in a statement's block are steps of an animation, not rule sets. -/
def holdsSteps (s : Statement) : Bool := ((keyword? s.head).map isKeyframes).getD false

/-- The hits of statements, those in their blocks included; the number bounds how deep blocks are
nested. -/
def hitsIn : (depth : Nat) → (nested steps : Bool) → List Tree → List Hit
  | 0, _, _, _ => []
  | depth + 1, nested, steps, trees =>
    (statements [] trees).flatMap fun s =>
      (if steps then [] else statementHits nested s) ++
        (match s.ending with
        | .block t => hitsIn depth true (holdsSteps s) t.items
        | _ => [])

/-! ## Heads that cannot be read -/

/-- The colons that no brace opening a block follows before a semicolon or a closing brace, whatever
the characters between belong to. -/
def valueColons (source : List Char) : List Nat :=
  let (_, size, colons) := source.foldr step (false, 0, [])
  colons.map (size - ·)
where
  /-- Whether a brace opens first behind a character, how much stands from it on, and the colons found,
  each as what stands from it on. -/
  step (c : Char) (found : Bool × Nat × List Nat) : Bool × Nat × List Nat :=
    let (opens, size, colons) := found
    let size := size + c.utf8Size
    if c == '\x7b' then (true, size, colons)
    else if c == ';' || c == '\x7d' then (false, size, colons)
    else (opens, size, if c == ':' && !opens then size :: colons else colons)

/-- The single colons of a selector. -/
def colonsOf : List Tree → List Nat
  | t :: u :: ts =>
    if t.is ":" && u.is ":" then colonsOf ts
    else (if t.is ":" then [t.start] else []) ++ colonsOf (u :: ts)
  | [t] => if t.is ":" then [t.start] else []
  | [] => []

/-- Whether a media query compares. -/
def compares (head : List Tree) : Bool :=
  head.any fun t => t.items.any fun u => u.isWord && ["<", ">", "<=", ">=", "="].contains (wordOf u)
where
  wordOf (t : Tree) : String := t.firstToken.text

/-- Whether a statement of the sheet cannot be read, and nothing behind it: a selector with a colon
that is taken to give a value, or a media query that compares. -/
def isUnreadable (colons : List Nat) (s : Statement) : Bool :=
  match keyword? s.head, s.ending with
  | none, .block _ => (colonsOf s.head).any colons.contains
  | some k, _ => k == "@media" && compares s.head
  | _, _ => false

/-- The trees of the statements that can be read. -/
def readable (colons : List Nat) (trees : List Tree) : List Tree :=
  (((statements [] trees).takeWhile (!isUnreadable colons ·)).flatMap fun s =>
    s.head ++ match s.ending with
    | .semicolon t => [t]
    | .block t => [t]
    | .nothing => [])

/-- What the outline of a source may keep. -/
def hits (source : List Char) : List Hit :=
  let tokens := tokensBehind read (source.length + 1) true none (Point.start source)
  let comments := tokens.filter fun t => t.isComment && Text.startsWith t.text "/*"
  comments.map (fun t => Hit.whole 0 t.start t.stop) ++
    hitsIn (tokens.length + 1) false false
      (readable (valueColons source) (treesOf (closeLast (significant tokens))))

end PromptPack.Syntax.Css
