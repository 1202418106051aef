import PromptPack.Outline.Hit
import PromptPack.Syntax.Token
/-!
# Reading Go

Package and import clauses, type declarations and comments are kept; functions and methods lose
their bodies. A line end closes a statement behind a token that can end one.
-/

namespace PromptPack.Syntax.Go

open Outline

/-! ## Tokens -/

def isName (c : Char) : Bool := Text.isWord c

/-- One token from a character that is not blank. -/
def read (p : Point) : Kind × Point :=
  match p.rest with
  | [] => (.mark, p)
  | c :: _ =>
    if p.sees "//" then (.comment, p.skipLine)
    else if let some q := p.blockComment? then (.comment, q)
    else if c == '"' || c == '\'' then (.text, p.next.skipQuoted c true)
    else if c == '\x60' then (.text, p.next.skipPast ['\x60'])
    else if c.isDigit then (.number, p.skipWhile fun d => isName d || d == '.')
    else if isName c then (.word, p.skipWhile isName)
    else if p.sees "++" || p.sees "--" then (.mark, p.skip 2)
    else (.mark, p.next)

/-- Words that leave a statement open at the end of a line. -/
def openWords : List String :=
  ["case", "chan", "const", "default", "defer", "else", "for", "func", "go", "goto", "if", "import",
    "interface", "map", "package", "range", "select", "struct", "switch", "type", "var"]

/-- Whether a line end behind the token closes the statement. -/
def endsStatement (t : Token) : Bool :=
  match t.kind with
  | .word => !openWords.contains t.text
  | .number => true
  | .text => true
  | .mark => [")", "]", "\x7d", "++", "--"].contains t.text
  | .comment => false

/-! ## Declarations -/

/-- The statements of a list of trees. -/
def statements : List Tree → List (List Tree)
  | [] => []
  | t :: rest =>
    if t.is ";" then statements rest
    else
      match rest with
      | [] => [[t]]
      | u :: _ =>
        if u.is ";" || (u.fresh && endsStatement t.lastToken) then [t] :: statements rest
        else
          match statements rest with
          | [] => [[t]]
          | s :: ss => (t :: s) :: ss

/-- The span of a statement. -/
def spanOf : List Tree → Option (Nat × Nat)
  | [] => none
  | t :: ts => some (t.start, ((t :: ts).getLast?.getD t).stop)

def wholeOf (rule : Nat) (s : List Tree) : List Hit :=
  match spanOf s with
  | some (a, b) => [Hit.whole rule a b]
  | none => []

mutual

/-- The type declarations within a tree. -/
def typesIn : Tree → List Hit
  | .leaf _ => []
  | .group o items _ =>
    (if o.text == "\x7b" then
      (statements items).flatMap fun s => wholeOf 2 (s.dropWhile (!·.is "type"))
    else []) ++ typesInAll items

def typesInAll : List Tree → List Hit
  | [] => []
  | t :: ts => typesIn t ++ typesInAll ts

end

/-- The body of a function among the trees behind its name: a block that belongs to no type. -/
def bodyOf? : List Tree → Option Tree
  | [] => none
  | [t] => if t.opensWith "\x7b" then some t else none
  | t :: u :: rest =>
    if t.opensWith "\x7b" then some t
    else if t.is "interface" || t.is "struct" then bodyOf? rest
    else bodyOf? (u :: rest)

/-- The hit of a function or method, when it has a name and a body. -/
def functionHits (s : List Tree) : List Hit :=
  match s with
  | f :: u :: rest =>
    let (rule, behind) :=
      if u.isWord then (4, rest)
      else if u.opensWith "(" && (rest.head?.map Tree.isWord).getD false then (5, rest.tail)
      else (4, [])
    match bodyOf? behind with
    | some body => [Hit.signature rule f.start body.stop body.start body.stop]
    | none => []
  | _ => []

/-- Whether the tree is an opening bracket without its counterpart. -/
def isOpen (t : Tree) : Bool := t.is "(" || t.is "[" || t.is "\x7b"

/-- The hits of a statement of the file. -/
def topHits (s : List Tree) : List Hit :=
  match s with
  | [] => []
  | t :: _ =>
    (if t.is "package" then if s.length < 2 then [] else wholeOf 0 s
    else if t.is "import" then if s.length < 2 || s.any isOpen then [] else wholeOf 1 s
    else if t.is "type" then if s.any isOpen then [] else wholeOf 2 s
    else if t.is "func" then functionHits s
    else []) ++ typesInAll s

/-- What the outline of a source may keep. -/
def hits (source : List Char) : List Hit :=
  let tokens := tokenize read source
  (tokens.filter (·.isComment)).map (fun t => Hit.whole 3 t.start t.stop) ++
    (statements (treesOf (significant tokens))).flatMap topHits

end PromptPack.Syntax.Go
