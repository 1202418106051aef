import PromptPack.Text.Blank
import PromptPack.Text.Word
/-!
# Tokens and bracketed groups

A source is cut into tokens, each with its span in bytes. Tokens between matching brackets are
gathered into groups, so that a reader of declarations can skip what it does not look into.
-/

namespace PromptPack.Syntax

/-- A place in a source: its byte offset and the characters from there on. -/
structure Point where
  pos : Nat
  rest : List Char

namespace Point

def start (source : List Char) : Point := ⟨0, source⟩

def head? (p : Point) : Option Char := p.rest.head?

/-- The place one character further. -/
def next (p : Point) : Point :=
  match p.rest with
  | [] => p
  | c :: cs => ⟨p.pos + c.utf8Size, cs⟩

/-- The place `n` characters further. -/
def skip : Nat → Point → Point
  | 0, p => p
  | n + 1, p => skip n p.next

/-- The place behind the characters that satisfy the test. -/
def skipWhile (test : Char → Bool) (p : Point) : Point :=
  go p.pos p.rest
where
  go (pos : Nat) : List Char → Point
    | [] => ⟨pos, []⟩
    | c :: cs => if test c then go (pos + c.utf8Size) cs else ⟨pos, c :: cs⟩

/-- Whether the characters at this place begin with `text`. -/
def sees (p : Point) (text : String) : Bool := text.toList.isPrefixOf p.rest

/-- The place behind the next occurrence of `text`, or the end. -/
def skipPast (text : List Char) (p : Point) : Point :=
  go p.pos p.rest
where
  go (pos : Nat) : List Char → Point
    | [] => ⟨pos, []⟩
    | c :: cs =>
      if text.isPrefixOf (c :: cs) then skip text.length ⟨pos, c :: cs⟩
      else go (pos + c.utf8Size) cs

/-- The place behind the block comment that begins here, if one does and it is closed. -/
def blockComment? (p : Point) : Option Point :=
  match p.rest with
  | '/' :: '*' :: cs => go (p.pos + 2) cs
  | _ => none
where
  go (pos : Nat) : List Char → Option Point
    | [] => none
    | '*' :: '/' :: cs => some ⟨pos + 2, cs⟩
    | c :: cs => go (pos + c.utf8Size) cs

/-- The place behind a quoted text whose opening mark has been read: past the closing mark, past
the end of the source, or at a line end when lines end the text. A backslash hides the character
after it. -/
def skipQuoted (mark : Char) (oneLine : Bool) (p : Point) : Point :=
  go p.pos p.rest
where
  go (pos : Nat) : List Char → Point
    | [] => ⟨pos, []⟩
    | c :: cs =>
      if c == mark then ⟨pos + c.utf8Size, cs⟩
      else if oneLine && c == '\n' then ⟨pos, c :: cs⟩
      else if c == '\\' then
        match cs with
        | [] => ⟨pos + 1, []⟩
        | d :: ds => go (pos + 1 + d.utf8Size) ds
      else go (pos + c.utf8Size) cs

/-- The place at the end of the line. -/
def skipLine (p : Point) : Point := p.skipWhile (· != '\n')

/-- The characters from `p` to a later place of the same source. -/
def upTo (p q : Point) : List Char :=
  go (q.pos - p.pos) p.rest
where
  go : Nat → List Char → List Char
    | _, [] => []
    | 0, _ => []
    | n + 1, c :: cs => c :: go (n + 1 - c.utf8Size) cs

end Point

inductive Kind
  | word
  | number
  | text
  | mark
  | comment
  deriving DecidableEq, Repr, Inhabited

structure Token where
  kind : Kind
  text : String
  start : Nat
  stop : Nat
  /-- A line ended between the token before and this one. -/
  fresh : Bool
  /-- The end of the comments behind the token that belong to a statement which it ends. -/
  reach : Nat := stop
  deriving DecidableEq, Repr, Inhabited

/-- Whether the token is the given word or mark. -/
def Token.is (t : Token) (text : String) : Bool :=
  (t.kind == .word || t.kind == .mark) && t.text == text

def Token.isComment (t : Token) : Bool := t.kind == .comment

/-- The token between two places. -/
def Token.between (kind : Kind) (p q : Point) (fresh : Bool) : Token :=
  { kind, text := String.ofList (p.upTo q), start := p.pos, stop := q.pos, fresh }

/-- Cuts a source into tokens by a reader of one token, which is given the token before, if it is no
comment, and a place with a character that is not blank. A byte order mark in front counts as a
blank. The number bounds how many tokens and blanks are read. -/
def tokensBehind (read : Option Token → Point → Kind × Point) :
    Nat → Bool → Option Token → Point → List Token
  | 0, _, _, _ => []
  | n + 1, fresh, before, p =>
    match p.rest with
    | [] => []
    | c :: _ =>
      if Text.isBlank c || (c == '\uFEFF' && p.pos == 0) then
        tokensBehind read n (fresh || c == '\n') before p.next
      else
        let (kind, q) := read before p
        let q := if q.pos ≤ p.pos then p.next else q
        let t := Token.between kind p q fresh
        t :: tokensBehind read n false (if t.isComment then before else some t) q

/-- Cuts a source into tokens by a reader that looks ahead only. -/
def tokensFrom (read : Point → Kind × Point) (n : Nat) (fresh : Bool) (p : Point) : List Token :=
  tokensBehind (fun _ => read) n fresh none p

/-- The tokens of a source. -/
def tokenize (read : Point → Kind × Point) (source : List Char) : List Token :=
  tokensFrom read (source.length + 1) true (Point.start source)

/-- The tokens that are no comments; a line end before a comment counts for the token after it. -/
def significant : List Token → List Token
  | [] => []
  | t :: ts => go t.fresh (t :: ts)
where
  go (fresh : Bool) : List Token → List Token
    | [] => []
    | t :: ts =>
      if t.isComment then go (fresh || t.fresh) ts
      else { t with fresh := fresh || t.fresh } :: go false ts

/-! ## Groups -/

inductive Tree
  | leaf (token : Token)
  /-- What stands between two matching brackets. -/
  | group (opener : Token) (items : List Tree) (closer : Token)
  deriving Inhabited

namespace Tree

def lastToken : Tree → Token
  | leaf t => t
  | group _ _ c => c

def firstToken : Tree → Token
  | leaf t => t
  | group o _ _ => o

def start (t : Tree) : Nat := t.firstToken.start

def stop (t : Tree) : Nat := t.lastToken.stop

def fresh (t : Tree) : Bool := t.firstToken.fresh

/-- Whether the tree is the single word or mark. -/
def is (t : Tree) (text : String) : Bool :=
  match t with
  | leaf token => token.is text
  | group .. => false

def isWord (t : Tree) : Bool :=
  match t with
  | leaf token => token.kind == .word
  | group .. => false

def isComment (t : Tree) : Bool :=
  match t with
  | leaf token => token.isComment
  | group .. => false

/-- Whether the tree is a group opened by the given bracket. -/
def opensWith (t : Tree) (bracket : String) : Bool :=
  match t with
  | group o _ _ => o.text == bracket
  | leaf _ => false

def items (t : Tree) : List Tree :=
  match t with
  | group _ is _ => is
  | leaf _ => []

/-- Whether the tree is a group that the source ends without closing. -/
def isCut (t : Tree) : Bool :=
  match t with
  | group _ _ c => c.start == c.stop
  | leaf _ => false

end Tree

/-- The closing bracket that belongs to an opening one. -/
def closing? : String → Option String
  | "(" => some ")"
  | "[" => some "]"
  | "\x7b" => some "\x7d"
  | _ => none

def isClosing (text : String) : Bool := text == ")" || text == "]" || text == "\x7d"

/-- Gathers tokens into trees up to the closing bracket of one of the open groups, the innermost
first. A bracket without its counterpart stays a leaf. -/
def gather : Nat → (open_ : List String) → List Token → List Tree × List Token
  | 0, _, ts => ([], ts)
  | _, _, [] => ([], [])
  | n + 1, open_, t :: ts =>
    let lone (_ : Unit) : List Tree × List Token :=
      let (trees, rest) := gather n open_ ts
      (.leaf t :: trees, rest)
    if t.kind != .mark then lone ()
    else
      match closing? t.text with
      | some close =>
        match gather n (close :: open_) ts with
        | (inner, c :: rest) =>
          let (trees, rest') := gather n open_ (if c.text == close then rest else c :: rest)
          if c.text == close then (.group t inner c :: trees, rest')
          else (.leaf t :: (inner ++ trees), rest')
        | (inner, []) => (.leaf t :: inner, [])
      | none => if isClosing t.text && open_.contains t.text then ([], t :: ts) else lone ()

/-- The brackets that are still open behind a list of tokens, the innermost first; none if a closing
one has no counterpart. -/
def stillOpen? (open_ : List String) : List Token → Option (List String)
  | [] => some open_
  | t :: ts =>
    if t.kind != .mark then stillOpen? open_ ts
    else if (closing? t.text).isSome then stillOpen? (t.text :: open_) ts
    else if isClosing t.text then
      match open_ with
      | o :: outer => if closing? o == some t.text then stillOpen? outer ts else none
      | [] => none
    else stillOpen? open_ ts

/-- The tokens with a last one that closes the block in which the source ends, if that block is all
that is left open. The added token takes no room. -/
def closeLast (tokens : List Token) : List Token :=
  match tokens.getLast?, stillOpen? [] tokens with
  | some t, some ["\x7b"] => 
    tokens ++ [{ kind := .mark, text := "\x7d", start := t.stop, stop := t.stop, fresh := false }]
  | _, _ => tokens

/-- The trees of a list of tokens. -/
def treesOf (tokens : List Token) : List Tree := (gather (2 * tokens.length + 1) [] tokens).1

end PromptPack.Syntax
