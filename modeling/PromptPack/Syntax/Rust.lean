import PromptPack.Outline.Hit
import PromptPack.Syntax.Token
/-!
# Reading Rust

Items are found wherever a statement may begin, at any depth; what stands in the arguments of a
macro or of an attribute is no item. Functions lose their bodies, and of implementations, traits
and modules the members are listed.
-/

namespace PromptPack.Syntax.Rust

open Outline

/-! ## Tokens -/

/-- The place behind a block comment, given how many are open; they nest. -/
def skipBlock (p : Point) : Option Point :=
  go 0 p.pos p.rest
where
  go (open_ : Nat) (pos : Nat) : List Char → Option Point
    | '/' :: '*' :: cs => go (open_ + 1) (pos + 2) cs
    | '*' :: '/' :: cs => if open_ ≤ 1 then some ⟨pos + 2, cs⟩ else go (open_ - 1) (pos + 2) cs
    | c :: cs => go open_ (pos + c.utf8Size) cs
    | [] => none

/-- The place behind a raw string whose prefix letters and hashes have been counted. -/
def skipRaw (hashes : Nat) (p : Point) : Point :=
  p.skipPast ('"' :: List.replicate hashes '#')

/-- The place behind a literal that a letter prefix opens, if one stands here. -/
def skipPrefixed? (p : Point) : Option Point :=
  let letters := p.rest.takeWhile fun c => c == 'b' || c == 'r' || c == 'c'
  let q := p.skip letters.length
  if letters.isEmpty || 2 < letters.length then none
  else if letters.contains 'r' then
    let hashes := (q.rest.takeWhile (· == '#')).length
    let q := q.skip hashes
    if q.head? == some '"' then some (skipRaw hashes q.next) else none
  else
    match q.head? with
    | some '"' => some (q.next.skipQuoted '"' false)
    | some '\'' => if letters == ['b'] then some (q.next.skipQuoted '\'' true) else none
    | _ => none

/-- What follows a single quote: a character or a lifetime. -/
def readQuote (p : Point) : Kind × Point :=
  match p.rest with
  | '\'' :: '\\' :: _ => (.text, p.next.skipQuoted '\'' true)
  | '\'' :: _ :: '\'' :: _ => (.text, p.skip 3)
  | _ => (.mark, p.next.skipWhile Text.isWord)

/-- Whether a comment that documents code begins here. -/
def seesDoc (p : Point) : Bool := p.sees "//!" || (p.sees "///" && !p.sees "////")

/-- The marks of two characters that matter for telling angle brackets from operators. -/
def pairs : List String := ["->", "=>", "<=", ">=", "!=", "::"]

/-- One token from a character that is not blank. -/
def read (p : Point) : Kind × Point :=
  match p.rest with
  | [] => (.mark, p)
  | c :: _ =>
    if seesDoc p then (.comment, p.skipLine.next)
    else if p.sees "//" then (.comment, p.skipLine)
    else if p.sees "/*" then
      match skipBlock p with
      | some q => (.comment, q)
      | none => (.text, p.skipWhile fun _ => true)
    else if c == '"' then (.text, p.next.skipQuoted c false)
    else if c == '\'' then readQuote p
    else if c.isDigit then (.number, p.skipWhile Text.isWord)
    else if Text.isWord c then
      match skipPrefixed? p with
      | some q => (.text, q)
      | none => if p.sees "r#" then (.word, (p.skip 2).skipWhile Text.isWord)
        else (.word, p.skipWhile Text.isWord)
    else if pairs.any p.sees then (.mark, p.skip 2)
    else (.mark, p.next)

/-- The place behind a first line that names an interpreter, if there is one. -/
def skipInterpreter (p : Point) : Point :=
  match p.rest with
  | '#' :: '!' :: cs =>
    if (cs.dropWhile fun c => Text.isBlank c).head? == some '[' then p else p.skipLine
  | _ => p

/-! ## Items -/

/-- Words with which an item begins, and the mark of an attribute. -/
def itemStarts : List String :=
  ["pub", "fn", "struct", "enum", "trait", "impl", "mod", "use", "type", "const", "static", "extern",
    "unsafe", "async", "#"]

/-- Words behind which a type or an expression goes on. -/
def openWords : List String :=
  ["unsafe", "extern", "async", "const", "dyn", "impl", "mut", "as", "for", "where", "in", "ref",
    "move", "return", "break", "crate", "pub", "default", "use", "let", "else"]

/-- Whether a type or an expression may end with a tree. -/
def endsOperand : Tree → Bool
  | .leaf t => (t.kind == .word && !openWords.contains t.text) || t.kind == .number
  | .group .. => true

/-- A semicolon that takes no room, behind a tree. -/
def lackingSemicolon (t : Tree) : Tree :=
  .leaf { kind := .mark, text := ";", start := t.stop, stop := t.stop, fresh := false }

/-- Whether the semicolon between two trees is lacking: the second begins the next item. -/
def lacksSemicolon (t u : Tree) : Bool := endsOperand t && itemStarts.any u.is

/-- The semicolon in which some trees end. -/
def toSemicolon : List Tree → Option Tree
  | [] => none
  | [t] => if t.is ";" then some t else none
  | t :: u :: ts =>
    if t.is ";" then some t
    else if lacksSemicolon t u then some (lackingSemicolon t)
    else toSemicolon (u :: ts)

/-- The semicolon or block that ends a header; blocks between angle brackets do not. -/
def headerEnd (angles : Nat) : List Tree → Option Tree
  | [] => none
  | t :: ts =>
    if t.is "<" then headerEnd (angles + 1) ts
    else if t.is ">" || (t.is ">=" && 0 < angles) then headerEnd (angles - 1) ts
    else if angles == 0 && (t.is ";" || t.opensWith "\x7b") then some t
    else if t.is "\x7b" then none
    else
      match ts with
      | u :: _ =>
        if angles == 0 && lacksSemicolon t u then some (lackingSemicolon t) else headerEnd angles ts
      | [] => none

def headIs (word : String) : List Tree → Bool
  | [] => false
  | t :: _ => t.is word

def headIsWord : List Tree → Bool
  | [] => false
  | t :: _ => t.isWord

/-- What follows a visibility. -/
def afterVisibility : List Tree → List Tree
  | t :: u :: ts =>
    if t.is "pub" then if u.opensWith "(" then ts else u :: ts
    else t :: u :: ts
  | ts => ts

/-- What follows the words that may stand before a function's keyword. -/
def afterModifiers : List Tree → List Tree
  | [] => []
  | t :: ts =>
    if ["async", "default", "const", "unsafe"].any t.is then afterModifiers ts
    else if t.is "extern" then
      match ts with
      | .leaf u :: rest => if u.kind == .text then afterModifiers rest else afterModifiers (.leaf u :: rest)
      | rest => afterModifiers rest
    else t :: ts

def wholeTo (rule start : Nat) (last : Option Tree) : List Hit :=
  match last with
  | some t => [Hit.whole rule start t.stop]
  | none => []

/-- The hit of an item whose header a block ends; the block has to be closed. -/
def headerHit (rule start : Nat) (last : Option Tree) : List Hit :=
  match last with
  | some t => if t.is ";" || t.isCut then [] else [Hit.header rule start t.stop t.start t.stop]
  | none => []

/-- The hit of a function, behind its keyword. Its parameters may lack their closing bracket. -/
def functionHit (start : Nat) (behind : List Tree) : List Hit :=
  if !headIsWord behind || !behind.any (fun t => t.opensWith "(" || t.is "(") then []
  else
    match headerEnd 0 behind with
    | none => []
    | some t =>
      if t.is ";" then [Hit.whole 12 start t.stop]
      else if t.isCut then []
      else [Hit.signature 14 start t.stop t.start t.stop]

/-- The hit of the item that begins here, if one does. -/
def itemHits (trees : List Tree) : List Hit :=
  match trees, afterVisibility trees with
  | first :: _, t :: ts =>
    if t.is "use" then wholeTo 0 first.start (toSemicolon ts)
    else if t.is "extern" && headIs "crate" ts then wholeTo 1 first.start (toSemicolon ts)
    else if t.is "struct" then wholeTo 6 first.start (headerEnd 0 ts)
    else if t.is "enum" then wholeTo 7 first.start (headerEnd 0 ts)
    else if t.is "union" && headIsWord ts then wholeTo 8 first.start (headerEnd 0 ts)
    else if t.is "type" then
      if (ts.takeWhile fun u => !u.is ";").any fun u => u.is "=" || u.is ">=" then
        wholeTo 9 first.start (toSemicolon ts)
      else []
    else if t.is "static" && headIsWord ts then wholeTo 11 first.start (toSemicolon ts)
    else if t.is "macro_rules" && headIs "!" ts then
      match ts with
      | _ :: _ :: g :: rest =>
        if g.opensWith "\x7b" || !headIs ";" rest then [Hit.whole 13 t.start g.stop]
        else wholeTo 13 t.start rest.head?
      | _ => []
    else if t.is "impl" then headerHit 15 t.start (headerEnd 0 ts)
    else if t.is "unsafe" && headIs "impl" ts then headerHit 15 t.start (headerEnd 0 ts)
    else if t.is "trait" || (t.is "unsafe" && headIs "trait" ts) then
      headerHit 16 first.start (headerEnd 0 ts)
    else if t.is "mod" then
      match headerEnd 0 ts with
      | some e => if e.is ";" then [Hit.whole 18 first.start e.stop]
        else headerHit 17 first.start (some e)
      | none => []
    else
      match afterModifiers (t :: ts) with
      | f :: behind =>
        if f.is "fn" then functionHit first.start behind
        else if t.is "const" && headIsWord ts then wholeTo 10 first.start (toSemicolon ts)
        else []
      | [] => []
  | _, _ => []

/-- Words that begin an expression or type and so are no name of a macro. -/
def operatorWords : List String :=
  ["if", "while", "match", "return", "in", "else", "break", "as", "let", "loop", "move", "mut",
    "ref", "for", "where", "dyn", "impl", "yield", "await"]

/-- Whether a word here may be the name of a macro or a stray word before an item. -/
def isPlainWord (t : Tree) : Bool := t.isWord && !operatorWords.any t.is

def itemWords : List String :=
  ["fn", "impl", "trait", "struct", "enum", "mod", "use", "type", "static", "const", "pub"]

mutual

/-- The hits inside a tree. -/
def hitsInTree : Tree → List Hit
  | .leaf _ => []
  | .group _ items _ => hitsInTrees true items

/-- The hits in a list of trees; the flag tells whether a statement may begin here. -/
def hitsInTrees (begins : Bool) : List Tree → List Hit
  | [] => []
  | [t] => hitsInTree t
  | [t, u] =>
    if t.is "#" && u.opensWith "[" then [Hit.whole 4 t.start u.stop]
    else (if begins then itemHits [t, u] else []) ++ hitsInTree t ++
      hitsInTrees (t.is ";" || t.opensWith "\x7b" || t.is "\x7d") [u]
  | t :: u :: v :: rest =>
    if t.is "#" && u.opensWith "[" then
      Hit.whole 4 t.start u.stop :: hitsInTrees begins (v :: rest)
    else if t.is "#" && u.is "!" && v.opensWith "[" then
      Hit.whole 5 t.start v.stop :: hitsInTrees begins rest
    else
      let here := if begins then itemHits (t :: u :: v :: rest) else []
      if t.is "pub" && u.opensWith "(" then here ++ hitsInTrees false (v :: rest)
      else if isPlainWord t && u.is "!" then
        match v with
        | .group o _ _ => here ++ hitsInTrees (o.text == "\x7b") rest
        | .leaf _ =>
          match rest with
          | .group _ _ _ :: rest' => here ++ hitsInTrees true rest'
          | rest' => here ++ hitsInTrees false rest'
      else
        let begins' := t.is ";" || t.opensWith "\x7b" || t.is "\x7b" || t.is "\x7d" ||
          lacksSemicolon t u || (begins && here.isEmpty && isPlainWord t && itemWords.any u.is)
        here ++ hitsInTree t ++ hitsInTrees begins' (u :: v :: rest)

end

def commentHit (t : Token) : Hit :=
  Hit.whole (if Text.startsWith t.text "//" then 2 else 3) t.start t.stop

/-- What the outline of a source may keep. -/
def hits (source : List Char) : List Hit :=
  let tokens := tokensFrom read (source.length + 1) true (skipInterpreter (Point.start source))
  (tokens.filter (·.isComment)).map commentHit ++
    hitsInTrees true (treesOf (closeLast (significant tokens)))

end PromptPack.Syntax.Rust
