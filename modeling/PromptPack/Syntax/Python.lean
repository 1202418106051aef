import PromptPack.Outline.Hit
import PromptPack.Syntax.Token
/-!
# Reading Python

The source is cut into rows, logical lines and comments on lines of their own, and indentation
gathers rows into blocks. A comment that stands at least as deep as the block before it belongs to
that block; one that stands less deep belongs to it only when the next line of code does.
-/

namespace PromptPack.Syntax.Python

open Outline

/-! ## Tokens -/

/-- The place behind a text in triple quotes. -/
def skipTriple (closing : List Char) (p : Point) : Point :=
  go p.pos p.rest
where
  go (pos : Nat) : List Char → Point
    | [] => ⟨pos, []⟩
    | [c] => ⟨pos + c.utf8Size, []⟩
    | c :: d :: cs =>
      if closing.isPrefixOf (c :: d :: cs) then Point.skip closing.length ⟨pos, c :: d :: cs⟩
      else if c == '\\' then go (pos + 1 + d.utf8Size) cs
      else go (pos + c.utf8Size) (d :: cs)

def isQuote (c : Char) : Bool := c == '"' || c == '\''

/-- Whether a word may stand before the quotes of a text. -/
def isTextPrefix (letters : List Char) : Bool :=
  letters.length ≤ 2 && letters.all "rRbBuUfF".toList.contains

def isFormatted (letters : List Char) : Bool := letters.any fun c => c == 'f' || c == 'F'

/-- The quotes that open a text here, which also close it. -/
def quotesAt (quote : Char) (p : Point) : List Char :=
  if [quote, quote, quote].isPrefixOf p.rest then [quote, quote, quote] else [quote]

mutual

/-- Reads a text from its quotes on, given the letters before them: the place behind it, and the
comments among the code that is written in it. -/
def scanText : Nat → (letters : List Char) → Point → Point × List Token
  | 0, _, p => (p, [])
  | n + 1, letters, p =>
    match p.head? with
    | none => (p, [])
    | some quote =>
      let quotes := quotesAt quote p
      if isFormatted letters then scanFormatted n quotes (p.skip quotes.length)
      else if quotes.length == 3 then (skipTriple quotes (p.skip 3), [])
      else (p.next.skipQuoted quote true, [])

/-- Reads the characters of a formatted text. A doubled brace stands for itself, a single one opens
code. -/
def scanFormatted : Nat → (quotes : List Char) → Point → Point × List Token
  | 0, _, p => (p, [])
  | n + 1, quotes, p =>
    match p.rest with
    | [] => (p, [])
    | '\\' :: _ => scanFormatted n quotes (p.skip 2)
    | '\x7b' :: '\x7b' :: _ => scanFormatted n quotes (p.skip 2)
    | '\x7b' :: _ =>
      let (q, found) := scanCode n 0 [] p.next
      let (r, later) := scanFormatted n quotes q
      (r, found ++ later)
    | c :: _ =>
      if quotes.isPrefixOf p.rest then (p.skip quotes.length, [])
      else if quotes.length == 1 && c == '\n' then (p, [])
      else scanFormatted n quotes p.next

/-- Reads code up to the brace that closes it, given how many brackets are open in it and the letters
of the word that has been begun. -/
def scanCode : Nat → (open_ : Nat) → (letters : List Char) → Point → Point × List Token
  | 0, _, _, p => (p, [])
  | n + 1, open_, letters, p =>
    match p.rest with
    | [] => (p, [])
    | c :: rest =>
      if c == '\x7d' && open_ == 0 then (p.next, [])
      else if c == '#' then
        let q := p.skipLine
        let (r, later) := scanCode n open_ [] q
        (r, Token.between .comment p q false :: later)
      else if isQuote c then
        let (q, found) := scanText n (if isTextPrefix letters then letters else []) p
        let (r, later) := scanCode n open_ [] (if q.pos ≤ p.pos then p.next else q)
        (r, found ++ later)
      else if c == ':' && open_ == 0 && rest.head? != some '=' then scanFormat n p.next
      else if ['(', '[', '\x7b'].contains c then scanCode n (open_ + 1) [] p.next
      else if [')', ']', '\x7d'].contains c then scanCode n (open_ - 1) [] p.next
      else scanCode n open_ (if Text.isWord c then letters ++ [c] else []) p.next

/-- Reads how a value is written, up to the brace that closes its code. -/
def scanFormat : Nat → Point → Point × List Token
  | 0, p => (p, [])
  | n + 1, p =>
    match p.rest with
    | [] => (p, [])
    | '\x7d' :: _ => (p.next, [])
    | '\x7b' :: _ =>
      let (q, found) := scanCode n 0 [] p.next
      let (r, later) := scanFormat n q
      (r, found ++ later)
    | _ :: _ => scanFormat n p.next

end

/-- The place behind a text, given the letters before its quotes. -/
def skipText (letters : List Char) (p : Point) : Point :=
  (scanText (2 * p.rest.length + 2) letters p).1

/-- The comments in the code that is written in a text. -/
def commentsWithin (t : Token) : List Token :=
  let p : Point := ⟨t.start, t.text.toList⟩
  let q := p.skipWhile (!isQuote ·)
  if t.kind == .text then (scanText (2 * q.rest.length + 2) (p.upTo q) q).2 else []

/-- The marks of two characters that hold a colon. -/
def pairs : List String := [":=", "->"]

/-- One token from a character that is not blank. A line end behind a backslash is a mark. -/
def read (p : Point) : Kind × Point :=
  match p.rest with
  | [] => (.mark, p)
  | '\\' :: '\n' :: _ => (.mark, p.skip 2)
  | '\\' :: '\r' :: '\n' :: _ => (.mark, p.skip 3)
  | c :: _ =>
    if c == '#' then (.comment, p.skipLine)
    else if isQuote c then (.text, skipText [] p)
    else if c.isDigit then (.number, p.skipWhile fun d => Text.isWord d || d == '.')
    else if Text.isWord c then
      let q := p.skipWhile Text.isWord
      let letters := p.upTo q
      if isTextPrefix letters && (q.head?.map isQuote).getD false then
        (.text, skipText letters q)
      else (.word, q)
    else if pairs.any p.sees then (.mark, p.skip 2)
    else (.mark, p.next)

/-- Whether a token is a line end that does not count. -/
def isContinuation (t : Token) : Bool := Text.startsWith t.text "\\" && t.kind == .mark

/-! ## Rows -/

/-- The offset of the first character of each line that has one, with the width of the blanks
before it. -/
def margins (source : List Char) : List (Nat × Nat) :=
  go true 0 0 source
where
  go (blank : Bool) (pos width : Nat) : List Char → List (Nat × Nat)
    | [] => []
    | c :: cs =>
      let next := pos + c.utf8Size
      if c == '\n' then go true next 0 cs
      else if !blank then go false next width cs
      else if c == ' ' then go true next (width + 1) cs
      else if c == '\t' then go true next (width + 8) cs
      else if c == '\r' || c == '\x0c' then go true next 0 cs
      else (pos, width) :: go false next width cs

inductive Row
  /-- A logical line; its end lies behind a comment on the same line. -/
  | code (indent : Nat) (trees : List Tree) (stop : Nat)
  /-- A comment on a line of its own. -/
  | remark (indent stop : Nat)

/-- Cuts trees into logical lines. -/
def logicalLines : List Tree → List (List Tree)
  | [] => []
  | t :: ts =>
    match logicalLines ts with
    | [] => [[t]]
    | l :: ls => if (ts.head?.map Tree.fresh).getD true then [t] :: l :: ls else (t :: l) :: ls

def marginOf (table : List (Nat × Nat)) (pos : Nat) : Nat :=
  ((table.find? (·.1 == pos)).map (·.2)).getD 0

def remarks (table : List (Nat × Nat)) (comments : List Token) : List Row :=
  (comments.filter (·.fresh)).map fun c => .remark (marginOf table c.start) c.stop

/-- The rows of a source, from its logical lines and its comments. -/
def rows (table : List (Nat × Nat)) : List (List Tree) → List Token → List Row
  | [], comments => remarks table comments
  | [] :: lines, comments => rows table lines comments
  | (t :: ts) :: lines, comments =>
    let last := ((t :: ts).getLast?.getD t).stop
    let later := comments.dropWhile (·.start < last)
    let next := (lines.head?.bind List.head?).map Tree.start
    let trailing := later.head?.filter fun c => !c.fresh && (next.map (decide <| c.start < ·)).getD true
    remarks table (comments.takeWhile (·.start < t.start)) ++
      .code (marginOf table t.start) (t :: ts) ((trailing.map (·.stop)).getD last) ::
        rows table lines (if trailing.isSome then later.tail else later)

/-- The indentation of the next line of code; there is none at the end. -/
def nextIndent : List Row → Nat
  | [] => 0
  | .code i _ _ :: _ => i
  | .remark .. :: rest => nextIndent rest

/-- The rows from the next line of code on. -/
def dropRemarks : List Row → List Row
  | .remark .. :: rest => dropRemarks rest
  | rest => rest

/-! ## Statements -/

/-- Cuts a line at the colon that ends its header; colons of anonymous functions do not count. -/
def splitHeader (lambdas : Nat) : List Tree → Option (List Tree × Tree × List Tree)
  | [] => none
  | t :: ts =>
    if t.is ":" && lambdas == 0 then some ([], t, ts)
    else
      let lambdas := if t.is "lambda" then lambdas + 1 else if t.is ":" then lambdas - 1 else lambdas
      (splitHeader lambdas ts).map fun (head, colon, rest) => (t :: head, colon, rest)

/-- Words that begin a statement with a header. -/
def headerWords : List String :=
  ["def", "class", "if", "elif", "else", "for", "while", "with", "try", "except", "finally",
    "case", "match", "async"]

/-- Cuts a line at its semicolons. -/
def simpleStatements : List Tree → List (List Tree)
  | [] => []
  | t :: ts =>
    if t.is ";" then [] :: simpleStatements ts
    else
      match simpleStatements ts with
      | [] => [[t]]
      | s :: ss => (t :: s) :: ss

/-- The hit of a statement that imports names. -/
def importHits (s : List Tree) : List Hit :=
  match s, s.getLast? with
  | t :: u :: _, some last =>
    if t.is "import" then [Hit.whole 0 t.start last.stop]
    else if t.is "from" then [Hit.whole (if u.is "__future__" then 2 else 1) t.start last.stop]
    else []
  | _, _ => []

/-- The rule of a definition that a header begins, if it begins one. -/
def definitionRule? : List Tree → Option Nat
  | [] => none
  | t :: ts =>
    let named := (ts.head?.map Tree.isWord).getD false
    if t.is "async" then
      match ts with
      | u :: v :: w :: _ => if u.is "def" && v.isWord && (w.is "(" || !w.isWord) then some 5 else none
      | _ => none
    else if t.is "def" && named && 1 < ts.length then some 5
    else if t.is "class" && named then some 6
    else none

/-- The hit of a definition, given its header, the colon and where its body lies. -/
def definitionHits (head : List Tree) (colon : Tree) (bodyStart stop : Nat) : List Hit :=
  match head, definitionRule? head with
  | t :: _, some rule =>
    let part := if rule == 5 then Part.signature else Part.header
    [⟨rule, part, ⟨t.start, stop⟩, some ⟨bodyStart, stop⟩, some colon.stop⟩]
  | _, _ => []

/-- The hits of a line that opens no block. A body that is lacking takes no room at its end. -/
def lineHits (trees : List Tree) (stop : Nat) : List Hit :=
  match trees with
  | [] => []
  | t :: ts =>
    if t.is "@" then [Hit.whole 4 t.start stop]
    else if headerWords.any t.is then
      match splitHeader 0 (t :: ts) with
      | some (head, colon, body) =>
        definitionHits head colon ((body.head?.map Tree.start).getD stop) stop ++
          (simpleStatements body).flatMap importHits
      | none => []
    else (simpleStatements (t :: ts)).flatMap importHits

/-- The colon of a line that ends with its header. -/
def opensBlock? (trees : List Tree) : Option (List Tree × Tree) :=
  match splitHeader 0 trees with
  | some (head, colon, []) => some (head, colon)
  | _ => none

/-- Reads the rows of a block, and gives its hits, its end and the rows behind it. -/
def readBlock : Nat → (indent stop : Nat) → List Row → List Hit × Nat × List Row
  | 0, _, stop, rest => ([], stop, rest)
  | _, _, stop, [] => ([], stop, [])
  | n + 1, indent, stop, .remark i s :: rest =>
    if indent ≤ i || indent ≤ nextIndent rest then readBlock n indent s rest
    else ([], stop, .remark i s :: rest)
  | n + 1, indent, stop, .code i trees s :: rest =>
    if i < indent then ([], stop, .code i trees s :: rest)
    else
      match opensBlock? trees, dropRemarks rest with
      | some (head, colon), .code j (b :: bs) s' :: rest' =>
        if indent < j then
          let (inner, stop', rest'') := readBlock n j s (.code j (b :: bs) s' :: rest')
          let (later, last, rest''') := readBlock n indent stop' rest''
          (definitionHits head colon b.start stop' ++ inner ++ later, last, rest''')
        else
          let (later, last, rest'') := readBlock n indent s rest
          (lineHits trees s ++ later, last, rest'')
      | _, _ =>
        let (later, last, rest') := readBlock n indent s rest
        (lineHits trees s ++ later, last, rest')

/-- What the outline of a source may keep. -/
def hits (source : List Char) : List Hit :=
  let tokens := (tokenize read source).filter (!isContinuation ·)
  let comments := tokens.filter (·.isComment)
  let lines := logicalLines (treesOf (significant tokens))
  let rows := rows (margins source) lines comments
  (comments ++ tokens.flatMap commentsWithin).map (fun t => Hit.whole 3 t.start t.stop) ++
    (readBlock (rows.length + 1) 0 0 rows).1

end PromptPack.Syntax.Python
