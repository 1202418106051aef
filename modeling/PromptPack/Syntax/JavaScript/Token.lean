import PromptPack.Syntax.Token
/-!
# Tokens of JavaScript

A slash begins a regular expression, and an angle bracket begins markup, where no operand stands
before it. Code inside templates and markup reads as a parenthesised expression between two texts.
-/

namespace PromptPack.Syntax.JavaScript

/-- What the place being read lies in. -/
inductive Mode
  /-- Code, with the number of braces that are open in it. -/
  | code (braces : Nat)
  | template
  /-- A tag of markup; whether it closes an element. -/
  | tag (closes : Bool)
  /-- Between the tags of an element. -/
  | children

def isName (c : Char) : Bool := Text.isWord c || c == '$' || c == '#'

/-- Whether a character ends a comment that takes the rest of its line. -/
def endsLine (c : Char) : Bool := c == '\n' || c == '\r' || c == '\u2028' || c == '\u2029'

/-- Words behind which an expression may begin. -/
def openWords : List String :=
  ["await", "case", "default", "delete", "do", "else", "extends", "in", "instanceof", "new", "of",
    "return", "throw", "typeof", "void", "yield"]

/-- Whether a token can end an operand. -/
def endsOperand (t : Token) : Bool :=
  match t.kind with
  | .word => !openWords.contains t.text
  | .number => true
  | .text => true
  | .mark => [")", "]", "\x7d", "++", "--"].contains t.text
  | .comment => false

/-- The place behind a regular expression whose slash has been read, if it is closed on its
line. -/
def skipPattern? (p : Point) : Option Point :=
  (go false p.pos p.rest).map (·.skipWhile isName)
where
  go (inClass : Bool) (pos : Nat) : List Char → Option Point
    | [] => none
    | [c] => if c == '/' && !inClass then some ⟨pos + 1, []⟩ else none
    | c :: d :: cs =>
      if c == '\n' then none
      else if c == '\\' then go inClass (pos + 1 + d.utf8Size) cs
      else if c == '/' && !inClass then some ⟨pos + 1, d :: cs⟩
      else
        let inClass := if c == '[' then true else if c == ']' then false else inClass
        go inClass (pos + c.utf8Size) (d :: cs)

/-- The marks of more than one character, longer ones first. -/
def longMarks : List String :=
  ["...", "===", "!==", ">>=", "<<=", "**=", "&&=", "||=", "??=", "=>", "==", "!=", "<=", ">=",
    "&&", "||", "??", "?.", "++", "--", "+=", "-=", "*=", "/=", "%=", "|=", "&=", "^="]

/-- Whether markup begins at an angle bracket: a name or the end of an empty tag follows. -/
def seesMarkup (p : Point) : Bool :=
  match p.rest with
  | '<' :: c :: _ => c == '>' || (isName c && !c.isDigit)
  | _ => false

/-- One token of code from a character that is not blank, given whether an operand ends before
it. -/
def readCode (behindOperand behindBlock : Bool) (p : Point) : Kind × Point :=
  match p.rest with
  | [] => (.mark, p)
  | c :: _ =>
    if p.sees "//" then (.comment, p.skipWhile fun d => !endsLine d)
    else if p.sees "<!--" || (p.pos == 0 && p.sees "#!") then (.comment, p.skipLine)
    else if let some q := p.blockComment? then (.comment, q)
    else if c == '"' || c == '\'' then (.text, p.next.skipQuoted c true)
    else if c.isDigit then (.number, p.skipWhile fun d => isName d || d == '.')
    else if isName c then (.word, p.skipWhile isName)
    else
      let pattern := if c == '/' && (!behindOperand || behindBlock) then skipPattern? p.next else none
      match pattern with
      | some q => (.text, q)
      | none =>
        match longMarks.find? p.sees with
        | some m => (.mark, p.skip m.length)
        | none => (.mark, p.next)

/-- The place behind the literal characters of a template. -/
def skipTemplate (p : Point) : Point :=
  go p.pos p.rest
where
  go (pos : Nat) : List Char → Point
    | [] => ⟨pos, []⟩
    | '\x60' :: cs => ⟨pos, '\x60' :: cs⟩
    | '$' :: '\x7b' :: cs => ⟨pos, '$' :: '\x7b' :: cs⟩
    | '\\' :: d :: cs => go (pos + 1 + d.utf8Size) cs
    | c :: cs => go (pos + c.utf8Size) cs

/-- Words with a parenthesis and a statement behind them. -/
def headWords : List String := ["if", "while", "for", "with"]

/-- The token behind which an operand may be sought, and for each open parenthesis, the innermost
first, whether a statement follows it. Behind a parenthesis of that kind no operand stands. -/
def behindToken (before : Option Token) (heads : List Bool) (t : Token) : Option Token × List Bool :=
  match t.kind, t.text, heads with
  | .comment, _, _ => (before, heads)
  | .mark, "(", _ => (some t, (before.map fun b => headWords.any b.is).getD false :: heads)
  | .mark, ")", head :: outer => (if head then none else some t, outer)
  | _, _, _ => (some t, heads)

/-- Whether the name of a member follows. No word has a meaning of its own there; the name stands for
itself, as a number does. -/
def behindDot (before : Option Token) : Bool := before.any fun b => b.is "." || b.is "?."

/-- What is read at a place: a token, which may have a text of its own, and what the place behind it
lies in. -/
structure Reading where
  kind : Kind
  behind : Point
  modes : List Mode
  text : Option String := none

/-- What is read at a place, given what it lies in and the token before it, unless a blank stands
there. -/
def read? (modes : List Mode) (before : Option Token) (p : Point) : Option Reading :=
  match p.rest, modes with
  | [], _ => none
  | c :: _, .template :: outer =>
    if c == '\x60' then some ⟨.text, p.next, outer, none⟩
    else if p.sees "$\x7b" then some ⟨.mark, p.skip 2, .code 0 :: modes, some "("⟩
    else some ⟨.text, skipTemplate p, modes, none⟩
  | c :: _, .children :: outer =>
    if p.sees "</" then some ⟨.text, p.skip 2, .tag true :: outer, none⟩
    else if c == '<' then some ⟨.text, p.next, .tag false :: modes, none⟩
    else if c == '\x7b' then some ⟨.mark, p.next, .code 0 :: modes, some "("⟩
    else some ⟨.text, p.skipWhile fun d => d != '<' && d != '\x7b', modes, none⟩
  | c :: _, .tag closes :: outer =>
    if let some q := p.blockComment? then some ⟨.comment, q, modes, none⟩
    else if p.sees "/>" then some ⟨.text, p.skip 2, outer, none⟩
    else if c == '>' then some ⟨.text, p.next, if closes then outer else .children :: outer, none⟩
    else if c == '"' || c == '\'' then some ⟨.text, p.next.skipPast [c], modes, none⟩
    else if c == '\x7b' then some ⟨.mark, p.next, .code 0 :: modes, some "("⟩
    else
      some ⟨.text, p.skipWhile fun d =>
        d != '>' && d != '/' && d != '"' && d != '\'' && d != '\x7b', modes, none⟩
  | c :: _, modes =>
    if Text.isBlank c || (c == '\uFEFF' && p.pos == 0) then none
    else
      let behindOperand := (before.map endsOperand).getD false
      if c == '\x60' then some ⟨.text, p.next, .template :: modes, none⟩
      else if !behindOperand && seesMarkup p && !p.sees "<!--" then
        some ⟨.text, p.next, .tag false :: modes, none⟩
      else
        match c, modes with
        | '\x7d', .code 0 :: outer => some ⟨.mark, p.next, outer, some ")"⟩
        | '\x7d', .code (k + 1) :: outer => some ⟨.mark, p.next, .code k :: outer, none⟩
        | '\x7b', .code k :: outer => some ⟨.mark, p.next, .code (k + 1) :: outer, none⟩
        | _, _ =>
          let (kind, q) := readCode behindOperand ((before.map (·.is "\x7d")).getD false) p
          some ⟨if kind == .word && behindDot before then .number else kind, q, modes, none⟩

/-- The tokens from a place, given what it lies in, the token before it, the open parentheses and
whether a line ended since. The number bounds how many steps are taken. -/
def tokensFrom : Nat → List Mode → Option Token → List Bool → Bool → Point → List Token
  | 0, _, _, _, _, _ => []
  | n + 1, modes, before, heads, fresh, p =>
    match p.rest with
    | [] => []
    | c :: _ =>
      match read? modes before p with
      | none => tokensFrom n modes before heads (fresh || c == '\n') p.next
      | some r =>
        let q := if r.behind.pos ≤ p.pos then p.next else r.behind
        let t := Token.between r.kind p q fresh
        let t := { t with text := r.text.getD t.text }
        let (before, heads) := behindToken before heads t
        t :: tokensFrom n r.modes before heads false q

/-- Whether a token goes on with the expression of the line before. -/
def continues (t : Token) : Bool :=
  match t.kind with
  | .word => t.text == "in" || t.text == "instanceof"
  | .mark => !(["++", "--", "!", "~", "@", "\x7b"].contains t.text)
  | .text => Text.startsWith t.text "\x60"
  | _ => false

/-- How far a statement reaches that ends with a token without a mark of its own, given the tokens
behind it and the end of the source: a comment to the end of the line belongs to the statement, with
those before it, unless a brace closes or the expression goes on. So does one that ends the source. -/
def reachOf (size : Nat) (t : Token) (behind : List Token) : Nat :=
  match ((behind.takeWhile (·.isComment)).takeWhile (!·.fresh)).getLast? with
  | none => t.stop
  | some c =>
    match (behind.dropWhile (·.isComment)).head? with
    | some u =>
      if Text.startsWith c.text "//" && !u.is "\x7d" && !continues u then c.stop else t.stop
    | none => if Text.startsWith c.text "//" || c.stop == size then c.stop else t.stop

/-- The tokens with the reach of each. -/
def withReach (size : Nat) : List Token → List Token
  | [] => []
  | t :: ts => { t with reach := if t.isComment then t.stop else reachOf size t ts } :: withReach size ts

/-- The tokens of a source. -/
def tokens (source : List Char) : List Token :=
  withReach (String.ofList source).utf8ByteSize
    (tokensFrom (2 * source.length + 1) [] none [] true (Point.start source))

end PromptPack.Syntax.JavaScript
