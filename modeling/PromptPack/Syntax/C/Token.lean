import PromptPack.Syntax.Token
/-!
# Tokens of C and C++

A directive is one token that takes its line, the lines joined to it and the line end.
-/

namespace PromptPack.Syntax.C

/-- The place behind a directive: past the end of its line, where joined lines count as one and a
comment in it may take several. -/
def skipDirective : Nat → Point → Point
  | 0, p => p
  | n + 1, p =>
    match p.rest with
    | [] => p
    | '\n' :: _ => p.next
    | '\\' :: '\n' :: _ => skipDirective n (p.skip 2)
    | '\\' :: '\r' :: '\n' :: _ => skipDirective n (p.skip 3)
    | '/' :: '*' :: _ => skipDirective n (p.blockComment?.getD (p.skip 2))
    | _ :: _ => skipDirective n p.next

/-- The place behind a comment to the end of the line, which a backslash joins to the next. -/
def skipLineComment (p : Point) : Point :=
  go p.pos p.rest
where
  go (pos : Nat) : List Char → Point
    | [] => ⟨pos, []⟩
    | '\n' :: cs => ⟨pos, '\n' :: cs⟩
    | '\\' :: '\r' :: '\n' :: cs => go (pos + 3) cs
    | '\\' :: d :: cs => go (pos + 1 + d.utf8Size) cs
    | c :: cs => go (pos + c.utf8Size) cs

/-- The place behind a raw text, from its quote on. -/
def skipRaw (p : Point) : Point :=
  let delimiter := p.next.rest.takeWhile (· != '(')
  p.skipPast ([')'] ++ delimiter ++ ['"'])

/-- The marks of more than one character, longer ones first. -/
def longMarks : List String :=
  ["...", "<<=", ">>=", "::", "->", "==", "!=", "<=", ">=", "&&", "||", "++", "--", "+=", "-=",
    "*=", "/=", "%=", "&=", "|=", "^=", "<<"]

/-- One token from a character that is not blank, given whether the line begins here. -/
def read (fresh : Bool) (p : Point) : Kind × Point :=
  match p.rest with
  | [] => (.mark, p)
  | c :: _ =>
    if c == '#' && fresh then (.text, skipDirective (p.rest.length + 1) p)
    else if p.sees "//" then (.comment, skipLineComment p)
    else if let some q := p.blockComment? then (.comment, q)
    else if c == '"' || c == '\'' then (.text, p.next.skipQuoted c true)
    else if c.isDigit then (.number, p.skipWhile fun d => Text.isWord d || d == '.' || d == '\'')
    else if Text.isWord c then
      let q := p.skipWhile Text.isWord
      if q.head? == some '"' && ((p.upTo q).getLast? == some 'R') then (.text, skipRaw q)
      else if (q.head? == some '"' || q.head? == some '\'') &&
          ["L", "u", "U", "u8"].contains (String.ofList (p.upTo q)) then
        (.text, q.next.skipQuoted (q.head?.getD '"') true)
      else (.word, q)
    else
      match longMarks.find? p.sees with
      | some m => (.mark, p.skip m.length)
      | none => (.mark, p.next)

/-- The tokens from a place. The number bounds how many steps are taken. -/
def tokensFrom : Nat → (fresh : Bool) → Point → List Token
  | 0, _, _ => []
  | n + 1, fresh, p =>
    match p.rest with
    | [] => []
    | '\\' :: '\n' :: _ => tokensFrom n fresh (p.skip 2)
    | c :: _ =>
      if Text.isBlank c || (c == '\uFEFF' && p.pos == 0) then tokensFrom n (fresh || c == '\n') p.next
      else
        let (kind, q) := read fresh p
        let q := if q.pos ≤ p.pos then p.next else q
        let t := Token.between kind p q fresh
        t :: tokensFrom n (Text.endsWith t.text "\n") q

/-- The tokens of a source. -/
def tokens (source : List Char) : List Token :=
  tokensFrom (source.length + 1) true (Point.start source)

/-! ## Directives -/

/-- Whether the token is a directive. -/
def isDirective (t : Token) : Bool := t.kind == .text && Text.startsWith t.text "#"

/-- The name of a directive. -/
def directiveName (t : Token) : String :=
  String.ofList (((t.text.toList.drop 1).dropWhile fun c => c == ' ' || c == '\t').takeWhile Text.isWord)

/-- Whether anything but blanks stands behind the name of a directive. -/
def namesSomething (t : Token) : Bool :=
  let behind := ((t.text.toList.drop 1).dropWhile fun c => c == ' ' || c == '\t').dropWhile Text.isWord
  behind.any fun c => !Text.isBlank c

/-- Whether a macro is defined with parameters. -/
def hasParameters (t : Token) : Bool :=
  let behind := ((t.text.toList.drop 1).dropWhile fun c => c == ' ' || c == '\t').drop "define".length
  ((behind.dropWhile fun c => c == ' ' || c == '\t').dropWhile Text.isWord).head? == some '('

/-- What stands behind the name of a directive; for a macro, behind its name and parameters. -/
def argumentAt (t : Token) : Point :=
  let blank (c : Char) : Bool := c == ' ' || c == '\t'
  let behindName := (((⟨t.start + 1, t.text.toList.drop 1⟩ : Point).skipWhile blank).skipWhile Text.isWord).skipWhile blank
  if directiveName t == "define" then
    let q := behindName.skipWhile Text.isWord
    (if q.head? == some '(' then q.skipPast [')'] else q).skipWhile blank
  else behindName

/-- The spans of the comments in a directive. Only in some directives does a pair of slashes begin
one wherever it stands; in the others it has to stand where their text begins. -/
def commentsIn (slashes : Bool) : Nat → Point → List (Nat × Nat)
  | 0, _ => []
  | n + 1, p =>
    match p.rest with
    | [] => []
    | '/' :: '*' :: _ =>
      match p.blockComment? with
      | some q => (p.pos, q.pos) :: commentsIn slashes n q
      | none => commentsIn slashes n p.next
    | '/' :: '/' :: _ =>
      if slashes then [(p.pos, (skipLineComment p).pos)] else commentsIn slashes n p.next
    | _ :: _ => commentsIn slashes n p.next

def directiveComments (t : Token) : List (Nat × Nat) :=
  let slashes := !(["define", "undef", "pragma", "error", "warning", "line"].contains (directiveName t)) ||
    (argumentAt t).sees "//"
  commentsIn slashes t.text.length ⟨t.start, t.text.toList⟩

end PromptPack.Syntax.C
