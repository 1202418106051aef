import PromptPack.Syntax.Token
/-!
# Tokens of shell scripts

A word is read whole, with its quotes and substitutions; line ends are marks. The text of a here
document is skipped at the end of the line that announces it.
-/

namespace PromptPack.Syntax.Bash

/-- Characters that end a word. -/
def isMeta (c : Char) : Bool := Text.isBlank c || [';', '&', '|', '<', '>', '(', ')'].contains c

/-! ## Words -/

/-- What is open at a place within a word. -/
inductive Frame
  | quoted
  /-- Backquotes with code between them. -/
  | backquoted
  /-- The braces of a parameter. -/
  | parameter
  /-- Parentheses that hold code or the elements of an array. -/
  | code
  | arithmetic
  /-- The alternatives of a case, whose patterns end with a parenthesis. -/
  | cases
  deriving DecidableEq

/-- Whether comments, here documents and quotes are read as in code. -/
def Frame.isCode (f : Frame) : Bool := f == .code || f == .backquoted || f == .cases

/-- The place behind the text of a here document. -/
def skipDocument : Nat → (tabs : Bool) → (closing : List Char) → Point → Point
  | 0, _, _, p => p
  | n + 1, tabs, closing, p =>
    if p.rest.isEmpty then p
    else
      let q := p.skipLine
      let line := p.upTo q
      if (if tabs then line.dropWhile (· == '\t') else line) == closing then q
      else skipDocument n tabs closing q.next

/-- A word that is being read. -/
structure Scan where
  frames : List Frame := []
  before : Option Char := none
  /-- The here documents announced on the line: whether tabs may stand in front, and the closing
  lines. -/
  documents : List (Bool × List Char) := []
  /-- The code that is being read in the word: how much is open around it, and where it begins. -/
  code : Option (Nat × Point) := none
  /-- The code that has been read, each piece with the place where it begins. -/
  found : List (List Char × Nat) := []

namespace Scan

def behind (s : Scan) (c : Char) : Scan := { s with before := some c }

/-- The scan behind an opening mark, with the place where what it opens begins. -/
def push (s : Scan) (f : Frame) (inner : Point) : Scan :=
  { s with
    frames := f :: s.frames, before := none
    code := if s.code.isNone && f.isCode then some (s.frames.length, inner) else s.code }

/-- The scan behind a closing mark that stands at a place. -/
def pop (s : Scan) (p : Point) : Scan :=
  let frames := s.frames.tail
  let s := { s with frames, before := some ')' }
  match s.code with
  | some (depth, inner) =>
    if frames.length ≤ depth then
      { s with code := none, found := s.found ++ [(inner.upTo p, inner.pos)] }
    else s
  | none => s

/-- Whether a word of code may begin here. -/
def beginsWord (s : Scan) : Bool := (s.before.map isMeta).getD true

end Scan

/-- Whether a keyword stands here as a word of its own. -/
def seesKeyword (word : String) (p : Point) : Bool :=
  p.sees word && ((p.skip word.length).head?.map isMeta).getD true

/-- A here document that is announced here: whether tabs may stand before its lines, the line that
closes it, and the place behind. -/
def announced (p : Point) : Bool × List Char × Point :=
  let tabs := p.sees "<<-"
  let q := (p.skip (if tabs then 3 else 2)).skipWhile fun c => c == ' ' || c == '\t'
  let r := q.skipWhile fun c => !isMeta c
  (tabs, (q.upTo r).filter fun c => !(['\'', '"', '\\'].contains c), r)

/-- The opening mark of a frame that stands here, with its length. -/
def opening? (inQuotes : Bool) (p : Point) : Option (List Frame × Nat) :=
  if p.sees "$((" then some ([.arithmetic, .arithmetic], 3)
  else if p.sees "$(" then some ([.code], 2)
  else if p.sees "$\x7b" then some ([.parameter], 2)
  else if p.sees "\x60" then some ([.backquoted], 1)
  else if inQuotes then none
  else if p.sees "<(" || p.sees ">(" then some ([.code], 2)
  else if p.sees "\"" then some ([.quoted], 1)
  else none

/-- Reads a word to its end, and gives the place behind it and the code in it; none if something is
open at the end. The number bounds how many steps are taken. -/
def scanWord : Nat → Scan → Point → Option (Point × List (List Char × Nat))
  | 0, _, _ => none
  | n + 1, s, p =>
    match p.rest, s.frames with
    | [], [] => some (p, s.found)
    | [], _ :: _ => none
    | c :: _, frames =>
      let on (_ : Unit) := scanWord n (s.behind c) p.next
      let opened (_ : Unit) :=
        match opening? (frames.head? == some .quoted) p with
        | some (fs, length) =>
          let inner := p.skip length
          some (scanWord n (fs.foldl (fun s f => s.push f inner) s) inner)
        | none => none
      if c == '\\' then scanWord n (s.behind c) (p.skip 2)
      else
        match frames with
        | [] =>
          if c == '\'' then
            let q := p.next.skipWhile (· != '\'')
            if q.rest.isEmpty then none else scanWord n (s.behind c) q.next
          else if p.sees "$'" then scanWord n (s.behind c) ((p.skip 2).skipQuoted '\'' false)
          else if c == '(' && s.before == some '=' then scanWord n (s.push .code p.next) p.next
          else
            match opened () with
            | some result => result
            | none => if isMeta c then some (p, s.found) else on ()
        | .quoted :: _ =>
          if c == '"' then scanWord n (s.pop p) p.next else (opened ()).getD (on ())
        | .parameter :: _ =>
          if c == '\x7d' then scanWord n (s.pop p) p.next
          else if c == '\'' then scanWord n (s.behind c) (p.next.skipPast ['\''])
          else (opened ()).getD (on ())
        | .arithmetic :: _ =>
          if c == ')' then scanWord n (s.pop p) p.next
          else if c == '(' then scanWord n (s.push .arithmetic p.next) p.next
          else (opened ()).getD (on ())
        | frame :: _ =>
          if c == '\x60' && frame == .backquoted then scanWord n (s.pop p) p.next
          else if c == ')' && frame == .code then scanWord n (s.pop p) p.next
          else if c == '(' then scanWord n (s.push .code p.next) p.next
          else if c == '#' && s.beginsWord then scanWord n s p.skipLine
          else if c == '\'' then scanWord n (s.behind c) (p.next.skipPast ['\''])
          else if p.sees "$'" then scanWord n (s.behind c) ((p.skip 2).skipQuoted '\'' false)
          else if c == '\n' then
            let q := s.documents.foldl (fun q (tabs, closing) =>
              skipDocument (q.rest.length + 1) tabs closing q) p.next
            scanWord n { s with documents := [], before := some c } q
          else if p.sees "<<<" then scanWord n (s.behind c) (p.skip 3)
          else if p.sees "<<" then
            let (tabs, closing, q) := announced p
            scanWord n { s with documents := s.documents ++ [(tabs, closing)], before := none } q
          else if s.beginsWord && seesKeyword "case" p then
            scanWord n (s.push .cases p) (p.skip 4)
          else if s.beginsWord && frame == .cases && seesKeyword "esac" p then
            scanWord n (s.pop p) (p.skip 4)
          else (opened ()).getD (on ())

def wordEnd? (p : Point) : Option Point := (scanWord (p.rest.length + 1) {} p).map (·.1)

/-- The code inside the substitutions and arrays of a word, each piece with the place where it
begins. -/
def substitutions (t : Token) : List (List Char × Nat) :=
  ((scanWord (t.text.length + 1) {} ⟨t.start, t.text.toList⟩).map (·.2)).getD []

/-! ## Tokens -/

/-- The marks of more than one character, longer ones first. -/
def longMarks : List String :=
  ["<<<", "<<-", "&>>", ";;&", "<<", ">>", "<&", ">&", "&>", ">|", "<>", "&&", "||", "|&", ";;", ";&"]

/-- The marks that redirect, each with a word behind it. -/
def isRedirect (mark : String) : Bool :=
  ["<<<", "<<-", "&>>", "<<", ">>", "<&", ">&", "&>", ">|", "<>", "<", ">"].contains
    (String.ofList (mark.toList.dropWhile Char.isDigit))

/-- The place behind a mark. -/
def markEnd (p : Point) : Point :=
  match longMarks.find? p.sees with
  | some m => p.skip m.length
  | none => p.next

/-- The word that closes a here document, without its quotes. -/
def closingWord (t : Token) : List Char :=
  t.text.toList.filter fun c => !(['\'', '"', '\\'].contains c)

/-- The place behind the name and sign of an assignment without a value before a comment, if one stands
here. -/
def bareAssignment? (p : Point) : Option Point :=
  let q := p.skipWhile Text.isWord
  let r := if q.sees "+=" then q.skip 2 else if q.sees "=" then q.next else q
  if q.pos == p.pos || r.pos == q.pos || (p.head?.map Char.isDigit).getD true then none
  else if r.head? == some '#' then some r
  else none

/-- Words that begin a statement with assignments. -/
def declarationWords : List String :=
  ["declare", "typeset", "export", "readonly", "local", "unset", "unsetenv"]

/-- Whether an assignment may stand behind a token. -/
def beginsAssignment : Option Token → Bool
  | none => true
  | some t => t.kind == .mark || (declarationWords ++ ["then", "do", "else", "\x7b"]).any t.is

/-- One token from a character that is not blank. -/
def read (p : Point) : Kind × Point :=
  match p.rest with
  | [] => (.mark, p)
  | c :: _ =>
    if c == '\n' then (.mark, p.next)
    else if c == '#' then (.comment, p.skipLine)
    else if p.sees "((" then
      match scanWord (p.rest.length + 1) { frames := [.arithmetic, .arithmetic] } (p.skip 2) with
      | some (q, _) => (.text, q)
      | none => (.mark, p.next)
    else if isMeta c && !p.sees "<(" && !p.sees ">(" then (.mark, markEnd p)
    else
      match wordEnd? p with
      | some q =>
        let digits := (p.upTo q).all Char.isDigit
        if digits && (q.head? == some '<' || q.head? == some '>') then (.mark, markEnd q)
        else (.word, q)
      | none => (.number, p.skipWhile fun _ => true)

/-- The tokens from a place, given the here documents announced on the line and the token
before. A word that is never closed takes the rest of the source and is no word. -/
def tokensFrom : Nat → (documents : List (Bool × List Char)) → (before : Option Token) → Point →
    List Token
  | 0, _, _, _ => []
  | n + 1, documents, before, p =>
    match p.rest with
    | [] => []
    | '\\' :: '\n' :: _ => tokensFrom n documents before (p.skip 2)
    | c :: _ =>
      if (Text.isBlank c && c != '\n') || (c == '\uFEFF' && p.pos == 0) then
        tokensFrom n documents before p.next
      else
        let bare := if beginsAssignment before then bareAssignment? p else none
        let (kind, q) := (bare.map ((.word, ·))).getD (read p)
        let q := if q.pos ≤ p.pos then p.next else q
        let t := Token.between kind p q false
        if c == '\n' then
          let q := documents.foldl (fun q (tabs, closing) =>
            skipDocument (q.rest.length + 1) tabs closing q) q
          t :: tokensFrom n [] none q
        else
          let announced := match before with
            | some b => if b.is "<<-" then [(true, closingWord t)]
                else if b.is "<<" then [(false, closingWord t)] else []
            | none => []
          t :: tokensFrom n (documents ++ announced) (some t) q

def tokens (p : Point) : List Token := tokensFrom (p.rest.length + 1) [] none p

end PromptPack.Syntax.Bash
