import PromptPack.Outline.Hit
import PromptPack.Syntax.Bash.Token
/-!
# Reading shell scripts

Function definitions lose their bodies wherever they stand. Of commands, those are kept that are
statements of the script by themselves: no part of a pipeline, list or compound command, and not
redirected.
-/

namespace PromptPack.Syntax.Bash

open Outline

/-! ## Words -/

/-- Whether a word gives a variable its value. -/
def isAssignment (text : String) : Bool :=
  let name := text.toList.takeWhile Text.isWord
  match name, text.toList.drop name.length with
  | c :: _, rest =>
    let behind := if rest.head? == some '[' then (rest.dropWhile (· != ']')).drop 1 else rest
    !c.isDigit && (['='].isPrefixOf behind || ['+', '='].isPrefixOf behind)
  | [], _ => false

/-- Whether the name of a function is written without quotes and substitutions. -/
def isPlainName (t : Token) : Bool :=
  t.kind == .word && t.text.toList.all fun c => !(['\'', '"', '$', '\x60', '\\'].contains c)

def isSeparator (t : Token) : Bool := t.is ";" || t.is "\n" || t.is "&"

def joins (t : Token) : Bool := t.is "|" || t.is "||" || t.is "&&" || t.is "|&"

def dropLines : List Token → List Token
  | [] => []
  | t :: ts => if t.is "\n" then dropLines ts else t :: ts

/-! ## Statements -/

/-- What is read from a list of tokens. -/
structure Reading where
  hits : List Hit
  rest : List Token
  /-- The span of a command that stands alone. -/
  command : Option Region := none
  /-- The end of what was read. -/
  stop : Nat := 0

/-- Whether a redirection stands here. -/
def seesRedirection (op w : Token) : Bool :=
  op.kind == .mark && isRedirect op.text && w.kind == .word

/-- What stands behind the redirections here. -/
def behindRedirections : List Token → List Token
  | op :: w :: rest => if seesRedirection op w then behindRedirections rest else op :: w :: rest
  | rest => rest

/-- A compound command with the redirections behind it, of which the first belongs to a function
that the command is the body of. -/
def Reading.redirected (r : Reading) : Reading :=
  match r.rest with
  | op :: w :: rest =>
    if seesRedirection op w then { r with stop := w.stop, rest := behindRedirections rest } else r
  | _ => r

/-- The words and redirections of a simple command. -/
structure Simple where
  words : List Token
  /-- A word of the command is not closed, or a redirection stands behind its name. -/
  redirected : Bool
  rest : List Token

/-- Reads words until a mark that is no redirection. -/
def simple (named : Bool) : List Token → Simple
  | [] => ⟨[], false, []⟩
  | [t] => if t.kind == .word || t.kind == .text then ⟨[t], false, []⟩ else ⟨[], false, [t]⟩
  | t :: u :: rest =>
    if t.kind == .word || t.kind == .text then
      let s := simple (named || !isAssignment t.text) (u :: rest)
      { s with words := t :: s.words }
    else if t.kind == .mark && isRedirect t.text && u.kind == .word then
      let s := simple named rest
      if t.text == "<<<" then { s with words := t :: u :: s.words }
      else if named then { s with redirected := true }
      else { s with words := t :: u :: s.words }
    else ⟨[], false, t :: u :: rest⟩

/-- The name of a command, behind the assignments and redirections in front. -/
def nameOf? : List Token → Option Token
  | [] => none
  | [w] => if isAssignment w.text then none else some w
  | op :: w :: rest =>
    if seesRedirection op w then nameOf? rest
    else if isAssignment op.text then nameOf? (w :: rest)
    else some op

/-- Whether words make up a command, rather than assignments, redirections, a declaration or a test. -/
def isCommand (words : List Token) : Bool :=
  (nameOf? words).any fun w => !declarationWords.contains w.text && w.text != "[" && w.text != "[["

def spanOf (words : List Token) : Option Region :=
  match words.head?, words.getLast? with
  | some a, some b => some ⟨a.start, b.stop⟩
  | _, _ => none

/-- The tokens behind the word that closes a test. -/
def behindTest : List Token → List Token
  | [] => []
  | t :: ts => if t.is "]]" then ts else behindTest ts

/-- What stands behind a parenthesis that the command before it cannot have: an empty pair and an
opening brace are skipped, else nothing more is read. -/
def behindStray : List Token → List Token
  | a :: b :: c :: rest => if a.is "(" && b.is ")" then if c.is "\x7b" then rest else c :: rest else []
  | _ => []

def functionHit (start stop : Nat) (body : Region) : Hit :=
  ⟨1, .signature, ⟨start, stop⟩, some body, none⟩

/-- The tokens of a pattern of alternatives, up to its parenthesis. -/
def behindPattern : List Token → List Token
  | [] => []
  | t :: ts => if t.is ")" then ts else behindPattern ts

mutual

/-- Reads statements up to a word or mark that closes them. -/
def statements : Nat → (top : Bool) → (closers : List String) → List Token → Reading
  | 0, _, _, ts => ⟨[], ts, none, 0⟩
  | _, _, _, [] => ⟨[], [], none, 0⟩
  | n + 1, top, closers, t :: ts =>
    if closers.any t.is then ⟨[], t :: ts, none, t.stop⟩
    else if isSeparator t || t.kind == .number then statements n top closers ts
    else
      let r := chain n top (t :: ts)
      let rest := if r.rest.length ≤ ts.length then r.rest else ts
      let later := statements n top closers rest
      { later with hits := r.hits ++ later.hits }

/-- Reads commands joined to a list or pipeline. -/
def chain : Nat → (top : Bool) → List Token → Reading
  | 0, _, ts => ⟨[], ts, none, 0⟩
  | n + 1, top, ts =>
    let r := command n ts
    match r.rest with
    | [] => finish top r
    | op :: rest =>
      if joins op then
        let later := chain n false (dropLines rest)
        { later with hits := r.hits ++ later.hits }
      else finish top r
where
  finish (top : Bool) (r : Reading) : Reading :=
    match r.command with
    | some span => if top then { r with hits := r.hits ++ [Hit.whole 2 span.start span.stop] } else r
    | none => r

/-- Reads one command. -/
def command : Nat → List Token → Reading
  | 0, ts => ⟨[], ts, none, 0⟩
  | _, [] => ⟨[], [], none, 0⟩
  | n + 1, t :: ts =>
    if t.is "!" then
      { command n ts with command := none }
    else if t.is "\x7b" then (closed n "\x7d" ts).redirected
    else if t.is "(" then (closed n ")" ts).redirected
    else if t.is "if" then (closed n "fi" ts).redirected
    else if t.is "while" || t.is "until" then (closed n "done" ts).redirected
    else if t.is "for" || t.is "select" then
      (closed n "done" (ts.dropWhile fun u => !(isSeparator u || u.is "do"))).redirected
    else if t.is "case" then (cases n (ts.dropWhile (!·.is "in")).tail).redirected
    else if t.is "[[" then
      ({ hits := [], rest := behindTest ts, stop := t.stop } : Reading).redirected
    else if t.is "function" then
      match ts with
      | name :: a :: b :: rest =>
        defined n t.start name (if a.is "(" && b.is ")" then rest else a :: b :: rest)
      | _ => ⟨[], [], none, 0⟩
    else
      match ts with
      | a :: b :: rest =>
        if isPlainName t && a.is "(" && b.is ")" then defined n t.start t rest
        else plain n (t :: ts)
      | _ => plain n (t :: ts)

/-- Reads the body of a function. -/
def defined : Nat → (start : Nat) → (name : Token) → List Token → Reading
  | 0, _, _, ts => ⟨[], ts, none, 0⟩
  | n + 1, start, name, ts =>
    match dropLines ts with
    | [] => ⟨[], [], none, 0⟩
    | b :: bs =>
      if b.is "\x7b" || b.is "(" || b.is "if" || b.is "[[" then
        let r := command n (b :: bs)
        if r.stop == 0 || !isPlainName name then r
        else { r with hits := functionHit start r.stop ⟨b.start, r.stop⟩ :: r.hits }
      else ⟨[], b :: bs, none, 0⟩

/-- Reads statements up to the word or mark that closes a compound command. -/
def closed : Nat → (closer : String) → List Token → Reading
  | 0, _, ts => ⟨[], ts, none, 0⟩
  | n + 1, closer, ts =>
    let r := statements n false (closer :: innerWords closer) ts
    match r.rest with
    | [] => ⟨r.hits, [], none, 0⟩
    | t :: rest =>
      if t.is closer then ⟨r.hits, rest, none, t.stop⟩
      else
        let later := closed n closer rest
        { later with hits := r.hits ++ later.hits }
where
  /-- Words that part the statements of a compound command. -/
  innerWords (closer : String) : List String :=
    if closer == "fi" then ["then", "elif", "else"]
    else if closer == "done" then ["do"]
    else []

/-- Reads the alternatives of a case. -/
def cases : Nat → List Token → Reading
  | 0, ts => ⟨[], ts, none, 0⟩
  | n + 1, ts =>
    match dropLines ts with
    | [] => ⟨[], [], none, 0⟩
    | t :: rest =>
      if t.is "esac" then ⟨[], rest, none, t.stop⟩
      else if t.is ";;" || t.is ";&" || t.is ";;&" then cases n rest
      else
        let r := statements n false [";;", ";&", ";;&", "esac"] (behindPattern (t :: rest))
        let later := cases n r.rest
        { later with hits := r.hits ++ later.hits }

/-- Reads a simple command. -/
def plain : Nat → List Token → Reading
  | 0, ts => ⟨[], ts, none, 0⟩
  | n + 1, ts =>
    let s := simple false ts
    let span := if isCommand s.words && !s.redirected then spanOf s.words else none
    let stop := (s.words.getLast?.map (·.stop)).getD 0
    match s.words, s.rest with
    | [], _ => ⟨[], ts.tail, none, 0⟩
    | first :: others, p :: rest =>
      if p.is "(" then
        if others.isEmpty && !(rest.head?.map (·.is ")")).getD false then
          let r := closed n ")" rest
          ⟨r.hits, r.rest, if r.stop == 0 then span else some ⟨first.start, r.stop⟩, r.stop⟩
        else ⟨[], behindStray (p :: rest), span, stop⟩
      else ⟨[], p :: rest, span, stop⟩
    | _, [] => ⟨[], [], span, stop⟩

end

/-! ## Scripts -/

/-- The hits of a script or of a substitution in one. -/
def hitsFrom : (depth : Nat) → (top : Bool) → Point → List Hit
  | 0, _, _ => []
  | depth + 1, top, p =>
    let all := tokens p
    let code := all.filter (!·.isComment)
    let inner := (code.filter (·.kind == .word)).flatMap fun t =>
      (substitutions t).flatMap fun (text, pos) =>
        hitsFrom depth false ⟨pos, text⟩
    (all.filter (·.isComment)).map (fun t => Hit.whole 0 t.start t.stop) ++
      (statements (8 * code.length + 8) top [] code).hits ++ inner

/-- What the outline of a source may keep. -/
def hits (source : List Char) : List Hit :=
  hitsFrom (source.length + 1) true (Point.start source)

end PromptPack.Syntax.Bash
