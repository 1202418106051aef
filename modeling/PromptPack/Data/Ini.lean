import PromptPack.Data.Json
import PromptPack.Text.Blank
/-!
# INI documents

Keys and values on lines, some of them below a heading in brackets. Every value is a text.
-/

namespace PromptPack.Ini

/-! ## Texts -/

/-- The character that a letter behind a backslash stands for. -/
def escapedChar (c : Char) : Char :=
  match c with
  | '0' => '\x00'
  | 'a' => '\x07'
  | 'b' => '\x08'
  | 't' => '\t'
  | 'r' => '\r'
  | 'n' => '\n'
  | c => c

/-- The text up to a character that ends it; the end of the document ends it where `isOpen` says
so. A backslash at the end of a line joins the next one. The number bounds the steps. -/
def textUntil? (ends : Char → Bool) (isOpen : Bool) : Nat → List Char → Option (List Char × List Char)
  | 0, _ => none
  | n + 1, cs =>
    let keep (c : Char) (rest : List Char) : Option (List Char × List Char) :=
      (textUntil? ends isOpen n rest).map fun (text, rest) => (c :: text, rest)
    match cs with
    | [] => if isOpen then some ([], []) else none
    | c :: rest =>
      if ends c then some ([], cs)
      else if c != '\\' then keep c rest
      else
        match rest with
        | [] => if isOpen then some (['\\'], []) else none
        | '\n' :: rest => textUntil? ends isOpen n rest
        | 'x' :: rest => do
          let (code, rest) ← Json.hexWord? rest
          if 0xD800 ≤ code && code < 0xE000 then none else keep (Char.ofNat code) rest
        | c :: rest => keep (escapedChar c) rest

def isLineEnd (c : Char) : Bool := c == '\n' || c == '\r'

/-- A value up to the end of its line: quoted pieces, and a rest without the blanks around it. -/
def value? : Nat → (isFirst : Bool) → List Char → Option (List Char × List Char)
  | 0, _, _ => none
  | n + 1, isFirst, cs =>
    let quoted (quote : Char) (rest : List Char) : Option (List Char × List Char) := do
      let (text, rest) ← textUntil? (· == quote) false (rest.length + 1) rest
      let (more, rest) ← value? n false (rest.drop 1)
      return (text ++ more, rest)
    match cs with
    | [] => some ([], [])
    | '"' :: rest => quoted '"' rest
    | '\'' :: rest => quoted '\'' rest
    | _ =>
      (textUntil? isLineEnd true (cs.length + 1) cs).map fun (text, rest) =>
        (if isFirst then Text.trimChars text else Text.trimEndChars text, rest)

/-! ## Documents -/

/-- What has been read: the keys without a heading, the others below theirs, and where the next
ones go. -/
structure Document where
  top : List (String × Data) := []
  headings : List (String × List (String × Data)) := []
  current : Option String := none

/-- Adds a key below the current heading. -/
def Document.add (doc : Document) (key : String) (d : Data) : Document :=
  match doc.current with
  | none => { doc with top := doc.top ++ [(key, d)] }
  | some heading =>
    { doc with
      headings := doc.headings.map fun (h, fields) => if h == heading then (h, fields ++ [(key, d)]) else (h, fields) }

/-- Goes on below a heading, which is empty again if it was there before. -/
def Document.enter (doc : Document) (heading : String) : Document :=
  { doc with headings := doc.headings.filter (·.1 != heading) ++ [(heading, [])], current := some heading }

def Document.toData (doc : Document) : Data :=
  .record (doc.top ++ doc.headings.map fun (h, fields) => (h, .record fields))

/-- Reads what is left of a document. Comments begin in the first column, which `fresh` says the
given characters do. The number bounds the steps. -/
def read? : Nat → Document → (key : String) → (fresh : Bool) → List Char → Option Document
  | 0, _, _, _, _ => none
  | n + 1, doc, key, fresh, cs =>
    let blanks := cs.takeWhile Text.isBlank
    let fresh := (blanks.getLast?.map (· == '\n')).getD fresh
    let cs := cs.drop blanks.length
    match cs with
    | [] => some doc
    | c :: rest =>
      if c == ';' || c == '#' then
        if fresh then read? n doc key true ((rest.dropWhile (· != '\n')).drop 1) else none
      else if c == '[' then do
        let (heading, rest) ← textUntil? (· == ']') false (rest.length + 1) rest
        read? n (doc.enter (Text.trim (String.ofList heading))) key false (rest.drop 1)
      else if c == '=' || c == ':' then
        if key.isEmpty then none
        else do
          let rest := rest.dropWhile fun c => Text.isBlank c && !isLineEnd c
          let (value, rest) ← value? (rest.length + 1) true rest
          read? n (doc.add key (.text (String.ofList value))) "" false rest
      else do
        let (key, rest) ← textUntil? (fun c => c == '=' || c == ':') false (cs.length + 1) cs
        read? n doc (Text.trim (String.ofList key)) false rest

/-- The record that a document stands for. -/
def parse? (s : String) : Option Data :=
  let cs := s.toList
  (read? (cs.length + 1) {} "" true cs).map Document.toData

end PromptPack.Ini
