import PromptPack.Data.Basic
import PromptPack.Data.Json
/-!
# TOML documents

A document is read as a tree of tables that remembers how each table came about, since that
decides whether a later line may still add to it. Dates and times are kept as texts.
-/

namespace PromptPack.Toml

/-! ## Scalars -/

def isSpace (c : Char) : Bool := c == ' ' || c == '\t'

def skipSpaces (cs : List Char) : List Char := cs.dropWhile isSpace

/-- Characters that may stand in texts and comments. -/
def isPlain (c : Char) : Bool := (32 ≤ c.toNat && c.toNat != 127) || c == '\t'

def isBare (c : Char) : Bool :=
  c.isAlphanum || c == '_' || c == '-'

/-- What follows a line end. -/
def afterNewline? : List Char → Option (List Char)
  | '\n' :: rest => some rest
  | '\r' :: '\n' :: rest => some rest
  | _ => none

/-- The character of so many hexadecimal digits. -/
def code? (digits : Nat) (cs : List Char) : Option (Char × List Char) := do
  let values ← (cs.take digits).mapM Json.hexValue?
  let n := values.foldl (fun n d => 16 * n + d) 0
  if values.length != digits || 0x10FFFF < n || (0xD800 ≤ n && n < 0xE000) then none
  else return (Char.ofNat n, cs.drop digits)

/-- The character behind a backslash. -/
def escape? : List Char → Option (Char × List Char)
  | 'b' :: cs => some ('\x08', cs)
  | 't' :: cs => some ('\t', cs)
  | 'n' :: cs => some ('\n', cs)
  | 'f' :: cs => some ('\x0c', cs)
  | 'r' :: cs => some ('\r', cs)
  | '"' :: cs => some ('"', cs)
  | '\\' :: cs => some ('\\', cs)
  | 'e' :: cs => some ('\x1b', cs)
  | 'x' :: cs => code? 2 cs
  | 'u' :: cs => code? 4 cs
  | 'U' :: cs => code? 8 cs
  | _ => none

/-- The characters up to the closing quote of a text on one line. -/
def lineText? (escapes : Bool) (quote : Char) : Nat → List Char → Option (List Char × List Char)
  | 0, _ => none
  | n + 1, cs =>
    match cs with
    | [] => none
    | c :: rest =>
      if c == quote then some ([], rest)
      else if c == '\\' && escapes then do
        let (d, rest) ← escape? rest
        let (more, rest) ← lineText? escapes quote n rest
        return (d :: more, rest)
      else if isPlain c then do
        let (more, rest) ← lineText? escapes quote n rest
        return (c :: more, rest)
      else none

/-- What follows blanks and line ends, of which there is at least one. -/
def afterLineEnds? (cs : List Char) : Option (List Char) :=
  (afterNewline? (skipSpaces cs)).map (·.dropWhile fun c => isSpace c || c == '\n' || c == '\r')

/-- The characters up to three closing quotes; up to two more quotes belong to the text. -/
def blockText? (escapes : Bool) (quote : Char) : Nat → List Char → Option (List Char × List Char)
  | 0, _ => none
  | n + 1, cs =>
    let quotes := (cs.takeWhile (· == quote)).length
    if 3 ≤ quotes then
      if 5 < quotes then none
      else some (List.replicate (quotes - 3) quote, cs.drop quotes)
    else
      match cs with
      | [] => none
      | c :: rest =>
        let keep (kept : List Char) (rest : List Char) : Option (List Char × List Char) := do
          let (more, rest) ← blockText? escapes quote n rest
          return (kept ++ more, rest)
        match afterNewline? cs with
        | some rest => keep ['\n'] rest
        | none =>
          if c == '\\' && escapes then
            match afterLineEnds? rest with
            | some rest => keep [] rest
            | none =>
              match escape? rest with
              | some (d, rest) => keep [d] rest
              | none => none
          else if isPlain c then keep [c] rest
          else none

/-- A text in any of the four kinds of quotes. -/
def text? (cs : List Char) : Option (String × List Char) :=
  let n := cs.length + 1
  let result := match cs with
    | '"' :: '"' :: '"' :: rest => blockText? true '"' n ((afterNewline? rest).getD rest)
    | '\'' :: '\'' :: '\'' :: rest => blockText? false '\'' n ((afterNewline? rest).getD rest)
    | '"' :: rest => lineText? true '"' n rest
    | '\'' :: rest => lineText? false '\'' n rest
    | _ => none
  result.map fun (s, rest) => (String.ofList s, rest)

/-- Digits without the underscores that stand between two of them. -/
def digits? (isDigit : Char → Bool) (cs : List Char) : Option (List Char) :=
  match cs with
  | [] => none
  | [c] => if isDigit c then some [c] else none
  | c :: d :: rest =>
    if !isDigit c then none
    else if d == '_' then (digits? isDigit rest).map (c :: ·)
    else (digits? isDigit (d :: rest)).map (c :: ·)

/-- The integers that a document may hold. -/
def int? (n : Int) : Option Data := (Decimal.word? n).map .int

def inBase (base : Nat) (digits : List Char) : Nat :=
  digits.foldl (fun n c => base * n + (Json.hexValue? c).getD 0) 0

/-- A number in hexadecimal, octal or binary digits. -/
def based? : List Char → Option Data
  | '0' :: 'x' :: cs => (digits? (fun c => (Json.hexValue? c).isSome) cs).bind fun d => int? (inBase 16 d)
  | '0' :: 'o' :: cs => (digits? (fun c => '0' ≤ c && c ≤ '7') cs).bind fun d => int? (inBase 8 d)
  | '0' :: 'b' :: cs => (digits? (fun c => c == '0' || c == '1') cs).bind fun d => int? (inBase 2 d)
  | _ => none

/-- A decimal number: whole, or with a fraction or an exponent. -/
def decimal? (cs : List Char) : Option Data :=
  let (negative, body) := Decimal.spanSign cs
  let wholeText := body.takeWhile fun (c : Char) => c.isDigit || c == '_'
  let rest := body.drop wholeText.length
  match digits? Char.isDigit wholeText with
  | none => none
  | some whole =>
    if !Json.isWhole whole then none
    else
      match rest with
      | [] =>
        let n : Int := Decimal.natOf whole
        int? (if negative then -n else n)
      | _ =>
        let (partText, pointed, rest) := match rest with
          | '.' :: rest =>
            let t := rest.takeWhile fun (c : Char) => c.isDigit || c == '_'
            (t, true, rest.drop t.length)
          | rest => ([], false, rest)
        match (if pointed then digits? Char.isDigit partText else some []) with
        | none => none
        | some part =>
          let real (exponent : Int) : Option Data :=
            let x := Decimal.nearest negative (Decimal.natOf (whole ++ part)) (exponent - part.length)
            if x.isInf then none else some (.real x)
          match rest with
          | [] => real 0
          | e :: rest =>
            if e != 'e' && e != 'E' then none
            else
              let (down, rest) := Decimal.spanSign rest
              match digits? Char.isDigit rest with
              | none => none
              | some exponent =>
                let n : Int := Decimal.natOf (exponent.take 9)
                real (if down then -n else n)

/-! ## Dates and times -/

/-- A number of exactly so many digits. -/
def fixed? (width : Nat) (cs : List Char) : Option (Nat × List Char) :=
  let digits := cs.take width
  if digits.length == width && digits.all Char.isDigit then
    some (Decimal.natOf digits, cs.drop width)
  else none

def isLeap (year : Nat) : Bool := year % 4 == 0 && (year % 100 != 0 || year % 400 == 0)

def monthLength (year month : Nat) : Nat :=
  if month == 2 then if isLeap year then 29 else 28
  else if [4, 6, 9, 11].contains month then 30 else 31

/-- The text of a date, and what follows it. -/
def date? (cs : List Char) : Option (List Char × List Char) := do
  let (year, rest) ← fixed? 4 cs
  let rest ← Json.afterWord? ['-'] rest
  let (month, rest) ← fixed? 2 rest
  let rest ← Json.afterWord? ['-'] rest
  let (day, rest) ← fixed? 2 rest
  if 1 ≤ month && month ≤ 12 && 1 ≤ day && day ≤ monthLength year month then
    return (cs.take 10, rest)
  else none

/-- The text of a time, its fraction without needless zeros, and what follows it. Seconds may be left
out. -/
def time? (cs : List Char) : Option (List Char × List Char) := do
  let (hour, rest) ← fixed? 2 cs
  let rest ← Json.afterWord? [':'] rest
  let (minute, rest) ← fixed? 2 rest
  if 24 ≤ hour || 60 ≤ minute then none
  else
    match rest with
    | ':' :: rest =>
      let (second, rest) ← fixed? 2 rest
      if 61 ≤ second then none
      else
        match rest with
        | '.' :: behind =>
          let (fraction, behind) := Decimal.spanDigits behind
          if fraction.isEmpty then none
          else
            let kept := ((fraction.take 9).reverse.dropWhile (· == '0')).reverse
            return (cs.take 8 ++ (if kept.isEmpty then [] else '.' :: kept), behind)
        | _ => return (cs.take 8, rest)
    | _ => return (cs.take 5, rest)

/-- The offset from universal time behind a time, if one stands there. -/
def offset? (cs : List Char) : Option (List Char) :=
  match cs with
  | [] => some []
  | ['Z'] => some ['Z']
  | ['z'] => some ['Z']
  | sign :: rest =>
    if sign != '+' && sign != '-' then none
    else do
      let (hour, rest') ← fixed? 2 rest
      let rest' ← Json.afterWord? [':'] rest'
      let (minute, rest') ← fixed? 2 rest'
      if hour < 24 && minute < 60 && rest'.isEmpty then return cs else none

/-- The usual text of a date, a time or both. -/
def moment? (cs : List Char) : Option String := do
  match date? cs with
  | some (date, []) => return String.ofList date
  | some (date, c :: rest) =>
    if c != 'T' && c != 't' && c != ' ' then none
    else
      let (time, rest) ← time? rest
      let offset ← offset? rest
      return String.ofList (date ++ ['T'] ++ time ++ offset)
  | none =>
    let (time, rest) ← time? cs
    if rest.isEmpty then return String.ofList time else none

/-- A scalar without quotes. -/
def scalar? (cs : List Char) : Option Data :=
  match String.ofList cs with
  | "true" => some (.bool true)
  | "false" => some (.bool false)
  | "inf" | "+inf" => some (.real (1.0 / 0.0))
  | "-inf" => some (.real (-1.0 / 0.0))
  | "nan" | "+nan" | "-nan" => some (.real (0.0 / 0.0))
  | _ => (based? cs).or ((decimal? cs).or ((moment? cs).map .text))

def isScalarChar (c : Char) : Bool := isBare c || c == '+' || c == '.' || c == ':'

/-- The characters of a scalar; a blank may part a date from a time. -/
def scalarChars (cs : List Char) : List Char × List Char :=
  let word := cs.takeWhile isScalarChar
  let rest := cs.drop word.length
  match date? word, rest with
  | some (_, []), ' ' :: c :: rest =>
    if c.isDigit then
      let time := (c :: rest).takeWhile isScalarChar
      (word ++ ' ' :: time, (c :: rest).drop time.length)
    else (word, ' ' :: c :: rest)
  | _, _ => (word, rest)

/-! ## Keys -/

/-- One part of a key. -/
def keyPart? (cs : List Char) : Option (String × List Char) :=
  match cs with
  | '"' :: rest => (lineText? true '"' (cs.length + 1) rest).map fun (s, r) => (String.ofList s, r)
  | '\'' :: rest => (lineText? false '\'' (cs.length + 1) rest).map fun (s, r) => (String.ofList s, r)
  | _ =>
    let word := cs.takeWhile isBare
    if word.isEmpty then none else some (String.ofList word, cs.drop word.length)

/-- A key: parts between dots. -/
def key? : Nat → List Char → Option (List String × List Char)
  | 0, _ => none
  | n + 1, cs => do
    let (part, rest) ← keyPart? (skipSpaces cs)
    match skipSpaces rest with
    | '.' :: rest =>
      let (parts, rest) ← key? n rest
      return (part :: parts, rest)
    | rest => return ([part], rest)

/-! ## Tables -/

/-- How a table came about. -/
inductive Origin
  /-- On the way to a deeper header. -/
  | passing
  /-- By a header of its own. -/
  | header
  /-- By a key with dots. -/
  | dotted
  deriving DecidableEq

inductive Node
  | value (d : Data)
  | table (origin : Origin) (entries : List (String × Node))
  /-- The tables of an array of tables. -/
  | tables (list : List (List (String × Node)))
  deriving Inhabited

abbrev Entries := List (String × Node)

def Entries.find (es : Entries) (key : String) : Option Node := (es.find? (·.1 == key)).map (·.2)

/-- Puts a node in the place of the one with the same key, or at the end. -/
def Entries.set (es : Entries) (key : String) (node : Node) : Entries :=
  if es.any (·.1 == key) then es.map fun e => if e.1 == key then (key, node) else e
  else es ++ [(key, node)]

/-- Changes the table at a path; tables on the way are made as needed. -/
def within (change : Entries → Option Entries) : List String → Entries → Option Entries
  | [], es => change es
  | k :: ks, es =>
    match es.find k with
    | none => (within change ks []).map fun inner => es.set k (.table .passing inner)
    | some (.table origin inner) => (within change ks inner).map fun inner => es.set k (.table origin inner)
    | some (.tables list) =>
      match list.reverse with
      | last :: earlier =>
        (within change ks last).map fun last => es.set k (.tables (last :: earlier).reverse)
      | [] => none
    | some (.value _) => none

/-- Opens the table of a header. -/
def openTable (key : String) (es : Entries) : Option Entries :=
  match es.find key with
  | none => some (es.set key (.table .header []))
  | some (.table .passing inner) => some (es.set key (.table .header inner))
  | _ => none

/-- Adds a table to an array of tables. -/
def openItem (key : String) (es : Entries) : Option Entries :=
  match es.find key with
  | none => some (es.set key (.tables [[]]))
  | some (.tables list) => some (es.set key (.tables (list ++ [[]])))
  | _ => none

/-- Gives a key its value; it must not have one, and only tables made by keys with dots may be
added to. -/
def assign : List String → Data → Entries → Option Entries
  | [], _, _ => none
  | [k], d, es => if (es.find k).isSome then none else some (es.set k (.value d))
  | k :: ks, d, es =>
    match es.find k with
    | none => (assign ks d []).map fun inner => es.set k (.table .dotted inner)
    | some (.table .dotted inner) => (assign ks d inner).map fun inner => es.set k (.table .dotted inner)
    | _ => none

mutual

def Node.toData : Node → Data
  | .value d => d
  | .table _ es => .record (entriesToData es)
  | .tables list => .list (tablesToData list)

def entriesToData : List (String × Node) → List (String × Data)
  | [] => []
  | (k, n) :: es => (k, n.toData) :: entriesToData es

def tablesToData : List (List (String × Node)) → List Data
  | [] => []
  | es :: rest => .record (entriesToData es) :: tablesToData rest

end

/-! ## Values -/

/-- What follows a comment at the end of a line. -/
def skipComment (cs : List Char) : Option (List Char) :=
  match cs with
  | '#' :: rest =>
    let rest := rest.dropWhile isPlain
    if rest.isEmpty || (afterNewline? rest).isSome then some rest else none
  | cs => some cs

/-- What follows blanks, comments and line ends. -/
def skipLines : Nat → List Char → Option (List Char)
  | 0, _ => none
  | n + 1, cs => do
    let rest ← skipComment (skipSpaces cs)
    match afterNewline? rest with
    | some rest => skipLines n rest
    | none => return rest

mutual

/-- A value, and what follows it. The number bounds how many parts it has. -/
def value? : Nat → List Char → Option (Data × List Char)
  | 0, _ => none
  | n + 1, cs =>
    match cs with
    | '[' :: rest => (items? n rest).map fun (ds, rest) => (.list ds, rest)
    | '\x7b' :: rest =>
      (fields? n [] rest).map fun (es, rest) => (.record (entriesToData es), rest)
    | '"' :: _ => (text? cs).map fun (s, rest) => (.text s, rest)
    | '\'' :: _ => (text? cs).map fun (s, rest) => (.text s, rest)
    | _ =>
      let (word, rest) := scalarChars cs
      (scalar? word).map (·, rest)

/-- The items of an array; a comma may stand behind the last. -/
def items? : Nat → List Char → Option (List Data × List Char)
  | 0, _ => none
  | n + 1, cs => do
    let rest ← skipLines (cs.length + 1) cs
    match rest with
    | ']' :: rest => return ([], rest)
    | rest =>
      let (d, rest) ← value? n rest
      let rest ← skipLines (rest.length + 1) rest
      match rest with
      | ',' :: rest =>
        let (ds, rest) ← items? n rest
        return (d :: ds, rest)
      | ']' :: rest => return ([d], rest)
      | _ => none

/-- The fields of a table in braces, added to those before; a comma may stand behind the last. -/
def fields? : Nat → Entries → List Char → Option (Entries × List Char)
  | 0, _, _ => none
  | n + 1, es, cs => do
    let rest ← skipLines (cs.length + 1) cs
    match rest with
    | '\x7d' :: rest => return (es, rest)
    | rest =>
      let (key, rest) ← key? (rest.length + 1) rest
      let rest ← Json.afterWord? ['='] rest
      let (d, rest) ← value? n (skipSpaces rest)
      let es ← assign key d es
      let rest ← skipLines (rest.length + 1) rest
      match rest with
      | ',' :: rest => fields? n es rest
      | '\x7d' :: rest => return (es, rest)
      | _ => none

end

/-! ## Documents -/

/-- What has been read: the whole tree, and the path of the table that lines add to. -/
structure Document where
  entries : Entries := []
  current : List String := []

/-- The end of a line: blanks and a comment. -/
def lineEnd? (cs : List Char) : Option (List Char) := do
  let rest ← skipComment (skipSpaces cs)
  if rest.isEmpty then return [] else afterNewline? rest

/-- Reads one line that is neither blank nor a comment. -/
def line? (doc : Document) (cs : List Char) : Option (Document × List Char) := do
  match cs with
  | '[' :: '[' :: rest =>
    let (key, rest) ← key? (rest.length + 1) rest
    let rest ← Json.afterWord? [']', ']'] rest
    let entries ← within (openItem (key.getLast?.getD "")) key.dropLast doc.entries
    return (⟨entries, key⟩, ← lineEnd? rest)
  | '[' :: rest =>
    let (key, rest) ← key? (rest.length + 1) rest
    let rest ← Json.afterWord? [']'] rest
    let entries ← within (openTable (key.getLast?.getD "")) key.dropLast doc.entries
    return (⟨entries, key⟩, ← lineEnd? rest)
  | _ =>
    let (key, rest) ← key? (cs.length + 1) cs
    let rest ← Json.afterWord? ['='] rest
    let (d, rest) ← value? (rest.length + 1) (skipSpaces rest)
    let entries ← within (assign key d) doc.current doc.entries
    return ({ doc with entries }, ← lineEnd? rest)

/-- Reads lines to the end. -/
def lines? : Nat → Document → List Char → Option Document
  | 0, _, _ => none
  | n + 1, doc, cs =>
    match skipLines (cs.length + 1) cs with
    | none => none
    | some [] => some doc
    | some rest =>
      match line? doc rest with
      | some (doc, rest) => lines? n doc rest
      | none => none

/-- The record that a document stands for. -/
def parse? (s : String) : Option Data :=
  let cs := s.toList
  (lines? (cs.length + 1) {} cs).map fun doc => .record (entriesToData doc.entries)

end PromptPack.Toml
