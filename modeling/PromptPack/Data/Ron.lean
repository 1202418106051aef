import PromptPack.Data.Json
import PromptPack.Data.Json5
/-!
# RON texts

Structures with named fields in parentheses, maps in braces, lists in brackets. A name stands in
front of a structure or alone, and optional values are written with their own words.
-/

namespace PromptPack.Ron

/-! ## Blanks and comments -/

def isBlank (c : Char) : Bool :=
  c == ' ' || c == '\t' || c == '\n' || c == '\r' || c == '\x0b' || c == '\x0c' || c == '\u0085' ||
    c == '\u200E' || c == '\u200F' || c == '\u2028' || c == '\u2029'

/-- What follows the end of a comment that is open so many times. -/
def afterComment? : (depth : Nat) → List Char → Option (List Char)
  | _, [] => none
  | depth, '/' :: '*' :: rest => afterComment? (depth + 1) rest
  | depth, '*' :: '/' :: rest => if depth ≤ 1 then some rest else afterComment? (depth - 1) rest
  | depth, _ :: rest => afterComment? depth rest

/-- What follows blanks and comments. -/
def skip : Nat → List Char → List Char
  | 0, cs => cs
  | n + 1, cs =>
    let cs := cs.dropWhile isBlank
    match cs with
    | '/' :: '/' :: rest => skip n (rest.dropWhile (· != '\n'))
    | '/' :: '*' :: rest =>
      match afterComment? 1 rest with
      | some rest => skip n rest
      | none => cs
    | cs => cs

/-! ## Scalars -/

/-- A character by its code in braces. -/
def bracedCode? (cs : List Char) : Option (Char × List Char) := do
  let rest ← Json.afterWord? ['\x7b'] cs
  let digits := rest.takeWhile fun c => (Json.hexValue? c).isSome
  let n := digits.foldl (fun n c => 16 * n + (Json.hexValue? c).getD 0) 0
  let rest ← Json.afterWord? ['\x7d'] (rest.drop digits.length)
  if digits.isEmpty || 6 < digits.length || 0x10FFFF < n || (0xD800 ≤ n && n < 0xE000) then none
  else return (Char.ofNat n, rest)

/-- The character behind a backslash. -/
def escape? : List Char → Option (Char × List Char)
  | '\'' :: cs => some ('\'', cs)
  | '"' :: cs => some ('"', cs)
  | '\\' :: cs => some ('\\', cs)
  | 'n' :: cs => some ('\n', cs)
  | 'r' :: cs => some ('\r', cs)
  | 't' :: cs => some ('\t', cs)
  | '0' :: cs => some ('\x00', cs)
  | 'x' :: cs => Json5.byteEscape? cs
  | 'u' :: cs => bracedCode? cs
  | _ => none

/-- The characters up to the closing quote. -/
def textFrom? : Nat → List Char → Option (List Char × List Char)
  | 0, _ => none
  | n + 1, cs =>
    match cs with
    | [] => none
    | '"' :: rest => some ([], rest)
    | '\\' :: rest => do
      let (c, rest) ← escape? rest
      let (more, rest) ← textFrom? n rest
      return (c :: more, rest)
    | c :: rest => (textFrom? n rest).map fun (more, rest) => (c :: more, rest)

/-- The characters up to a quote with so many hash signs. -/
def rawFrom? (hashes : Nat) : List Char → Option (List Char × List Char)
  | [] => none
  | c :: rest =>
    match (if c == '"' then Json.afterWord? (List.replicate hashes '#') rest else none) with
    | some rest => some ([], rest)
    | none => (rawFrom? hashes rest).map fun (more, rest) => (c :: more, rest)

/-- A text: quoted, or raw behind its letter. -/
def text? (cs : List Char) : Option (String × List Char) :=
  let found := match cs with
    | '"' :: rest => textFrom? (cs.length + 1) rest
    | 'r' :: rest =>
      let hashes := (rest.takeWhile (· == '#')).length
      (Json.afterWord? ['"'] (rest.drop hashes)).bind (rawFrom? hashes)
    | _ => none
  found.map fun (s, rest) => (String.ofList s, rest)

/-- One character in single quotes. -/
def char? (cs : List Char) : Option (String × List Char) := do
  let rest ← Json.afterWord? ['\''] cs
  let (c, rest) ← match rest with
    | '\\' :: rest => escape? rest
    | c :: rest => some (c, rest)
    | [] => none
  return (String.ofList [c], ← Json.afterWord? ['\''] rest)

def startsName (c : Char) : Bool := Text.Category.isLetter c || c == '_'

/-- A name, and what follows it. -/
def name? (cs : List Char) : Option (String × List Char) :=
  match cs with
  | c :: _ =>
    if startsName c then
      let word := cs.takeWhile fun c => startsName c || Text.Category.isNumber c || Text.Category.isMark c
      some (String.ofList word, cs.drop word.length)
    else none
  | [] => none

/-- The digits of a whole number in a base, with lines between them. -/
def based? (base : Nat) (cs : List Char) : Option Nat :=
  let digits := cs.filter (· != '_')
  if digits.isEmpty then none
  else digits.foldlM (fun n c => (Json.hexValue? c).bind fun d => if d < base then some (base * n + d) else none) 0

/-- A number: whole in one of four bases, or with a point or an exponent. -/
def number? (cs : List Char) : Option (Data × List Char) :=
  let word := cs.takeWhile fun c => c.isAlphanum || c == '_' || c == '.' || c == '+' || c == '-'
  let rest := cs.drop word.length
  let (negative, size) := Decimal.spanSign word
  let whole (n : Option Nat) : Option (Data × List Char) :=
    n.map fun n => (.int (if negative then -(n : Int) else n), rest)
  match size with
  | '0' :: 'x' :: digits => whole (based? 16 digits)
  | '0' :: 'b' :: digits => whole (based? 2 digits)
  | '0' :: 'o' :: digits => whole (based? 8 digits)
  | '_' :: _ => none
  | _ =>
    if size.all fun c => c.isDigit || c == '_' then whole (based? 10 size)
    else (Decimal.ofText? (String.ofList (word.filter (· != '_')))).map fun x => (.real x, rest)

/-! ## Values -/

/-- Whether a name and a colon stand here. -/
def seesField (cs : List Char) : Bool :=
  match name? cs with
  | some (_, rest) => (skip (rest.length + 1) rest).head? == some ':'
  | none => false

/-- The end of a group: a comma and more of it, or the closing character. -/
inductive Behind
  | more (rest : List Char)
  | closed (rest : List Char)

def behind? (close : Char) (cs : List Char) : Option Behind :=
  match skip (cs.length + 1) cs with
  | ',' :: rest =>
    match skip (rest.length + 1) rest with
    | c :: behind => if c == close then some (.closed behind) else some (.more (c :: behind))
    | [] => none
  | c :: rest => if c == close then some (.closed rest) else none
  | [] => none

mutual

/-- A value, and what follows it. The number bounds how many parts it has. -/
def value? : Nat → List Char → Option (Data × List Char)
  | 0, _ => none
  | n + 1, cs =>
    let cs := skip (cs.length + 1) cs
    match text? cs with
    | some (s, rest) => some (.text s, rest)
    | none =>
      match name? cs with
      | some ("true", rest) => some (.bool true, rest)
      | some ("false", rest) => some (.bool false, rest)
      | some ("None", rest) => some (.null, rest)
      | some ("inf", rest) => some (.real (1.0 / 0.0), rest)
      | some ("NaN", rest) => some (.real (0.0 / 0.0), rest)
      | some ("Some", rest) => do
        let rest ← Json.afterWord? ['('] (skip (rest.length + 1) rest)
        let (d, rest) ← value? n rest
        match ← behind? ')' rest with
        | .closed rest => return (d, rest)
        | .more _ => none
      | some (_, rest) =>
        match skip (rest.length + 1) rest with
        | '(' :: inner => group? n inner
        | rest => some (.null, rest)
      | none =>
        match cs with
        | '(' :: inner => group? n inner
        | '[' :: inner =>
          match skip (inner.length + 1) inner with
          | ']' :: rest => some (.list [], rest)
          | inner => (items? n ']' inner).map fun (ds, rest) => (.list ds, rest)
        | '\x7b' :: inner =>
          match skip (inner.length + 1) inner with
          | '\x7d' :: rest => some (.record [], rest)
          | inner => (pairs? n inner).map fun (fs, rest) => (.record fs, rest)
        | '\'' :: _ => (char? cs).map fun (s, rest) => (.text s, rest)
        | _ => number? cs

/-- What stands in parentheses: nothing, named fields, or items. -/
def group? : Nat → List Char → Option (Data × List Char)
  | 0, _ => none
  | n + 1, cs =>
    let cs := skip (cs.length + 1) cs
    match cs with
    | ')' :: rest => some (.null, rest)
    | cs =>
      if seesField cs then (fields? n cs).map fun (fs, rest) => (.record fs, rest)
      else (items? n ')' cs).map fun (ds, rest) => (.list ds, rest)

/-- At least one item, up to the closing character. -/
def items? : Nat → (close : Char) → List Char → Option (List Data × List Char)
  | 0, _, _ => none
  | n + 1, close, cs => do
    let (d, rest) ← value? n cs
    match ← behind? close rest with
    | .closed rest => return ([d], rest)
    | .more rest =>
      let (ds, rest) ← items? n close rest
      return (d :: ds, rest)

/-- At least one named field, up to the closing parenthesis. -/
def fields? : Nat → List Char → Option (List (String × Data) × List Char)
  | 0, _ => none
  | n + 1, cs => do
    let (key, rest) ← name? cs
    let rest ← Json.afterWord? [':'] (skip (rest.length + 1) rest)
    let (d, rest) ← value? n rest
    match ← behind? ')' rest with
    | .closed rest => return ([(key, d)], rest)
    | .more rest =>
      let (fs, rest) ← fields? n rest
      return ((key, d) :: fs, rest)

/-- At least one entry of a map with texts for keys, up to the closing brace. -/
def pairs? : Nat → List Char → Option (List (String × Data) × List Char)
  | 0, _ => none
  | n + 1, cs => do
    let (key, rest) ← value? n cs
    let rest ← Json.afterWord? [':'] (skip (rest.length + 1) rest)
    let (d, rest) ← value? n rest
    match key with
    | .text key =>
      match ← behind? '\x7d' rest with
      | .closed rest => return ([(key, d)], rest)
      | .more rest =>
        let (fs, rest) ← pairs? n rest
        return ((key, d) :: fs, rest)
    | _ => none

end

/-- What follows the marks in front of a document that turn extensions on. -/
def skipMarks : Nat → List Char → List Char
  | 0, cs => cs
  | n + 1, cs =>
    let cs := skip (cs.length + 1) cs
    match Json.afterWord? "#![enable(".toList cs with
    | some rest => skipMarks n ((rest.dropWhile (· != ']')).drop 1)
    | none => cs

/-- The data that a text stands for. -/
def parse? (s : String) : Option Data := do
  let cs := skipMarks (s.length + 1) s.toList
  let (d, rest) ← value? (3 * cs.length + 3) cs
  if (skip (rest.length + 1) rest).isEmpty then return d else none

end PromptPack.Ron
