import PromptPack.Data.Json
import PromptPack.Text.Category
/-!
# JSON5 texts

JSON with comments, names without quotes, single quotes, commas behind the last item and more
ways to write numbers.
-/

namespace PromptPack.Json5

/-! ## Blanks and comments -/

def isLineEnd (c : Char) : Bool := c == '\n' || c == '\r' || c == '\u2028' || c == '\u2029'

def isBlank (c : Char) : Bool :=
  let n := c.toNat
  isLineEnd c || n == 9 || n == 0xB || n == 0xC || n == 0x20 || n == 0xA0 || n == 0xFEFF || n == 0x1680 ||
    (0x2000 ≤ n && n ≤ 0x200A) || n == 0x202F || n == 0x205F || n == 0x3000

/-- What follows the end of a comment between stars. -/
def afterStars? : List Char → Option (List Char)
  | [] => none
  | '*' :: '/' :: rest => some rest
  | _ :: rest => afterStars? rest

/-- What follows blanks and comments. -/
def skip : Nat → List Char → List Char
  | 0, cs => cs
  | n + 1, cs =>
    let cs := cs.dropWhile isBlank
    match cs with
    | '/' :: '/' :: rest => skip n (rest.dropWhile (!isLineEnd ·))
    | '/' :: '*' :: rest =>
      match afterStars? rest with
      | some rest => skip n rest
      | none => cs
    | cs => cs

/-! ## Names and texts -/

/-- The character of a code in four digits; of a pair of them, where one needs another. -/
def unicodeEscape? (cs : List Char) : Option (Char × List Char) := Json.escapedCode? cs

/-- A character by two digits. -/
def byteEscape? : List Char → Option (Char × List Char)
  | a :: b :: rest => do
    let a ← Json.hexValue? a
    let b ← Json.hexValue? b
    return (Char.ofNat (16 * a + b), rest)
  | _ => none

/-- The character that a letter behind a backslash stands for. -/
def escapedChar (c : Char) : Char :=
  match c with
  | 'b' => '\x08'
  | 'f' => '\x0c'
  | 'n' => '\n'
  | 'r' => '\r'
  | 't' => '\t'
  | 'v' => '\x0b'
  | c => c

/-- The characters up to the closing quote. -/
def textFrom? (quote : Char) : Nat → List Char → Option (List Char × List Char)
  | 0, _ => none
  | n + 1, cs =>
    let keep (found : Option (Char × List Char)) : Option (List Char × List Char) := do
      let (c, rest) ← found
      let (more, rest) ← textFrom? quote n rest
      return (c :: more, rest)
    match cs with
    | [] => none
    | '\\' :: '\r' :: '\n' :: rest => textFrom? quote n rest
    | '\\' :: 'u' :: rest => keep (unicodeEscape? rest)
    | '\\' :: 'x' :: rest => keep (byteEscape? rest)
    | '\\' :: '0' :: rest => keep (some ('\x00', rest))
    | '\\' :: c :: rest =>
      if isLineEnd c then textFrom? quote n rest
      else if c.isDigit then none
      else keep (some (escapedChar c, rest))
    | c :: rest =>
      if c == quote then some ([], rest)
      else if c == '\\' || isLineEnd c then none
      else keep (some (c, rest))

def startsName (c : Char) : Bool := Text.Category.isLetter c || c == '$' || c == '_'

def continuesName (c : Char) : Bool :=
  startsName c || Text.Category.isMark c || Text.Category.isNumber c || c == '\u203F' || c == '\u2040' || c == '\u200C' ||
    c == '\u200D'

/-- A name without quotes. -/
def nameFrom? : Nat → (isFirst : Bool) → List Char → Option (List Char × List Char)
  | 0, _, _ => none
  | n + 1, isFirst, cs =>
    let one : Option (Char × List Char) := match cs with
      | '\\' :: 'u' :: rest => unicodeEscape? rest
      | c :: rest => if startsName c || (!isFirst && continuesName c) then some (c, rest) else none
      | [] => none
    match one with
    | some (c, rest) => (nameFrom? n false rest).map fun (more, rest) => (c :: more, rest)
    | none => if isFirst then none else some ([], cs)

/-! ## Numbers -/

/-- A number without its sign. -/
def size? (negative signed : Bool) (cs : List Char) : Option (Data × List Char) :=
  match cs with
  | '0' :: x :: rest =>
    if x == 'x' || x == 'X' then
      let digits := rest.takeWhile fun c => (Json.hexValue? c).isSome
      let n := digits.foldl (fun n c => 16 * n + (Json.hexValue? c).getD 0) 0
      if digits.isEmpty || signed || Nat.pow 2 32 ≤ n then none else some (.int n, rest.drop digits.length)
    else decimal? cs
  | _ =>
    match Json.afterWord? "Infinity".toList cs, Json.afterWord? "NaN".toList cs with
    | some rest, _ => some (.real (if negative then -1.0 / 0.0 else 1.0 / 0.0), rest)
    | _, some rest => some (.real (0.0 / 0.0), rest)
    | _, _ => decimal? cs
where
  decimal? (cs : List Char) : Option (Data × List Char) :=
    let (whole, rest) := Decimal.spanDigits cs
    let whole := if whole.head? == some '0' then ['0'] else whole
    let rest := if whole == ['0'] then cs.drop 1 else rest
    let (part, pointed, rest) := match rest with
      | '.' :: rest =>
        let (part, rest) := Decimal.spanDigits rest
        (part, true, rest)
      | rest => ([], false, rest)
    if whole.isEmpty && part.isEmpty then none
    else
      let digits := Decimal.natOf (whole ++ part)
      let real (exponent : Int) (rest : List Char) : Option (Data × List Char) :=
        let x := Decimal.nearest negative digits (exponent - part.length)
        if x.isInf then none else some (.real x, rest)
      let plain := if pointed then real 0 rest
        else (Decimal.word? (if negative then -(digits : Int) else digits)).map fun n => (.int n, rest)
      match rest with
      | e :: behind =>
        let (down, behind) := Decimal.spanSign behind
        let (exponent, behind) := Decimal.spanDigits behind
        if (e == 'e' || e == 'E') && !exponent.isEmpty then
          let n : Int := Decimal.natOf (exponent.take 9)
          real (if down then -n else n) behind
        else plain
      | [] => plain

def number? (cs : List Char) : Option (Data × List Char) :=
  match cs with
  | '-' :: rest => size? true true rest
  | '+' :: rest => size? false true rest
  | cs => size? false false cs

/-! ## Values -/

mutual

/-- A value, and what follows it. The number bounds how many parts it has. -/
def value? : Nat → List Char → Option (Data × List Char)
  | 0, _ => none
  | n + 1, cs =>
    let cs := skip (cs.length + 1) cs
    match cs with
    | '"' :: rest => (textFrom? '"' (cs.length + 1) rest).map fun (s, rest) => (.text (String.ofList s), rest)
    | '\'' :: rest => (textFrom? '\'' (cs.length + 1) rest).map fun (s, rest) => (.text (String.ofList s), rest)
    | '[' :: rest => (items? n rest).map fun (ds, rest) => (.list ds, rest)
    | '\x7b' :: rest => (fields? n rest).map fun (fs, rest) => (.record fs, rest)
    | _ =>
      match Json.afterWord? "null".toList cs, Json.afterWord? "true".toList cs, Json.afterWord? "false".toList cs with
      | some rest, _, _ => some (.null, rest)
      | _, some rest, _ => some (.bool true, rest)
      | _, _, some rest => some (.bool false, rest)
      | _, _, _ => number? cs

/-- Items up to the closing bracket; a comma may stand behind the last. -/
def items? : Nat → List Char → Option (List Data × List Char)
  | 0, _ => none
  | n + 1, cs =>
    match skip (cs.length + 1) cs with
    | ']' :: rest => some ([], rest)
    | cs => do
      let (d, rest) ← value? n cs
      match skip (rest.length + 1) rest with
      | ',' :: rest =>
        let (ds, rest) ← items? n rest
        return (d :: ds, rest)
      | ']' :: rest => return ([d], rest)
      | _ => none

/-- Fields up to the closing brace; a comma may stand behind the last. -/
def fields? : Nat → List Char → Option (List (String × Data) × List Char)
  | 0, _ => none
  | n + 1, cs =>
    match skip (cs.length + 1) cs with
    | '\x7d' :: rest => some ([], rest)
    | cs => do
      let (key, rest) ← match cs with
        | '"' :: rest => textFrom? '"' (cs.length + 1) rest
        | '\'' :: rest => textFrom? '\'' (cs.length + 1) rest
        | cs => nameFrom? (cs.length + 1) true cs
      match skip (rest.length + 1) rest with
      | ':' :: rest =>
        let (d, rest) ← value? n rest
        match skip (rest.length + 1) rest with
        | ',' :: rest =>
          let (fs, rest) ← fields? n rest
          return ((String.ofList key, d) :: fs, rest)
        | '\x7d' :: rest => return ([(String.ofList key, d)], rest)
        | _ => none
      | _ => none

end

/-- The data that a text stands for. -/
def parse? (s : String) : Option Data := do
  let cs := s.toList
  let (d, rest) ← value? (cs.length + 1) cs
  if (skip (rest.length + 1) rest).isEmpty then return d else none

end PromptPack.Json5
