import PromptPack.Data.Basic
/-!
# JSON texts

Data is written as indented JSON, and JSON texts are read back as data.
-/

namespace PromptPack.Json

/-! ## Writing -/

def hexDigit (n : Nat) : Char := Char.ofNat (if n < 10 then 48 + n else 87 + n)

/-- A character inside quotes. -/
def escapeChar (c : Char) : List Char :=
  if c == '"' then ['\\', '"']
  else if c == '\\' then ['\\', '\\']
  else if c == '\x08' then ['\\', 'b']
  else if c == '\x0c' then ['\\', 'f']
  else if c == '\n' then ['\\', 'n']
  else if c == '\r' then ['\\', 'r']
  else if c == '\t' then ['\\', 't']
  else if c.toNat < 32 then ['\\', 'u', '0', '0', hexDigit (c.toNat / 16), hexDigit (c.toNat % 16)]
  else [c]

/-- A text in quotes. -/
def quote (s : String) : List Char := '"' :: s.toList.flatMap escapeChar ++ ['"']

/-- The digits of a numeral without zeros at the end, and the power of ten of the last of them. -/
def significant (d : Decimal.Numeral) : List Char × Int :=
  let all := (toString d.digits).toList
  let kept := (all.reverse.dropWhile (· == '0')).reverse
  (kept, d.exponent + ((all.length : Int) - kept.length))

/-- A numeral with a point: positional from `10 ^ (-5)` up to `10 ^ 16`, with an exponent beyond. -/
def numeralText (d : Decimal.Numeral) : String :=
  let (digits, exponent) := significant d
  let top : Int := digits.length + exponent
  if 0 ≤ exponent && top ≤ 16 then String.ofList digits ++ Decimal.zeros exponent.toNat ++ ".0"
  else if 0 < top && top ≤ 16 then
    String.ofList (digits.take top.toNat) ++ "." ++ String.ofList (digits.drop top.toNat)
  else if -5 < top && top ≤ 0 then "0." ++ Decimal.zeros (-top).toNat ++ String.ofList digits
  else
    let part := digits.drop 1
    String.ofList (digits.take 1) ++ (if part.isEmpty then "" else "." ++ String.ofList part) ++ "e" ++
      toString (top - 1)

/-- The text of a number with a fraction; what is no finite number has none. -/
def numberText (x : Float) : String :=
  match Decimal.parts x with
  | .finite negative none => if negative then "-0.0" else "0.0"
  | .finite negative (some b) => (if negative then "-" else "") ++ numeralText b.shortest
  | _ => "null"

/-- A line end and the blanks of a nesting depth. -/
def newline (depth : Nat) : List Char := '\n' :: List.replicate (2 * depth) ' '

mutual

/-- Data as JSON, with nested values on lines of their own. -/
def render (depth : Nat) : Data → List Char
  | .null => "null".toList
  | .bool b => (if b then "true" else "false").toList
  | .int n => (toString n).toList
  | .real x => (numberText x).toList
  | .text s => quote s
  | .list [] => ['[', ']']
  | .list (d :: ds) =>
    '[' :: newline (depth + 1) ++ render (depth + 1) d ++ renderItems (depth + 1) ds ++
      newline depth ++ [']']
  | .record [] => ['\x7b', '\x7d']
  | .record ((k, d) :: fs) =>
    '\x7b' :: newline (depth + 1) ++ quote k ++ [':', ' '] ++ render (depth + 1) d ++
      renderFields (depth + 1) fs ++ newline depth ++ ['\x7d']

/-- The items behind the first, each with the comma before it. -/
def renderItems (depth : Nat) : List Data → List Char
  | [] => []
  | d :: ds => ',' :: newline depth ++ render depth d ++ renderItems depth ds

/-- The fields behind the first, each with the comma before it. -/
def renderFields (depth : Nat) : List (String × Data) → List Char
  | [] => []
  | (k, d) :: fs =>
    ',' :: newline depth ++ quote k ++ [':', ' '] ++ render depth d ++ renderFields depth fs

end

def pretty (d : Data) : String := String.ofList (render 0 d)

/-! ## Reading -/

def isBlank (c : Char) : Bool := c == ' ' || c == '\t' || c == '\n' || c == '\r'

def skipBlanks (cs : List Char) : List Char := cs.dropWhile isBlank

def hexValue? (c : Char) : Option Nat :=
  if c.isDigit then some (c.toNat - 48)
  else if 'a' ≤ c && c ≤ 'f' then some (c.toNat - 87)
  else if 'A' ≤ c && c ≤ 'F' then some (c.toNat - 55)
  else none

/-- Four hexadecimal digits. -/
def hexWord? : List Char → Option (Nat × List Char)
  | a :: b :: c :: d :: rest => do
    let a ← hexValue? a
    let b ← hexValue? b
    let c ← hexValue? c
    let d ← hexValue? d
    return (4096 * a + 256 * b + 16 * c + d, rest)
  | _ => none

/-- The character of a code behind a backslash and its letter; a high surrogate needs its low
counterpart behind it. -/
def escapedCode? (cs : List Char) : Option (Char × List Char) := do
  let (n, rest) ← hexWord? cs
  if 0xD800 ≤ n && n < 0xDC00 then
    match rest with
    | '\\' :: 'u' :: rest =>
      let (m, rest) ← hexWord? rest
      if 0xDC00 ≤ m && m < 0xE000 then
        return (Char.ofNat (0x10000 + (n - 0xD800) * 0x400 + (m - 0xDC00)), rest)
      else none
    | _ => none
  else if 0xDC00 ≤ n && n < 0xE000 then none
  else return (Char.ofNat n, rest)

def escapedChar? : Char → Option Char
  | '"' => some '"'
  | '\\' => some '\\'
  | '/' => some '/'
  | 'b' => some '\x08'
  | 'f' => some '\x0c'
  | 'n' => some '\n'
  | 'r' => some '\r'
  | 't' => some '\t'
  | _ => none

/-- The characters up to the closing quote. -/
def textFrom? : Nat → List Char → Option (List Char × List Char)
  | 0, _ => none
  | n + 1, cs =>
    match cs with
    | [] => none
    | '"' :: rest => some ([], rest)
    | '\\' :: 'u' :: rest => do
      let (c, rest) ← escapedCode? rest
      let (more, rest) ← textFrom? n rest
      return (c :: more, rest)
    | '\\' :: c :: rest => do
      let c ← escapedChar? c
      let (more, rest) ← textFrom? n rest
      return (c :: more, rest)
    | c :: rest =>
      if c.toNat < 32 || c == '\\' then none
      else do
        let (more, rest) ← textFrom? n rest
        return (c :: more, rest)

/-- Whether digits may stand before the point: no needless zero. -/
def isWhole (digits : List Char) : Bool := !digits.isEmpty && (digits.head? != some '0' || digits.length == 1)

/-- Takes digits into a number as long as it stays below `2 ^ 64`. -/
def gather (n : Nat) : List Char → Nat × List Char
  | [] => (n, [])
  | c :: cs =>
    let next := 10 * n + Decimal.digitValue c
    if next < Nat.pow 2 64 then gather next cs else (n, c :: cs)

/-- A double times a power of ten, in steps that a double can take; beyond every double there is
none. -/
def scaled? : Nat → Float → Int → Option Float
  | 0, _, _ => some 0.0
  | n + 1, x, e =>
    if x == 0.0 then some x
    else if e < -308 then scaled? n (x / Decimal.nearest false 1 308) (e + 308)
    else if e < 0 then some (x / Decimal.nearest false 1 (-e))
    else if 308 < e then none
    else
      let y := x * Decimal.nearest false 1 e
      if y.isInf then none else some y

/-- The number of some digits, the later of them behind the point, and an exponent. -/
def real? (negative : Bool) (whole part : List Char) (exponent : Int) : Option Data :=
  let (n, left) := gather 0 whole
  let (n, lost) := gather n part
  let e : Int := exponent + left.length - ((part.length : Int) - lost.length)
  (scaled? 4 (Float.ofNat n) e).map fun x => .real (if negative then -x else x)

/-- A whole number; one that does not fit into 64 bits, and zero below zero, is kept as a double. -/
def whole? (negative : Bool) (digits : List Char) : Option Data :=
  let n := Decimal.natOf digits
  if negative then
    if n == 0 || Nat.pow 2 63 < n then real? true digits [] 0 else some (.int (-(n : Int)))
  else if n < Nat.pow 2 64 then some (.int n)
  else real? false digits [] 0

/-- A number: whole, or with a fraction or an exponent. -/
def number? (cs : List Char) : Option (Data × List Char) :=
  let (negative, cs) := match cs with
    | '-' :: cs => (true, cs)
    | cs => (false, cs)
  let (whole, rest) := Decimal.spanDigits cs
  if !isWhole whole then none
  else
    let (part, pointed, rest) := match rest with
      | '.' :: rest =>
        let (part, rest) := Decimal.spanDigits rest
        (part, true, rest)
      | rest => ([], false, rest)
    if pointed && part.isEmpty then none
    else
      let plain : Option Data := if pointed then real? negative whole part 0 else whole? negative whole
      match rest with
      | e :: behind =>
        if e == 'e' || e == 'E' then
          let (down, behind) := Decimal.spanSign behind
          let (exponent, behind) := Decimal.spanDigits behind
          if exponent.isEmpty then none
          else
            let n : Int := Decimal.natOf exponent
            (real? negative whole part (if down then -n else n)).map (·, behind)
        else plain.map (·, rest)
      | [] => plain.map (·, rest)

/-- What follows a given word. -/
def afterWord? : List Char → List Char → Option (List Char)
  | [], cs => some cs
  | w :: ws, c :: cs => if w == c then afterWord? ws cs else none
  | _ :: _, [] => none

mutual

/-- A value, and what follows it. The number bounds how many parts it has. -/
def value? : Nat → List Char → Option (Data × List Char)
  | 0, _ => none
  | n + 1, cs =>
    match skipBlanks cs with
    | [] => none
    | '"' :: rest => (textFrom? (rest.length + 1) rest).map fun (s, rest) => (.text (String.ofList s), rest)
    | '[' :: rest =>
      match skipBlanks rest with
      | ']' :: rest => some (.list [], rest)
      | rest => (items? n rest).map fun (ds, rest) => (.list ds, rest)
    | '\x7b' :: rest =>
      match skipBlanks rest with
      | '\x7d' :: rest => some (.record [], rest)
      | rest => (fields? n rest).map fun (fs, rest) => (.record fs, rest)
    | c :: rest =>
      if c == 'n' then (afterWord? "ull".toList rest).map fun rest => (.null, rest)
      else if c == 't' then (afterWord? "rue".toList rest).map fun rest => (.bool true, rest)
      else if c == 'f' then (afterWord? "alse".toList rest).map fun rest => (.bool false, rest)
      else number? (c :: rest)

/-- At least one item, up to the closing bracket. -/
def items? : Nat → List Char → Option (List Data × List Char)
  | 0, _ => none
  | n + 1, cs => do
    let (d, rest) ← value? n cs
    match skipBlanks rest with
    | ',' :: rest =>
      let (ds, rest) ← items? n rest
      return (d :: ds, rest)
    | ']' :: rest => return ([d], rest)
    | _ => none

/-- At least one field, up to the closing brace. -/
def fields? : Nat → List Char → Option (List (String × Data) × List Char)
  | 0, _ => none
  | n + 1, cs => do
    match skipBlanks cs with
    | '"' :: rest =>
      let (k, rest) ← textFrom? (rest.length + 1) rest
      match skipBlanks rest with
      | ':' :: rest =>
        let (d, rest) ← value? n rest
        match skipBlanks rest with
        | ',' :: rest =>
          let (fs, rest) ← fields? n rest
          return ((String.ofList k, d) :: fs, rest)
        | '\x7d' :: rest => return ([(String.ofList k, d)], rest)
        | _ => none
      | _ => none
    | _ => none

end

/-- The data that a JSON text stands for. -/
def parse? (s : String) : Option Data := do
  let cs := s.toList
  let (d, rest) ← value? (cs.length + 1) cs
  if (skipBlanks rest).isEmpty then return d else none

end PromptPack.Json
