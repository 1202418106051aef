/-!
# The shortest decimal text of a double

A finite double stands for every real number that rounds to it. Its text has the fewest digits
that lie among those numbers, and of these the digits nearest to it; they are written without an
exponent.
-/

namespace PromptPack.Decimal

/-- A positive double as `m * 2 ^ q`. -/
structure Binary where
  m : Nat
  q : Int
  deriving DecidableEq, Repr

/-- The parts of a finite double other than zero. -/
def Binary.ofBits (bits : Nat) : Binary :=
  let fraction : Nat := bits % Nat.pow 2 52
  let exponent : Nat := bits / Nat.pow 2 52 % Nat.pow 2 11
  if exponent == 0 then ⟨fraction, -1074⟩ else ⟨fraction + Nat.pow 2 52, (exponent : Int) - 1075⟩

/-- Digits and the power of ten they count. -/
structure Numeral where
  digits : Nat
  exponent : Int
  deriving DecidableEq, Repr

/-- The size of a number of quarters of `2 ^ q`, in units of `1 / scale b e` of `10 ^ e`. -/
def Binary.quarters (b : Binary) (e : Int) (n : Nat) : Nat :=
  n * Nat.pow 2 (b.q - 2).toNat * Nat.pow 10 (-e).toNat

def Binary.scale (b : Binary) (e : Int) : Nat := Nat.pow 10 e.toNat * Nat.pow 2 (2 - b.q).toNat

/-- Whether `k * 10 ^ e` rounds to the double. -/
def Binary.admits (b : Binary) (k : Nat) (e : Int) : Bool :=
  let x := k * b.scale e
  let low := b.quarters e (4 * b.m - if b.m == Nat.pow 2 52 then 1 else 2)
  let high := b.quarters e (4 * b.m + 2)
  if b.m % 2 == 0 then low ≤ x && x ≤ high else low < x && x < high

/-- The nearer of the two neighbours on a grid that rounds to the double, if one does. -/
def Binary.onGrid? (b : Binary) (e : Int) : Option Nat :=
  let x := b.quarters e (4 * b.m)
  let k := x / b.scale e
  let r := x % b.scale e
  let nearDown := 2 * r ≤ b.scale e
  match b.admits k e && k != 0, b.admits (k + 1) e with
  | true, true => some (if nearDown then k else k + 1)
  | true, false => some k
  | false, true => some (k + 1)
  | false, false => none

/-- The power of ten of the leading digit; at most `n` powers below the given one are tried. -/
def Binary.magnitude (b : Binary) : Nat → Int → Int
  | 0, e => e
  | n + 1, e =>
    if b.scale e ≤ b.quarters e (4 * b.m) then e else b.magnitude n (e - 1)

/-- The first hit among grids of more and more digits. -/
def Binary.search (b : Binary) : Nat → Int → Numeral
  | 0, e => ⟨b.quarters e (4 * b.m) / b.scale e, e⟩
  | n + 1, e =>
    match b.onGrid? e with
    | some k => ⟨k, e⟩
    | none => b.search n (e - 1)

def Binary.shortest (b : Binary) : Numeral := b.search 17 (b.magnitude 640 309)

def zeros (n : Nat) : String := String.ofList (List.replicate n '0')

/-- The text of a numeral without an exponent. -/
def Numeral.text (d : Numeral) : String :=
  let digits := toString d.digits
  if 0 ≤ d.exponent then digits ++ zeros d.exponent.toNat
  else
    let places := (-d.exponent).toNat
    let padded := (zeros (places + 1 - digits.length)) ++ digits
    String.ofList (padded.toList.take (padded.length - places)) ++ "." ++
      String.ofList (padded.toList.drop (padded.length - places))

/-- What a double is: a number, zero being without a binary form, or none. -/
inductive Parts
  | finite (negative : Bool) (size : Option Binary)
  | infinite (negative : Bool)
  | undefined

def parts (x : Float) : Parts :=
  let bits := x.toBits.toNat
  let negative : Bool := Nat.pow 2 63 ≤ bits
  let bits := bits % Nat.pow 2 63
  if 2047 * Nat.pow 2 52 < bits then .undefined
  else if bits == 2047 * Nat.pow 2 52 then .infinite negative
  else .finite negative (if bits == 0 then none else some (Binary.ofBits bits))

/-- The text of a double. -/
def text (x : Float) : String :=
  let sign (negative : Bool) : String := if negative then "-" else ""
  match parts x with
  | .finite negative none => sign negative ++ "0"
  | .finite negative (some b) => sign negative ++ b.shortest.text
  | .infinite negative => sign negative ++ "inf"
  | .undefined => "NaN"

/-- The order of a whole number and a double, where they have one. -/
def compareInt? (n : Int) (x : Float) : Option Ordering :=
  match parts x with
  | .finite _ none => some (compare n 0)
  | .finite negative (some b) =>
    let size : Int := (b.m * Nat.pow 2 b.q.toNat : Nat)
    some (compare (n * (Nat.pow 2 (-b.q).toNat : Nat)) (if negative then -size else size))
  | .infinite negative => some (if negative then .gt else .lt)
  | .undefined => none

/-! ## Reading -/

/-- The double nearest to a decimal. Beyond every double it is infinite or zero, which spares the
powers of huge exponents. -/
def nearest (negative : Bool) (digits : Nat) (exponent : Int) : Float :=
  let size := (toString digits).length + exponent
  let x : Float :=
    if digits == 0 || size < -330 then 0.0
    else if 310 < size then 1.0 / 0.0
    else if 0 ≤ exponent then Float.ofScientific (digits * Nat.pow 10 exponent.toNat) false 0
    else Float.ofScientific digits true (-exponent).toNat
  if negative then -x else x

def digitValue (c : Char) : Nat := c.toNat - '0'.toNat

def natOf (cs : List Char) : Nat := cs.foldl (fun n c => 10 * n + digitValue c) 0

/-- The digits in front and what follows them. -/
def spanDigits (cs : List Char) : List Char × List Char := cs.span Char.isDigit

/-- A sign in front, if any, and what follows it. -/
def spanSign : List Char → Bool × List Char
  | '-' :: cs => (true, cs)
  | '+' :: cs => (false, cs)
  | cs => (false, cs)

/-- A whole number that fits into 64 bits with its sign. -/
def word? (n : Int) : Option Int :=
  if -9223372036854775808 ≤ n && n ≤ 9223372036854775807 then some n else none

/-- Reads a whole number with an optional sign, in 64 bits. -/
def wordOfText? (s : String) : Option Int :=
  let (negative, cs) := spanSign s.toList
  if cs.isEmpty || !cs.all Char.isDigit then none
  else word? (if negative then -(natOf cs : Int) else natOf cs)

/-- Reads a decimal: digits on at least one side of the point, and an exponent. -/
def ofText? (s : String) : Option Float :=
  let (negative, cs) := spanSign s.toList
  let (whole, rest) := spanDigits cs
  let (part, rest) := match rest with
    | '.' :: rest => spanDigits rest
    | rest => ([], rest)
  if whole.isEmpty && part.isEmpty then
    match (String.ofList cs).toLower with
    | "inf" | "infinity" => some (if negative then -1.0 / 0.0 else 1.0 / 0.0)
    | "nan" => some (0.0 / 0.0)
    | _ => none
  else
    let digits := natOf (whole ++ part)
    match rest with
    | [] => some (nearest negative digits (-(part.length : Int)))
    | e :: rest =>
      if e != 'e' && e != 'E' then none
      else
        let (down, rest) := spanSign rest
        let (exponent, rest) := spanDigits rest
        if exponent.isEmpty || !rest.isEmpty then none
        else
          let n : Int := natOf (exponent.take 9)
          some (nearest negative digits ((if down then -n else n) - part.length))

end PromptPack.Decimal
