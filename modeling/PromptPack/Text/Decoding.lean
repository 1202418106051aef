/-!
# Decoding bytes as UTF-8

Well-formed sequences become their characters. A sequence that breaks off or never could begin
becomes one replacement character, and reading goes on at the first byte that did not fit.
-/

namespace PromptPack.Text

/-- What a leading byte promises: the number of continuation bytes, the range of the first of
them, and the bits that it contributes itself. -/
structure Lead where
  more : Nat
  low : Nat
  high : Nat
  bits : Nat

/-- The promise of a leading byte beyond ASCII; `none` for a byte that cannot lead. The narrowed
ranges rule out overlong forms, surrogates and code points past the last. -/
def lead? (b : Nat) : Option Lead :=
  if 0xC2 ≤ b && b ≤ 0xDF then some ⟨1, 0x80, 0xBF, b - 0xC0⟩
  else if b == 0xE0 then some ⟨2, 0xA0, 0xBF, 0⟩
  else if b == 0xED then some ⟨2, 0x80, 0x9F, 0xD⟩
  else if 0xE1 ≤ b && b ≤ 0xEF then some ⟨2, 0x80, 0xBF, b - 0xE0⟩
  else if b == 0xF0 then some ⟨3, 0x90, 0xBF, 0⟩
  else if 0xF1 ≤ b && b ≤ 0xF3 then some ⟨3, 0x80, 0xBF, b - 0xF0⟩
  else if b == 0xF4 then some ⟨3, 0x80, 0x8F, 4⟩
  else none

/-- The replacement character. -/
def replacement : Char := '\uFFFD'

/-- Reads `more` continuation bytes, the first within the range, onto the bits gathered so far:
how many bytes fitted, and the code point when all of them did. -/
def continuation : (more low high bits : Nat) → List UInt8 → Nat × Option Nat
  | 0, _, _, bits, _ => (0, some bits)
  | _ + 1, _, _, _, [] => (0, none)
  | more + 1, low, high, bits, b :: rest =>
    if low ≤ b.toNat ∧ b.toNat ≤ high then
      let (n, code) := continuation more 0x80 0xBF (bits * 64 + (b.toNat - 0x80)) rest
      (n + 1, code)
    else (0, none)

/-- The first character of a non-empty byte sequence and the number of bytes after the first that
it took; `none` stands for a broken sequence. -/
def decodeFirst (b : UInt8) (rest : List UInt8) : Option Char × Nat :=
  if b.toNat < 0x80 then (some (Char.ofNat b.toNat), 0)
  else
    match lead? b.toNat with
    | none => (none, 0)
    | some l =>
      match continuation l.more l.low l.high l.bits rest with
      | (n, some code) => (some (Char.ofNat code), n)
      | (n, none) => (none, n)

/-- The characters of a byte sequence in reverse, in front of `acc`. -/
def decodeOnto : List UInt8 → List (Option Char) → List (Option Char)
  | [], acc => acc
  | b :: rest, acc =>
    let (c, n) := decodeFirst b rest
    decodeOnto (rest.drop n) (c :: acc)
termination_by bytes => bytes.length
decreasing_by simp only [List.length_cons, List.length_drop]; omega

/-- The characters of a byte sequence, `none` for each broken sequence. -/
def decode (bytes : ByteArray) : List (Option Char) := (decodeOnto bytes.toList []).reverse

/-- The text of the bytes with a replacement character for each broken sequence. -/
def decodeLossy (bytes : ByteArray) : String :=
  String.ofList ((decode bytes).map (·.getD replacement))

/-- The text of the bytes when every sequence is well formed. -/
def decode? (bytes : ByteArray) : Option String :=
  let cs := decode bytes
  if cs.all (·.isSome) then some (String.ofList (cs.filterMap id)) else none

end PromptPack.Text
