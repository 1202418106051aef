/-!
# Object ids

Stored objects go by the SHA-1 digest of their bytes. The message is padded to blocks of sixteen
words; every block is expanded to eighty words, which are mixed into five words of state.
-/

namespace PromptPack

/-- The five words of a digest. -/
structure ObjectId where
  a : UInt32
  b : UInt32
  c : UInt32
  d : UInt32
  e : UInt32
  deriving DecidableEq, Repr

namespace ObjectId

def start : ObjectId := ⟨0x67452301, 0xEFCDAB89, 0x98BADCFE, 0x10325476, 0xC3D2E1F0⟩

def rotate (x n : UInt32) : UInt32 := (x <<< n) ||| (x >>> (32 - n))

/-- The bytes of a number in so many bytes, the highest first. -/
def bigEndian : (width : Nat) → Nat → List UInt8
  | 0, _ => []
  | width + 1, n => (n / Nat.pow 256 width).toUInt8 :: bigEndian width n

/-- A one bit, zeros up to eight bytes before the end of a block, and the length in bits. -/
def padding (length : Nat) : List UInt8 :=
  0x80 :: List.replicate ((119 - length % 64) % 64) 0 ++ bigEndian 8 (8 * length)

def wordsOf : List UInt8 → List UInt32
  | w :: x :: y :: z :: rest =>
    ((w.toUInt32 <<< 24) ||| (x.toUInt32 <<< 16) ||| (y.toUInt32 <<< 8) ||| z.toUInt32) ::
      wordsOf rest
  | _ => []

/-- The next word of a block's schedule, from the words so far with the last one first. -/
def nextWord (recent : List UInt32) : UInt32 :=
  let at_ (n : Nat) := recent.getD (n - 1) 0
  rotate (at_ 3 ^^^ at_ 8 ^^^ at_ 14 ^^^ at_ 16) 1

def extend : Nat → List UInt32 → List UInt32
  | 0, recent => recent
  | n + 1, recent => extend n (nextWord recent :: recent)

/-- The eighty words of a block. -/
def schedule (block : List UInt32) : List UInt32 := (extend 64 block.reverse).reverse

/-- The mixing function and the constant of a round. -/
def mix (round : Nat) (s : ObjectId) : UInt32 :=
  if round < 20 then ((s.b &&& s.c) ||| ((~~~s.b) &&& s.d)) + 0x5A827999
  else if round < 40 then (s.b ^^^ s.c ^^^ s.d) + 0x6ED9EBA1
  else if round < 60 then ((s.b &&& s.c) ||| (s.b &&& s.d) ||| (s.c &&& s.d)) + 0x8F1BBCDC
  else (s.b ^^^ s.c ^^^ s.d) + 0xCA62C1D6

def step (s : ObjectId) (word : UInt32 × Nat) : ObjectId :=
  ⟨rotate s.a 5 + mix word.2 s + s.e + word.1, s.a, rotate s.b 30, s.c, s.d⟩

def absorb (s : ObjectId) (block : List UInt32) : ObjectId :=
  let t := (schedule block).zipIdx.foldl step s
  ⟨s.a + t.a, s.b + t.b, s.c + t.c, s.d + t.d, s.e + t.e⟩

def absorbAll (s : ObjectId) (words : List UInt32) : ObjectId :=
  match words with
  | [] => s
  | w :: rest => absorbAll (s.absorb ((w :: rest).take 16)) (rest.drop 15)
termination_by words.length
decreasing_by simp only [List.length_cons, List.length_drop]; omega

/-- The digest of bytes. -/
def ofBytes (bytes : List UInt8) : ObjectId :=
  start.absorbAll (wordsOf (bytes ++ padding bytes.length))

def bytes (id : ObjectId) : List UInt8 :=
  [id.a, id.b, id.c, id.d, id.e].flatMap fun w => bigEndian 4 w.toNat

def hexDigit (n : Nat) : Char := Char.ofNat (if n < 10 then 48 + n else 87 + n)

/-- The forty digits of an id. -/
def text (id : ObjectId) : String :=
  String.ofList (id.bytes.flatMap fun b => [hexDigit (b.toNat / 16), hexDigit (b.toNat % 16)])

end ObjectId

end PromptPack
