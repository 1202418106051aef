/-!
# A digest of 64 bits

The digest that counted texts are remembered by. The input is eaten in stripes of four words by
four lanes, which are then merged; what is left over is stirred in word by word and byte by byte.
-/

namespace PromptPack.Digest

def prime1 : UInt64 := 0x9E3779B185EBCA87
def prime2 : UInt64 := 0xC2B2AE3D27D4EB4F
def prime3 : UInt64 := 0x165667B19E3779F9
def prime4 : UInt64 := 0x85EBCA77C2B2AE63
def prime5 : UInt64 := 0x27D4EB2F165667C5

def rotate (x : UInt64) (n : UInt64) : UInt64 := (x <<< n) ||| (x >>> (64 - n))

/-- The number that bytes stand for, the lowest byte first. -/
def word (bytes : List UInt8) : UInt64 :=
  bytes.foldr (fun b n => (n <<< 8) ||| b.toUInt64) 0

/-- One word stirred into a lane. -/
def round (lane input : UInt64) : UInt64 := rotate (lane + input * prime2) 31 * prime1

structure Lanes where
  a : UInt64
  b : UInt64
  c : UInt64
  d : UInt64

def Lanes.seeded (seed : UInt64) : Lanes :=
  ⟨seed + prime1 + prime2, seed + prime2, seed, seed - prime1⟩

def Lanes.eat (l : Lanes) (stripe : List UInt8) : Lanes :=
  ⟨round l.a (word (stripe.take 8)), round l.b (word ((stripe.drop 8).take 8)),
    round l.c (word ((stripe.drop 16).take 8)), round l.d (word ((stripe.drop 24).take 8))⟩

def mergeLane (h lane : UInt64) : UInt64 := (h ^^^ round 0 lane) * prime1 + prime4

def Lanes.merge (l : Lanes) : UInt64 :=
  let h := rotate l.a 1 + rotate l.b 7 + rotate l.c 12 + rotate l.d 18
  [l.a, l.b, l.c, l.d].foldl mergeLane h

/-- The lanes after all full stripes, and what is left over. -/
def stripes (l : Lanes) (bytes : List UInt8) : Lanes × List UInt8 :=
  if bytes.length < 32 then (l, bytes)
  else stripes (l.eat (bytes.take 32)) (bytes.drop 32)
termination_by bytes.length
decreasing_by simp only [List.length_drop]; omega

/-- Stirs in the bytes that fill no stripe: full words, a half word, single bytes. -/
def tail (h : UInt64) (bytes : List UInt8) : UInt64 :=
  match bytes with
  | [] => h
  | b0 :: rest =>
    if 8 ≤ bytes.length then
      tail (rotate (h ^^^ round 0 (word (bytes.take 8))) 27 * prime1 + prime4) (rest.drop 7)
    else if 4 ≤ bytes.length then
      tail (rotate (h ^^^ (word (bytes.take 4) * prime1)) 23 * prime2 + prime3) (rest.drop 3)
    else tail (rotate (h ^^^ (b0.toUInt64 * prime5)) 11 * prime1) rest
termination_by bytes.length
decreasing_by all_goals simp only [List.length_cons, List.length_drop] at *; omega

/-- Spreads every bit over the whole digest. -/
def finish (h : UInt64) : UInt64 :=
  let h := (h ^^^ (h >>> 33)) * prime2
  let h := (h ^^^ (h >>> 29)) * prime3
  h ^^^ (h >>> 32)

def digest (seed : UInt64) (bytes : List UInt8) : UInt64 :=
  let (lanes, rest) := stripes (.seeded seed) bytes
  let start := if bytes.length < 32 then seed + prime5 else lanes.merge
  finish (tail (start + bytes.length.toUInt64) rest)

/-- The digest of a text. -/
def ofText (s : String) : UInt64 := digest 0 s.toUTF8.toList

end PromptPack.Digest
