import PromptPack.Glob.Pattern
/-!
# Matching paths against globs

A pattern is matched against the bytes of a whole path. A path whose last component is a pair of
dots has no base name, so a pattern that is decided by the base name alone never matches it.
-/

namespace PromptPack.Glob

def slash : UInt8 := 47

/-- The bytes of a character. -/
def bytesOf (c : Char) : List UInt8 := (String.utf8EncodeChar c)

/-- The bytes of `path` behind `bytes`, when it starts with them. -/
def dropBytes? : List UInt8 → List UInt8 → Option (List UInt8)
  | [], s => some s
  | _ :: _, [] => none
  | b :: bs, c :: s => if b == c then dropBytes? bs s else none

/-- A range of characters covers, byte by byte: the bytes of its ends, and every byte between the
last byte of the lower end and the first byte of the upper end. -/
def inRange (b : UInt8) (range : Char × Char) : Bool :=
  let low := bytesOf range.1
  let high := bytesOf range.2
  low.contains b || high.contains b ||
    (match low.getLast?, high.head? with
    | some l, some h => l ≤ b && b ≤ h
    | _, _ => false)

/-- Whether `k` holds of the bytes after some slash. -/
def afterSlash (k : List UInt8 → Bool) : List UInt8 → Bool
  | [] => false
  | b :: s => (b == slash && k s) || afterSlash k s

/-- Whether `k` holds of some end of `s`. -/
def someEnd (k : List UInt8 → Bool) : List UInt8 → Bool
  | [] => k []
  | b :: s => k (b :: s) || someEnd k s

/-- Whether `k` holds of what is left after some bytes other than slashes. -/
def afterRun (k : List UInt8 → Bool) : List UInt8 → Bool
  | [] => k []
  | b :: s => k (b :: s) || (b != slash && afterRun k s)

mutual

/-- Whether the token has nothing to say: a choice among nothing but such branches. -/
def Token.isVoid : Token → Bool
  | .choice branches => allVoid branches
  | _ => false

def isVoid : List Token → Bool
  | [] => true
  | t :: ts => t.isVoid && isVoid ts

def allVoid : List (List Token) → Bool
  | [] => true
  | b :: bs => isVoid b && allVoid bs

end

mutual

/-- Whether the token matches some beginning of `s` so that `k` holds of the rest. -/
def Token.run? (k : List UInt8 → Bool) : Token → List UInt8 → Bool
  | .literal c, s => ((dropBytes? (bytesOf c) s).map k).getD false
  | .single, s =>
    match s with
    | [] => false
    | b :: s' => b != slash && k s'
  | .run, s => afterRun k s
  | .leading, s => k s || afterSlash k s
  | .trailing, s =>
    match s with
    | [] => false
    | b :: s' => b == slash && someEnd k s'
  | .middle, s =>
    match s with
    | [] => false
    | b :: s' => b == slash && (k s' || afterSlash k s')
  | .oneOf negated ranges, s =>
    match s with
    | [] => false
    | b :: s' => (ranges.any (inRange b) != negated) && k s'
  | .choice branches, s => if allVoid branches then k s else someBranch k branches s

def runAll (k : List UInt8 → Bool) : List Token → List UInt8 → Bool
  | [], s => k s
  | t :: ts, s => t.run? (runAll k ts) s

/-- Void branches do not take part in a choice. -/
def someBranch (k : List UInt8 → Bool) : List (List Token) → List UInt8 → Bool
  | [], _ => false
  | b :: bs, s => (!isVoid b && runAll k b s) || someBranch k bs s

end

def isLiteral : Token → Bool
  | .literal _ => true
  | _ => false

/-- Whether the pattern ends in a dot and is decided by the base name: it is no plain text, and no
plain text of several components behind a leading double star. -/
def needsBaseName (p : Pattern) : Bool :=
  match p.getLast? with
  | some (.literal '.') =>
    match p with
    | .leading :: ts =>
      !(ts.all isLiteral && ts.any fun t => match t with | .literal '/' => true | _ => false)
    | _ => !p.all isLiteral
  | _ => false

/-- Whether the last component of a path is a pair of dots. -/
def lacksBaseName (bytes : List UInt8) : Bool :=
  bytes.reverse.takeWhile (· != slash) == [46, 46]

/-- Whether the pattern matches a path. -/
def Pattern.matches (p : Pattern) (path : String) : Bool :=
  match p with
  | [.leading] => true
  | _ =>
    let bytes := path.toUTF8.toList
    runAll (·.isEmpty) p bytes && !(needsBaseName p && lacksBaseName bytes)

end PromptPack.Glob
