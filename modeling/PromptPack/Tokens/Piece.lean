import PromptPack.Text.Blank
import PromptPack.Text.Category
import PromptPack.Tokens.Encoding
/-!
# Pieces

Before bytes are merged a text is cut into pieces: words with the character before them, groups of
digits, runs of other signs and runs of blanks. No token reaches over the end of a piece. The
families differ in what may stand before a word and in where words, digits and line ends are cut.
-/

namespace PromptPack.Tokens

open Text Text.Category

/-- How many of the leading characters have a property. -/
def run (p : Char → Bool) (cs : List Char) : Nat := (cs.takeWhile p).length

/-- The endings that stand behind an apostrophe, the single letters first. -/
def contractions : List (List Char) :=
  ["s".toList, "t".toList, "re".toList, "ve".toList, "m".toList, "ll".toList, "d".toList]

/-- The length of a contraction; `fold` makes its letters small first. -/
def contraction? (fold : Char → Char) : List Char → Option Nat
  | '\'' :: cs =>
    (contractions.find? fun e => (cs.take e.length).map fold == e).map fun e => e.length + 1
  | _ => none

def isSign (c : Char) : Bool := !isBlank c && !isLetter c && !isNumber c

def isLineEnd (c : Char) : Bool := c == '\n' || c == '\r'

/-- The length of a run of a class, after one blank where there is one. -/
def spacedRun? (p : Char → Bool) (cs : List Char) : Option Nat :=
  let (lead, rest) := match cs with
    | ' ' :: rest => (1, rest)
    | _ => (0, cs)
  let n := run p rest
  if n == 0 then none else some (lead + n)

/-- Blanks before something else leave their last one to it. -/
def blanks? (cs : List Char) : Option Nat :=
  let n := run isBlank cs
  if n == 0 then none
  else if n == 1 || (cs.drop n).isEmpty then some n
  else some (n - 1)

/-- Blanks through the last line end among them. -/
def lineEnds? (cs : List Char) : Option Nat :=
  let blanks := cs.takeWhile isBlank
  let n := (blanks.reverse.dropWhile fun c => !isLineEnd c).length
  if n == 0 then none else some n

/-- At most three digits. -/
def digits? (cs : List Char) : Option Nat :=
  let n := min 3 (run isNumber cs)
  if n == 0 then none else some n

/-- Signs after at most one blank, with the trailing characters that go along. -/
def signs? (trailing : Char → Bool) (cs : List Char) : Option Nat :=
  (spacedRun? isSign cs).map fun n => n + run trailing (cs.drop n)

/-- What may stand before a word: anything but a line end, a letter or a number. -/
def isWordLead (c : Char) : Bool := !isLineEnd c && !isLetter c && !isNumber c

/-- A word as `word?` measures it, with the character before it where that works out. -/
def ledWord? (word? : List Char → Option Nat) (cs : List Char) : Option Nat :=
  match cs with
  | c :: rest =>
    if isWordLead c then ((word? rest).map (· + 1)).or (word? cs) else word? cs
  | [] => none

/-- A run of letters. -/
def letters? (cs : List Char) : Option Nat :=
  let n := run isLetter cs
  if n == 0 then none else some n

/-- What can stand in the first part of a word whose case is looked at, and in its second. -/
def isHigh (c : Char) : Bool := isCapital c || isUncased c || isMark c
def isLow (c : Char) : Bool := isSmall c || isUncased c || isMark c

/-- Capital letters and then small ones; at least one small one where that can be had. -/
def casedLetters? (cs : List Char) : Option Nat :=
  let high := cs.takeWhile isHigh
  let low := run isLow (cs.drop high.length)
  if low != 0 then some (high.length + low)
  else
    let back := (high.reverse.dropWhile fun c => !isLow c).length
    if back != 0 then some back
    else if high.length != 0 then some high.length
    else none

/-- Letters by case, with a contraction behind them. -/
def casedWord? (cs : List Char) : Option Nat :=
  (casedLetters? cs).map fun n => n + ((contraction? Char.toLower (cs.drop n)).getD 0)

/-- The ways to find the piece in front, the first that works counts. -/
def rules : Encoding → List (List Char → Option Nat)
  | .r50k => [contraction? id, spacedRun? isLetter, spacedRun? isNumber, spacedRun? isSign, blanks?]
  | .p50k => [contraction? id, spacedRun? isLetter, spacedRun? isNumber, spacedRun? isSign, blanks?]
  | .cl100k =>
    [contraction? Char.toLower, ledWord? letters?, digits?, signs? isLineEnd, lineEnds?, blanks?]
  | .o200k =>
    [ledWord? casedWord?, digits?, signs? fun c => isLineEnd c || c == '/', lineEnds?, blanks?]

/-- The length of the piece in front, at least one. -/
def pieceLength (encoding : Encoding) (cs : List Char) : Nat :=
  max 1 (((rules encoding).findSome? fun rule => rule cs).getD 1)

/-- The text cut into its pieces. -/
def piecesOnto (encoding : Encoding) (cs : List Char) (done : List (List Char)) : List (List Char) :=
  match cs with
  | [] => done.reverse
  | c :: rest =>
    let n := pieceLength encoding (c :: rest)
    piecesOnto encoding (rest.drop (n - 1)) ((c :: rest).take n :: done)
termination_by cs.length
decreasing_by simp only [List.length_cons, List.length_drop]; omega

def pieces (encoding : Encoding) (s : String) : List (List Char) := piecesOnto encoding s.toList []

end PromptPack.Tokens
