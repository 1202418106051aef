/-!
# Blank characters, trimming and lines

The white space of this library is the Unicode property `White_Space`. Trimming removes it from
both ends; a line ends at a line feed, and one carriage return right before the feed belongs to
the line ending.
-/

namespace PromptPack.Text

/-- The characters with the Unicode property `White_Space`. -/
def isBlank (c : Char) : Bool :=
  let n := c.toNat
  (9 ≤ n && n ≤ 13) || n == 0x20 || n == 0x85 || n == 0xA0 || n == 0x1680 ||
    (0x2000 ≤ n && n ≤ 0x200A) || n == 0x2028 || n == 0x2029 || n == 0x202F || n == 0x205F ||
    n == 0x3000

/-- Every character that core calls white space is blank. -/
theorem isBlank_of_isWhitespace {c : Char} (h : c.isWhitespace = true) : isBlank c = true := by
  simp only [Char.isWhitespace, Bool.or_eq_true, decide_eq_true_eq] at h
  rcases h with ((h | h) | h) | h <;> subst h <;> decide

/-! ## Trimming -/

def trimStartChars (cs : List Char) : List Char := cs.dropWhile isBlank

def trimEndChars (cs : List Char) : List Char := (cs.reverse.dropWhile isBlank).reverse

def trimChars (cs : List Char) : List Char := trimEndChars (trimStartChars cs)

/-- The text without the blanks at its start. -/
def trimStart (s : String) : String := String.ofList (trimStartChars s.toList)

/-- The text without the blanks at its end. -/
def trimEnd (s : String) : String := String.ofList (trimEndChars s.toList)

/-- The text without the blanks at either end. -/
def trim (s : String) : String := String.ofList (trimChars s.toList)

/-! ## Splitting -/

/-- The pieces between the characters that satisfy `p`; always at least one piece. -/
def splitChars (p : Char → Bool) : List Char → List (List Char)
  | [] => [[]]
  | c :: cs =>
    if p c then [] :: splitChars p cs
    else
      match splitChars p cs with
      | [] => [[c]]
      | piece :: rest => (c :: piece) :: rest

/-- The pieces of `s` between occurrences of `c`. -/
def splitAt (c : Char) (s : String) : List String :=
  (splitChars (· == c) s.toList).map String.ofList

/-- One carriage return at the end belongs to the line ending. -/
def dropReturn (line : List Char) : List Char :=
  match line.getLast? with
  | some '\r' => line.dropLast
  | _ => line

/-- The lines of a text: every piece but the last was ended by a line feed; an empty last piece
is not a line. -/
def linesOfPieces : List (List Char) → List (List Char)
  | [] => []
  | [last] => if last.isEmpty then [] else [last]
  | line :: rest => dropReturn line :: linesOfPieces rest

/-- The lines of `s` without their endings. -/
def lines (s : String) : List String :=
  (linesOfPieces (splitChars (· == '\n') s.toList)).map String.ofList

/-! ## ASCII case -/

/-- Letters `A` to `Z` become small; every other character stays. -/
def lowerAscii (s : String) : String := String.ofList (s.toList.map Char.toLower)

/-- The text without the given front part, when it starts with it. -/
def dropStart? : List Char → List Char → Option (List Char)
  | [], cs => some cs
  | p :: ps, c :: cs => if p == c then dropStart? ps cs else none
  | _ :: _, [] => none

/-- Whether `s` begins with `t`. -/
def startsWith (s t : String) : Bool := (dropStart? t.toList s.toList).isSome

/-- Whether `s` ends with `t`. -/
def endsWith (s t : String) : Bool := (dropStart? t.toList.reverse s.toList.reverse).isSome

end PromptPack.Text
