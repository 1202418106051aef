import PromptPack.Text.Blank
/-!
# Entries

The byte strings of a vocabulary are written in tables, where they stand between blanks. A dot in
the middle of a line means a blank, an arrow to the right a tab, a bent arrow a line end, and a bent
arrow after a bar a carriage return.
-/

namespace PromptPack.Tokens

/-- A character of a table as the character it means. -/
def tableChar : Char → Char
  | '·' => ' '
  | '⇥' => '\t'
  | '⏎' => '\n'
  | '⇤' => '\r'
  | c => c

def bytesOfChars (cs : List Char) : List UInt8 := (String.ofList cs).toUTF8.toList

/-- The words of a table. -/
def tableWords (table : List String) : List (List Char) :=
  (table.flatMap (Text.splitAt ' ')).filterMap fun w =>
    if w.isEmpty then none else some (w.toList.map tableChar)

def entries (table : List String) : List (List UInt8) := (tableWords table).map bytesOfChars

/-- Words as they are, after a blank, and both with a capital. -/
def wordEntries (table : List String) : List (List UInt8) :=
  (tableWords table).flatMap fun w =>
    let capital := match w with
      | c :: rest => c.toUpper :: rest
      | [] => []
    [w, ' ' :: w, capital, ' ' :: capital].map bytesOfChars

/-- All parts of a byte string that start where it starts, from two bytes on, the whole included. -/
def leadingParts (bytes : List UInt8) : List (List UInt8) :=
  (List.range (bytes.length - 1)).map fun n => bytes.take (n + 2)

/-- Words together with their leading parts, so that bytes are merged to them from the front. -/
def grownEntries (table : List String) : List (List UInt8) :=
  (tableWords table).flatMap fun w => leadingParts (bytesOfChars w)

/-- Characters whose bytes are merged from the front to a single token. -/
def characterEntries (cs : String) : List (List UInt8) :=
  cs.toList.flatMap fun c => leadingParts (String.utf8EncodeChar c)

/-- Characters whose bytes are merged from the front, all but the last. -/
def brokenEntries (cs : String) : List (List UInt8) :=
  cs.toList.flatMap fun c => (leadingParts (String.utf8EncodeChar c)).dropLast

/-- Words behind each of the leading signs. -/
def ledEntries (leads : List Char) (table : List String) : List (List UInt8) :=
  (tableWords table).flatMap fun w => leads.map fun lead => bytesOfChars (lead :: w)

/-- Words as they are and after a blank. -/
def spacedEntries (table : List String) : List (List UInt8) :=
  (tableWords table).flatMap fun w => [bytesOfChars w, bytesOfChars (' ' :: w)]

/-- Runs of a character by increasing length. -/
def runEntries (c : Char) (lengths : List Nat) : List (List UInt8) :=
  lengths.map fun n => bytesOfChars (List.replicate n c)

/-- The numerals of the given number of digits, those with zeros in front included. -/
def numeralEntries (digits : Nat) : List (List UInt8) :=
  (List.range (Nat.pow 10 digits)).map fun n =>
    let numeral := Nat.toDigits 10 n
    bytesOfChars (List.replicate (digits - numeral.length) '0' ++ numeral)

end PromptPack.Tokens
