import PromptPack.Text.Blank
import PromptPack.Text.Word
/-!
# Regular expressions

An expression reaches, from a cursor in a text, the places where a match may end, the preferred
place first. The match of a search is the preferred one at the leftmost cursor that has any;
searching goes on at its end.
-/

namespace PromptPack

/-- A place in a text: its byte offset, the character before it, the characters after it and how
many those are. -/
structure Cursor where
  pos : Nat
  before : Option Char
  rest : List Char
  room : Nat

def Cursor.start (text : List Char) : Cursor := ⟨0, none, text, text.length⟩

/-- The next place, when a character is left. -/
def Cursor.next? (c : Cursor) : Option (Char × Cursor) :=
  match c.rest with
  | [] => none
  | x :: xs => some (x, ⟨c.pos + x.utf8Size, some x, xs, c.room - 1⟩)

/-- Which side is tried first where a choice is open. -/
inductive Greed
  | greedy
  | lazy
  deriving DecidableEq

inductive Regex
  /-- The empty text. -/
  | empty
  /-- One character that satisfies the test. -/
  | char (test : Char → Bool)
  /-- The start of the text or of a line. -/
  | lineStart
  /-- The end of the text or of a line. -/
  | lineEnd
  /-- A place with a word character on exactly one side. -/
  | wordBoundary
  | seq (first second : Regex)
  /-- Either expression, the first preferred. -/
  | alt (first second : Regex)
  /-- Any number of repetitions, each of which takes at least one character. -/
  | star (greed : Greed) (body : Regex)
  /-- The text matched by the body is remembered under a name. -/
  | group (name : String) (body : Regex)

namespace Regex

instance : Append Regex := ⟨seq⟩

instance : HOr Regex Regex Regex := ⟨alt⟩

/-! ## Building expressions -/

/-- Exactly the given characters. -/
def ofChars : List Char → Regex
  | [] => empty
  | [c] => char (· == c)
  | c :: cs => seq (char (· == c)) (ofChars cs)

def literal (s : String) : Regex := ofChars s.toList

instance : Coe String Regex := ⟨literal⟩

/-- Two characters that differ in case alone. Two letters have a third form beyond ASCII: the
long s and the Kelvin sign. -/
def sameLetter (a b : Char) : Bool :=
  a.toLower == b.toLower || (a.toLower == 's' && b == 'ſ') || (a.toLower == 'k' && b == '\u212A')

/-- The given characters in either case. -/
def anyCase (s : String) : Regex :=
  (s.toList.map fun c => char (sameLetter c)).foldr seq empty

def plus (greed : Greed) (r : Regex) : Regex := r ++ star greed r

/-- The expression or nothing. -/
def maybe (r : Regex) : Regex := alt r empty

/-- The expression, unless nothing suffices. -/
def maybeLazy (r : Regex) : Regex := alt empty r

def blank : Regex := char Text.isBlank

/-- Any number of blanks. -/
def blanks : Regex := star .greedy blank

/-- At least one blank. -/
def gap : Regex := plus .greedy blank

/-- At least one word character. -/
def word : Regex := plus .greedy (char Text.isWord)

/-- Any character but the given ones. -/
def noneOf (cs : List Char) : Regex := char fun c => !cs.contains c

/-- An opening brace. -/
def brace : Regex := char (· == '{')

/-- The first of the alternatives that leads to a match. -/
def oneOf : List Regex → Regex
  | [] => char fun _ => false
  | [r] => r
  | r :: rs => alt r (oneOf rs)

/-! ## Matching -/

/-- The characters between two places of one text. -/
def between (a b : Cursor) : List Char := a.rest.take (a.room - b.room)

def isWordAt (c : Option Char) : Bool :=
  match c with
  | some c => Text.isWord c
  | none => false

/-- The texts remembered so far under their names, the latest first. -/
abbrev Groups := List (String × List Char)

/-- Tries `k` after at most `n` steps, each of which advances; more steps come first when greedy. -/
def iterate {α : Type} (step : Cursor → Groups → (Cursor → Groups → Option α) → Option α)
    (greed : Greed) (k : Cursor → Groups → Option α) : Nat → Cursor → Groups → Option α
  | 0, c, g => k c g
  | n + 1, c, g =>
    match greed with
    | .greedy => (step c g (onward n c)).orElse fun _ => k c g
    | .lazy => (k c g).orElse fun _ => step c g (onward n c)
where
  onward (n : Nat) (c : Cursor) (c' : Cursor) (g : Groups) : Option α :=
    if c'.room < c.room then iterate step greed k n c' g else none

/-- The first result of `k` at the places that the expression reaches from a cursor, the preferred
place first. -/
def run {α : Type} : Regex → Cursor → Groups → (Cursor → Groups → Option α) → Option α
  | empty, c, g, k => k c g
  | char test, c, g, k =>
    match c.next? with
    | none => none
    | some (x, next) => if test x then k next g else none
  | lineStart, c, g, k =>
    match c.before with
    | none => k c g
    | some b => if b == '\n' then k c g else none
  | lineEnd, c, g, k =>
    match c.rest with
    | [] => k c g
    | x :: _ => if x == '\n' then k c g else none
  | wordBoundary, c, g, k => if isWordAt c.before != isWordAt c.rest.head? then k c g else none
  | seq a b, c, g, k => run a c g fun c' g' => run b c' g' k
  | alt a b, c, g, k => (run a c g k).orElse fun _ => run b c g k
  | star greed body, c, g, k => iterate (run body) greed k c.room c g
  | group name body, c, g, k => run body c g fun c' g' => k c' ((name, between c c') :: g')

/-! ## Searching -/

/-- A match: its span in bytes, its text and the remembered texts. -/
structure Match where
  start : Nat
  stop : Nat
  text : List Char
  groups : Groups

/-- The text remembered under a name. -/
def Match.group? (m : Match) (name : String) : Option (List Char) :=
  (m.groups.find? (·.1 == name)).map (·.2)

/-- The preferred match that begins at the cursor, unless it is empty, and where it ends. -/
def matchAt? (r : Regex) (c : Cursor) : Option (Match × Cursor) :=
  match r.run c [] fun stop groups => some (stop, groups) with
  | some (stop, groups) =>
    if stop.room < c.room then some (⟨c.pos, stop.pos, between c stop, groups⟩, stop) else none
  | none => none

/-- The matches begun at the next `n` places, each no earlier than the end of the one before. -/
def matchesFrom (r : Regex) : Nat → Cursor → List Match
  | 0, _ => []
  | n + 1, c =>
    match matchAt? r c with
    | some (m, stop) => m :: matchesFrom r n stop
    | none =>
      match c.next? with
      | none => []
      | some (_, next) => matchesFrom r n next

/-- All matches in a text, in order and without overlap. -/
def findAll (r : Regex) (text : List Char) : List Match :=
  r.matchesFrom text.length (Cursor.start text)

end Regex

end PromptPack
