import PromptPack.Outline.Balance
import PromptPack.Outline.Chunk
import PromptPack.Outline.Language
import PromptPack.Regex.Basic
/-!
# Outlines made by search rules

A language without a grammar has an ordered table of rules. Every match of every rule is found;
what is left after dropping those that end inside an earlier one makes up the outline.
-/

namespace PromptPack.Outline

open Text

/-- What a rule keeps of its match. -/
inductive Keep
  /-- The whole match, trimmed. -/
  | all
  /-- The match without its opening brace; it stands for the braced body too. -/
  | signature
  deriving DecidableEq

structure Rule where
  pattern : Regex
  keep : Keep

/-- Words that open a block of statements and never name a method. -/
def blockWords : List String :=
  ["if", "for", "while", "switch", "catch", "synchronized", "try", "do", "else", "return",
    "guard", "repeat", "defer", "new"]

/-- The name and the result type of a signature are remembered under these names. -/
def signatureGroups : List String := ["name", "ret"]

/-- Whether a match only looks like a signature. -/
def isControl (m : Regex.Match) : Bool :=
  (signatureGroups.filterMap m.group?).any fun g => blockWords.contains (String.ofList g)

/-- A kept match: what it prints and the span that it stands for. -/
structure Extract where
  content : String
  start : Nat
  stop : Nat
  deriving DecidableEq, Repr

/-- The characters from a byte offset on. -/
def fromOffset : Nat → List Char → List Char
  | 0, cs => cs
  | _, [] => []
  | n + 1, c :: cs => fromOffset (n + 1 - c.utf8Size) cs

/-- A signature without its opening brace, as it is printed. -/
def signatureLine (text : List Char) : String :=
  let bare := (text.reverse.dropWhile (· == '{')).reverse
  String.ofList (trimEndChars bare) ++ " \x7b ... \x7d // Body removed"

def Rule.extract? (rule : Rule) (source : List Char) (m : Regex.Match) : Option Extract :=
  let text := trimChars m.text
  match rule.keep with
  | .all => if text.isEmpty then none else some ⟨String.ofList text, m.start, m.stop⟩
  | .signature =>
    if isControl m || text.isEmpty then none
    else some ⟨signatureLine text, m.start, m.stop + bodyLength (fromOffset m.stop source)⟩

/-- What the rules find, in the order of the rules. -/
def found (rules : List Rule) (source : List Char) : List Extract :=
  rules.flatMap fun rule => (rule.pattern.findAll source).filterMap (rule.extract? source)

/-- By start, then the longer first. -/
def Extract.le (a b : Extract) : Bool :=
  if a.start != b.start then a.start < b.start else b.stop ≤ a.stop

/-- Drops each extract that ends no later than one before it. -/
def outermost (covered : Nat) : List Extract → List Extract
  | [] => []
  | e :: rest =>
    if e.stop ≤ covered then outermost covered rest else e :: outermost (max covered e.stop) rest

/-- The extracts that make up the outline, in order. -/
def extracts (rules : List Rule) (source : List Char) : List Extract :=
  outermost 0 ((found rules source).mergeSort Extract.le)

/-- What stands for an outline in which no rule found anything. -/
def nothingFoundIn (language : Language) : String :=
  "// No relevant " ++ language.title ++ " elements found after compression.\n"

/-- The outline of a source by search rules. -/
def searchOutline (language : Language) (rules : List Rule) (source : String) : String :=
  let out := String.join ((extracts rules source.toList).map (·.content ++ separator))
  if out.isEmpty then nothingFoundIn language else out

end PromptPack.Outline
