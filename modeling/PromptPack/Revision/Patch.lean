import PromptPack.Revision.LineChange
import PromptPack.Revision.Rename
import PromptPack.Revision.Repository
/-!
# Patches

The changes from one snapshot to another as a text, file by file in the order of paths. The
changed lines of a file are shown in hunks, with a few kept lines around them.
-/

namespace PromptPack.Patch

open LineChange

/-- The digits of an id that are shown. -/
def idDigits : Nat := 7

def shortId (id : ObjectId) : String := String.ofList (id.text.toList.take idDigits)

/-- The id that stands for no object. -/
def noId : String := String.ofList (List.replicate idDigits '0')

/-! ## Paths -/

def octal (b : UInt8) : List Char :=
  let digit (n : Nat) : Char := Char.ofNat (48 + n % 8)
  ['\\', digit (b.toNat / 64), digit (b.toNat / 8), digit b.toNat]

/-- A byte of a quoted path. -/
def quotedByte (b : UInt8) : List Char :=
  if b == 34 then ['\\', '"']
  else if b == 92 then ['\\', '\\']
  else if b == 9 then ['\\', 't']
  else if b == 10 then ['\\', 'n']
  else if b == 13 then ['\\', 'r']
  else if b < 32 || 127 ≤ b then octal b
  else [Char.ofNat b.toNat]

/-- A path as it is shown: in quotes when one of its bytes has to be escaped. -/
def shownPath (p : String) : String :=
  let escaped := p.toUTF8.toList.flatMap quotedByte
  if escaped == p.toList then p else "\"" ++ String.ofList escaped ++ "\""

/-- A path in a line of its own; a tab behind it tells where a path with blanks ends. -/
def pathLine (mark path : String) : String :=
  mark ++ path ++ (if path.toList.contains ' ' then "\t\n" else "\n")

/-! ## Hunks -/

/-- The kept lines that are shown around changes. -/
def contextLines : Nat := 3

/-- Lines with their ends; only the last one can lack it. -/
def linesOf (s : String) : List String :=
  match (Text.splitAt '\n' s).reverse with
  | [] => []
  | last :: rest =>
    (rest.reverse.map (· ++ "\n")) ++ (if last.isEmpty then [] else [last])

def shownLine (mark line : String) : String :=
  if Text.endsWith line "\n" then mark ++ line
  else mark ++ line ++ "\n\\ No newline at end of file\n"

def shownEdit : Edit → String
  | .keep l => shownLine " " l
  | .drop l => shownLine "-" l
  | .add l => shownLine "+" l

/-- A part of a script with the numbers of lines before it. -/
structure Hunk where
  oldStart : Nat
  newStart : Nat
  edits : List Edit

/-- A script as a list of kept lines and of changes around them. -/
def spanKeeps (es : List Edit) : List Edit × List Edit := es.span Edit.isKeep

/-- Reads on in a hunk. Kept lines between two changes stay together when there are few of them;
else the hunk ends among them. -/
def readHunk : (fuel : Nat) → List Edit → List Edit × List Edit
  | 0, es => ([], es)
  | fuel + 1, es =>
    let (changes, rest) := es.span fun e => !e.isKeep
    let (keeps, rest') := spanKeeps rest
    if rest'.isEmpty || 2 * contextLines < keeps.length then
      (changes ++ keeps.take contextLines, keeps.drop contextLines ++ rest')
    else
      let (more, rest) := readHunk fuel rest'
      (changes ++ keeps ++ more, rest)

/-- The hunks of a script. -/
def hunksFrom : (fuel oldLine newLine : Nat) → List Edit → List Hunk
  | 0, _, _, _ => []
  | fuel + 1, oldLine, newLine, es =>
    let (keeps, rest) := spanKeeps es
    if rest.isEmpty then []
    else
      let skipped := keeps.length - contextLines
      let (body, rest) := readHunk rest.length rest
      let edits := keeps.drop skipped ++ body
      let oldStart := oldLine + skipped
      let newStart := newLine + skipped
      ⟨oldStart, newStart, edits⟩ ::
        hunksFrom fuel (oldStart + (before edits).length) (newStart + (after edits).length) rest

def hunks (script : List Edit) : List Hunk := hunksFrom (script.length + 1) 0 0 script

/-- The place of a hunk: its first line and its length; an empty one names the line before it. -/
def shownSpan (start length : Nat) : String :=
  let first := if length == 0 then start else start + 1
  if length == 1 then toString first else toString first ++ "," ++ toString length

/-- Whether a line can head a section of a file. -/
def isHeading (line : String) : Bool :=
  match line.toList with
  | c :: _ => c.isAlpha || c == '_' || c == '$'
  | [] => false

/-- No more bytes of a heading are shown than this. -/
def headingWidth : Nat := 80

/-- A blank that does not count at the end of a heading. -/
def isHeadingBlank (b : UInt8) : Bool := b == 32 || b == 9 || b == 10 || b == 13

/-- A heading as it is shown; a character that its end cuts is replaced. -/
def shownHeading (line : String) : String :=
  let bytes := line.toUTF8.toList.take headingWidth
  " " ++ Text.decodeLossy (bytes.reverse.dropWhile isHeadingBlank).reverse.toByteArray

/-- The last heading among the lines before a hunk. -/
def headingBefore (old : List String) (start : Nat) : String :=
  match (old.take start).reverse.find? isHeading with
  | some l => shownHeading l
  | none => ""

def Hunk.shown (old : List String) (h : Hunk) : String :=
  "@@ -" ++ shownSpan h.oldStart (before h.edits).length ++ " +" ++
    shownSpan h.newStart (after h.edits).length ++ " @@" ++ headingBefore old h.oldStart ++ "\n" ++
    String.join (h.edits.map shownEdit)

/-! ## Files -/

/-- The hunks of two texts, or a remark where one of the contents is binary. -/
def body (old new : Option Tracked) (oldName newName : String) : String :=
  let oldBytes := (old.map (·.bytes)).getD ByteArray.empty
  let newBytes := (new.map (·.bytes)).getD ByteArray.empty
  if oldBytes == newBytes then ""
  else if isBinary oldBytes || isBinary newBytes then
    "Binary files " ++ oldName ++ " and " ++ newName ++ " differ\n"
  else
    let oldLines := linesOf (Text.decodeLossy oldBytes)
    let newLines := linesOf (Text.decodeLossy newBytes)
    pathLine "--- " oldName ++ pathLine "+++ " newName ++
      String.join ((hunks (LineChange.between oldLines newLines)).map (Hunk.shown oldLines))

/-- The change of a file; nothing when it stays the same. -/
def ofFile (path : String) (old new : Option Tracked) : String :=
  let a := shownPath ("a/" ++ path)
  let b := shownPath ("b/" ++ path)
  let head := "diff --git " ++ a ++ " " ++ b ++ "\n"
  match old, new with
  | none, none => ""
  | none, some t =>
    head ++ "new file mode " ++ t.mode ++ "\nindex " ++ noId ++ ".." ++ shortId t.id ++ "\n" ++
      body none (some t) "/dev/null" b
  | some s, none =>
    head ++ "deleted file mode " ++ s.mode ++ "\nindex " ++ shortId s.id ++ ".." ++ noId ++ "\n" ++
      body (some s) none a "/dev/null"
  | some s, some t =>
    if s.same t then ""
    else
      head ++ "index " ++ shortId s.id ++ ".." ++ shortId t.id ++ " " ++ t.mode ++ "\n" ++
        body (some s) (some t) a b

/-- The change of a file that got another name. -/
def ofRename (p : Rename.Pair) : String :=
  let a := shownPath ("a/" ++ p.old.pathText)
  let b := shownPath ("b/" ++ p.new.pathText)
  "diff --git " ++ a ++ " " ++ b ++ "\nsimilarity index " ++
    toString (p.score * 100 / Rename.fullScore) ++ "%\nrename from " ++ shownPath p.old.pathText ++
    "\nrename to " ++ shownPath p.new.pathText ++ "\n" ++
    (if p.old.same p.new then ""
    else "index " ++ shortId p.old.id ++ ".." ++ shortId p.new.id ++ " " ++ p.new.mode ++ "\n" ++
      body (some p.old) (some p.new) a b)

/-- The changes from one snapshot to another; a renamed file stands at its new name. -/
def between (old new : Snapshot) : String :=
  let renamed := Rename.pairs old new
  let all := Snapshot.sorted (old ++ List.filter (fun (t : Tracked) => (old.find? t.path).isNone) new)
  String.join (all.map fun (t : Tracked) =>
    if renamed.any (·.old.path == t.path) then ""
    else
      match renamed.find? (·.new.path == t.path) with
      | some p => ofRename p
      | none => ofFile t.pathText (old.find? t.path) (new.find? t.path))

end PromptPack.Patch
