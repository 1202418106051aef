import PromptPack.Data.Json
/-!
# YAML documents

A document is read by columns: what stands further right than a key or a dash belongs to it.
Scalars are plain, quoted, or blocks of lines; lists and records may also be written in brackets
and braces. A text in which something else stands is no document, nor is one with two documents.
-/

namespace PromptPack.Yaml

/-! ## Places -/

/-- What follows, and the column where it stands. -/
structure Place where
  rest : List Char
  column : Nat

def isBlank (c : Char) : Bool := c == ' ' || c == '\t'

/-- Whether a mark is set off from what follows. -/
def isSetOff (cs : List Char) : Bool := (cs.head?.map fun c => isBlank c || c == '\n').getD true

def Place.skip (p : Place) (n : Nat) : Place := ⟨p.rest.drop n, p.column + n⟩

def Place.skipBlanks (p : Place) : Place := p.skip (p.rest.takeWhile isBlank).length

/-- The next place with something other than blanks, line ends and comments, and whether it is the
first of its line. -/
def Place.next : Nat → (isFirst : Bool) → Place → Place × Bool
  | 0, isFirst, p => (p, isFirst)
  | n + 1, isFirst, p =>
    let p := p.skipBlanks
    match p.rest with
    | '\n' :: rest => Place.next n true ⟨rest, 0⟩
    | '#' :: _ => Place.next n isFirst (p.skip (p.rest.takeWhile (· != '\n')).length)
    | _ => (p, isFirst)

/-- The next place, when it need not be on this line. -/
def Place.ahead (p : Place) : Place × Bool := Place.next (p.rest.length + 1) false p

/-- Whether a line parts documents here. -/
def Place.isMarked (p : Place) (mark : String) : Bool :=
  match Json.afterWord? mark.toList p.rest with
  | some rest => p.column == 0 && isSetOff rest
  | none => false

def Place.isParted (p : Place) : Bool := p.isMarked "---" || p.isMarked "..."

/-- Whether the dash of an item stands here. -/
def Place.isItem (p : Place) : Bool :=
  match p.rest with
  | '-' :: rest => isSetOff rest
  | _ => false

/-! ## Plain scalars -/

def isBracket (c : Char) : Bool := [',', '[', ']', '\x7b', '\x7d'].contains c

/-- Whether a plain scalar may start here. -/
def startsPlain (inBrackets : Bool) (cs : List Char) : Bool :=
  match cs with
  | [] => false
  | c :: rest =>
    if c == '-' || c == '?' || c == ':' then
      !isSetOff rest && !(inBrackets && (rest.head?.map isBracket).getD false)
    else
      !(isBracket c || isBlank c || ['\n', '#', '&', '*', '!', '|', '>', '\'', '"', '%', '@', '\x60'].contains c)

/-- The characters of a plain scalar on one line. -/
def plainLine (inBrackets : Bool) : (behindBlank : Bool) → List Char → List Char
  | _, [] => []
  | behindBlank, c :: rest =>
    let ends := c == '\n' || (c == '#' && behindBlank) || (inBrackets && isBracket c) ||
      (c == ':' && (isSetOff rest || (inBrackets && (rest.head?.map isBracket).getD false)))
    if ends then [] else c :: plainLine inBrackets (isBlank c) rest

def trimEnd (cs : List Char) : List Char := (cs.reverse.dropWhile isBlank).reverse

/-- What stands between two lines that are read as one text: a blank, or a line end for each empty
line between them. -/
def joint (lineEnds : Nat) : List Char := if lineEnds ≤ 1 then [' '] else List.replicate (lineEnds - 1) '\n'

/-- A plain scalar with the lines that go on with it, which stand further right than `parent`. The
number bounds how many lines there are. -/
def plain? (inBrackets : Bool) (parent : Int) : Nat → Place → List Char × Place
  | 0, p => ([], p)
  | n + 1, p =>
    let line := trimEnd (plainLine inBrackets false p.rest)
    let behind := p.skip line.length
    let gap := behind.rest.takeWhile fun c => isBlank c || c == '\n'
    let lineEnds := gap.count '\n'
    let column := (gap.reverse.takeWhile (· != '\n')).length
    let q : Place := ⟨behind.rest.drop gap.length, column⟩
    let goesOn := 1 ≤ lineEnds && (inBrackets || parent < column) && !q.isParted && q.rest.head? != some '#' &&
      !(plainLine inBrackets false q.rest).isEmpty
    if goesOn then
      let (more, r) := plain? inBrackets parent n q
      (line ++ joint lineEnds ++ more, r)
    else (line, behind)

/-- Reads a number with a fraction or an exponent. -/
def real? (s : String) : Option Data :=
  if s.toList.any Char.isDigit then (Decimal.ofText? s).map .real else none

/-- A whole number in the digits of a base. -/
def based? (base : Nat) (cs : List Char) : Option Int :=
  let (negative, cs) := Decimal.spanSign cs
  let size := cs.foldlM (fun n c => (Json.hexValue? c).bind fun d => if d < base then some (base * n + d) else none) 0
  if cs.isEmpty then none
  else size.bind fun (n : Nat) => Decimal.word? (if negative then -(n : Int) else n)

def int? (s : String) : Option Int :=
  match s.toList with
  | '0' :: 'x' :: cs => based? 16 cs
  | '0' :: 'o' :: cs => based? 8 cs
  | _ => Decimal.wordOfText? s

/-- Texts of numbers that are not finite. They cannot be read as values. -/
def isUnbounded (s : String) : Bool :=
  [".inf", ".Inf", ".INF", "+.inf", "+.Inf", "+.INF", "-.inf", "-.Inf", "-.INF", ".nan", ".NaN", ".NAN"].contains s

/-- What a plain scalar stands for. -/
def plainValue? (s : String) : Option Data :=
  match int? s with
  | some n => some (.int n)
  | none =>
    if isUnbounded s then none
    else if ["", "~", "null"].contains s then some .null
    else if s == "true" then some (.bool true)
    else if s == "false" then some (.bool false)
    else some ((real? s).getD (.text s))

/-- What a plain scalar stands for under a tag; one that does not fit is null. -/
def taggedValue? (tag s : String) : Option Data :=
  match tag with
  | "" => plainValue? s
  | "!!bool" => some (if s == "true" then .bool true else if s == "false" then .bool false else .null)
  | "!!int" => some (((Decimal.wordOfText? s).map .int).getD .null)
  | "!!float" => if isUnbounded s then none else some ((real? s).getD .null)
  | "!!null" => some .null
  | _ => some (.text s)

/-! ## Quoted scalars -/

/-- The character of so many hexadecimal digits. -/
def code? (digits : Nat) (cs : List Char) : Option (Char × List Char) := do
  let values ← (cs.take digits).mapM Json.hexValue?
  let n := values.foldl (fun n d => 16 * n + d) 0
  if values.length != digits || 0x10FFFF < n || (0xD800 ≤ n && n < 0xE000) then none
  else return (Char.ofNat n, cs.drop digits)

/-- The character behind a backslash. -/
def escape? : List Char → Option (Char × List Char)
  | [] => none
  | 'x' :: cs => code? 2 cs
  | 'u' :: cs => code? 4 cs
  | 'U' :: cs => code? 8 cs
  | c :: cs =>
    let known : List (Char × Char) := [('0', '\x00'), ('a', '\x07'), ('b', '\x08'), ('t', '\t'), ('\t', '\t'),
      ('n', '\n'), ('v', '\x0b'), ('f', '\x0c'), ('r', '\r'), ('e', '\x1b'), (' ', ' '), ('"', '"'), ('/', '/'),
      ('\\', '\\'), ('N', '\u0085'), ('_', '\u00a0'), ('L', '\u2028'), ('P', '\u2029'), ('\'', '\'')]
    (known.find? (·.1 == c)).map fun (_, d) => (d, cs)

/-- The characters up to the closing quote. Line ends are read as between the lines of a plain
scalar. The number bounds the steps. -/
def quotedFrom? (quote : Char) : Nat → List Char → Option (List Char × List Char)
  | 0, _ => none
  | n + 1, cs =>
    let keep (text rest : List Char) : Option (List Char × List Char) :=
      (quotedFrom? quote n rest).map fun (more, rest) => (text ++ more, rest)
    let gap := cs.takeWhile fun c => isBlank c || c == '\n'
    if gap.contains '\n' then keep (joint (gap.count '\n')) (cs.drop gap.length)
    else
      match cs with
      | [] => none
      | '\'' :: '\'' :: rest =>
        if quote == '\'' then keep ['\''] rest else keep ['\''] ('\'' :: rest)
      | c :: rest =>
        if c == quote then some ([], rest)
        else if c == '\\' && quote == '"' then
          match rest with
          | '\n' :: rest =>
            let gap := rest.takeWhile fun c => isBlank c || c == '\n'
            keep (List.replicate (gap.count '\n') '\n') (rest.drop gap.length)
          | _ =>
            match escape? rest with
            | some (d, rest) => keep [d] rest
            | none => none
        else keep [c] rest

/-- A quoted scalar, and the place behind it. -/
def quoted? (p : Place) : Option (List Char × Place) :=
  let read (quote : Char) (rest : List Char) : Option (List Char × Place) :=
    (quotedFrom? quote (p.rest.length + 1) rest).map fun (s, behind) =>
      (s, ⟨behind, p.column + (p.rest.length - behind.length)⟩)
  match p.rest with
  | '"' :: rest => read '"' rest
  | '\'' :: rest => read '\'' rest
  | _ => none

/-! ## Blocks of lines -/

/-- What becomes of the line ends behind the last line of a block. -/
inductive Tail
  | one
  | none
  | all
  deriving DecidableEq

/-- The head of a block: the number of columns it is set in, if given, and its tail. -/
def blockHead (cs : List Char) : Option Nat × Tail × List Char :=
  let marks := cs.takeWhile fun c => c == '+' || c == '-' || ('1' ≤ c && c ≤ '9')
  let width := (marks.find? Char.isDigit).map Decimal.digitValue
  let tail : Tail := if marks.contains '+' then .all else if marks.contains '-' then .none else .one
  (width, tail, cs.drop marks.length)

/-- The lines of a block, which begin in a column, and what follows them, line end included. -/
def blockLines (column : Nat) : Nat → List Char → List (List Char) × List Char
  | 0, cs => ([], cs)
  | n + 1, cs =>
    match cs with
    | '\n' :: inner =>
      let line := inner.takeWhile (· != '\n')
      let spaces := (line.takeWhile (· == ' ')).length
      if line.all (· == ' ') || column ≤ spaces then
        let (more, rest) := blockLines column n (inner.drop line.length)
        (line.drop column :: more, rest)
      else ([], cs)
    | _ => ([], cs)

/-- Joins the lines of a block. In a folded one a line end between two lines that begin with no
blank is a blank, or goes away before empty lines. `breaks` counts the line ends since the line
before, `level` says whether that one begins with no blank. -/
def joinLines (folded : Bool) : (breaks : Nat) → (level : Bool) → List (List Char) → List Char
  | _, _, [] => []
  | breaks, level, line :: lines =>
    if line.isEmpty then joinLines folded (breaks + 1) level lines
    else
      let isLevel := !(line.head?.map isBlank).getD false
      let between :=
        if folded && level && isLevel && 1 ≤ breaks then joint breaks else List.replicate breaks '\n'
      between ++ line ++ joinLines folded 1 isLevel lines

/-- A scalar of lines below `parent`, and the place at the end of its last line. -/
def block? (folded : Bool) (parent : Int) (p : Place) : Option (List Char × Place) :=
  let (width, tail, rest) := blockHead p.rest
  let behind := (Place.mk rest 0).skipBlanks.rest
  let rest := if behind.head? == some '#' then behind.dropWhile (· != '\n') else behind
  if !(rest.isEmpty || rest.head? == some '\n') then .none
  else
    let spaces := rest.takeWhile fun c => c == ' ' || c == '\n'
    let found := (spaces.reverse.takeWhile (· != '\n')).length
    let least := (parent + 1).toNat
    let column := match width with
      | some w => parent.toNat + w
      | .none => max found (max least 1)
    let (lines, rest) := blockLines column (rest.length + 1) rest
    let kept := (lines.reverse.dropWhile List.isEmpty).reverse
    let ends := match tail with
      | .none => 0
      | .one => if kept.isEmpty then 0 else 1
      | .all => lines.length - kept.length + (if kept.isEmpty then 0 else 1) - (if rest.isEmpty then 1 else 0)
    some (joinLines folded 0 false kept ++ List.replicate ends '\n', ⟨rest, 0⟩)

/-! ## Keys -/

/-- The text of a key; null is none. -/
def keyText? (quoted : Bool) (s : String) : Option String :=
  if quoted then some s
  else
    match plainValue? s with
    | some .null => none
    | some (.int n) => some (toString n)
    | _ => some s

/-- A scalar on one line as a key, and the place behind its colon. In brackets the colon may follow
a quoted key at once. -/
def key? (inBrackets : Bool) (p : Place) : Option (String × Place) := do
  let (text, isQuoted, behind) ← match quoted? p with
    | some (s, q) => some (s, true, q)
    | none =>
      if startsPlain inBrackets p.rest then
        let s := trimEnd (plainLine inBrackets false p.rest)
        some (s, false, p.skip s.length)
      else none
  let q := behind.skipBlanks
  match q.rest with
  | ':' :: rest =>
    let isEnd := isSetOff rest || (inBrackets && (isQuoted || (rest.head?.map isBracket).getD false))
    let oneLine := !(p.rest.take (p.rest.length - behind.rest.length)).contains '\n'
    if isEnd && (oneLine || inBrackets) then
      return (← keyText? isQuoted (String.ofList text), q.skip 1)
    else none
  | _ => none

/-! ## Nodes -/

/-- Values by the names that anchors give them, the latest first. -/
abbrev Anchors := List (String × Data)

structure Read where
  value : Data
  place : Place
  anchors : Anchors

/-- The name of an anchor or tag. -/
def nameChars (cs : List Char) : List Char := cs.takeWhile fun c => !(isBlank c || c == '\n' || isBracket c)

/-- Adds a field that must be new. -/
def addField? (fields : List (String × Data)) (key : String) (d : Data) : Option (List (String × Data)) :=
  if fields.any (·.1 == key) then none else some (fields ++ [(key, d)])

/-- A scalar that is no key, with what a tag makes of it. -/
def scalar? (inBrackets : Bool) (parent : Int) (tag : String) (anchors : Anchors) (p : Place) : Option Read :=
  match quoted? p with
  | some (s, q) => some ⟨.text (String.ofList s), q, anchors⟩
  | none =>
    if startsPlain inBrackets p.rest then
      let (s, q) := plain? inBrackets parent (p.rest.length + 1) p
      (taggedValue? tag (String.ofList s)).map fun d => ⟨d, q, anchors⟩
    else none

/-- The value of an alias. -/
def alias? (anchors : Anchors) (p : Place) : Option Read :=
  let name := nameChars (p.rest.drop 1)
  (anchors.find? (·.1 == String.ofList name)).map fun (_, d) => ⟨d, p.skip (name.length + 1), anchors⟩

mutual

/-- A value within brackets. The number bounds how many parts it has. -/
def inner? : Nat → (tag : String) → Anchors → Place → Option Read
  | 0, _, _, _ => none
  | n + 1, tag, anchors, p =>
    let p := p.ahead.1
    match p.rest with
    | '[' :: _ => (items? n anchors [] (p.skip 1))
    | '\x7b' :: _ => (fields? n anchors [] (p.skip 1))
    | '*' :: _ => alias? anchors p
    | '&' :: rest => do
      let name := nameChars rest
      let found ← inner? n tag anchors (p.skip (name.length + 1))
      return { found with anchors := (String.ofList name, found.value) :: found.anchors }
    | '!' :: _ =>
      let name := nameChars p.rest
      inner? n (String.ofList name) anchors (p.skip name.length)
    | _ => scalar? true (-1) tag anchors p

/-- The items of a list in brackets; an item may be a record of one field. -/
def items? : Nat → Anchors → List Data → Place → Option Read
  | 0, _, _, _ => none
  | n + 1, anchors, before, p =>
    let p := p.ahead.1
    match p.rest with
    | ']' :: _ => some ⟨.list before, p.skip 1, anchors⟩
    | _ => do
      let found ← match key? true p with
        | some (key, q) =>
          let found ← fieldValue? n anchors q
          some { found with value := .record [(key, found.value)] }
        | none => inner? n "" anchors p
      let q := found.place.ahead.1
      match q.rest with
      | ',' :: _ => items? n found.anchors (before ++ [found.value]) (q.skip 1)
      | ']' :: _ => items? n found.anchors (before ++ [found.value]) q
      | _ => none

/-- The fields of a record in braces; one without a value is null. -/
def fields? : Nat → Anchors → List (String × Data) → Place → Option Read
  | 0, _, _, _ => none
  | n + 1, anchors, before, p =>
    let p := p.ahead.1
    match p.rest with
    | '\x7d' :: _ => some ⟨.record before, p.skip 1, anchors⟩
    | _ => do
      let (key, found) ← match key? true p with
        | some (key, q) => (fieldValue? n anchors q).map (key, ·)
        | none =>
          match scalar? true (-1) "!" anchors p with
          | some ⟨.text s, q, anchors⟩ => some (s, Read.mk .null q anchors)
          | _ => none
      let fields ← addField? before key found.value
      let q := found.place.ahead.1
      match q.rest with
      | ',' :: _ => fields? n found.anchors fields (q.skip 1)
      | '\x7d' :: _ => fields? n found.anchors fields q
      | _ => none

/-- What stands behind the colon of a key within brackets. -/
def fieldValue? : Nat → Anchors → Place → Option Read
  | 0, _, _ => none
  | n + 1, anchors, p =>
    let q := p.ahead.1
    match q.rest with
    | ',' :: _ => some ⟨.null, q, anchors⟩
    | ']' :: _ => some ⟨.null, q, anchors⟩
    | '\x7d' :: _ => some ⟨.null, q, anchors⟩
    | _ => inner? n "" anchors q

end

/-- How a value is placed: what it has to stand right of, whether items may stand right below, and
whether keys and items may begin on this line. -/
structure Slot where
  parent : Int
  itemsBelow : Bool := false
  opens : Bool := false

mutual

/-- A value in a slot; where nothing stands it is null. The number bounds how many parts it has. -/
def node? : Nat → Slot → (tag : String) → Anchors → Place → Option Read
  | 0, _, _, _, _ => none
  | n + 1, slot, tag, anchors, p =>
    let (q, isFirst) := p.ahead
    let column : Int := q.column
    let outside := isFirst &&
      (q.isParted || (column ≤ slot.parent && !(slot.itemsBelow && column == slot.parent && q.isItem)))
    if q.rest.isEmpty || outside then some ⟨.null, p, anchors⟩
    else
      let slot := { slot with opens := slot.opens || isFirst }
      match q.rest with
      | '*' :: _ => alias? anchors q
      | '&' :: rest => do
        let name := nameChars rest
        let found ← node? n slot tag anchors (q.skip (name.length + 1))
        return { found with anchors := (String.ofList name, found.value) :: found.anchors }
      | '!' :: _ =>
        let name := nameChars q.rest
        node? n slot (String.ofList name) anchors (q.skip name.length)
      | '|' :: _ => (block? false slot.parent (q.skip 1)).map fun (s, r) => ⟨.text (String.ofList s), r, anchors⟩
      | '>' :: _ => (block? true slot.parent (q.skip 1)).map fun (s, r) => ⟨.text (String.ofList s), r, anchors⟩
      | '[' :: _ => inner? (q.rest.length + 1) tag anchors q
      | '\x7b' :: _ => inner? (q.rest.length + 1) tag anchors q
      | _ =>
        if q.isItem then if slot.opens then listItems? n q.column anchors [] q else none
        else
          match key? false q with
          | some _ => if slot.opens then recordFields? n q.column anchors [] q else none
          | none => scalar? false slot.parent tag anchors q

/-- The items of a list whose dashes stand in a column. -/
def listItems? : Nat → (column : Nat) → Anchors → List Data → Place → Option Read
  | 0, _, _, _, _ => none
  | n + 1, column, anchors, before, p => do
    let found ← node? n ⟨column, false, true⟩ "" anchors (p.skip 1)
    let items := before ++ [found.value]
    let (q, isFirst) := found.place.ahead
    if q.rest.isEmpty || (isFirst && (q.isParted || q.column < column || (q.column == column && !q.isItem))) then
      return ⟨.list items, found.place, found.anchors⟩
    else if isFirst && q.column == column then listItems? n column found.anchors items q
    else none

/-- The fields of a record whose keys stand in a column. -/
def recordFields? : Nat → (column : Nat) → Anchors → List (String × Data) → Place → Option Read
  | 0, _, _, _, _ => none
  | n + 1, column, anchors, before, p => do
    let (key, behind) ← key? false p
    let found ← node? n ⟨column, true, false⟩ "" anchors behind
    let fields ← addField? before key found.value
    let (q, isFirst) := found.place.ahead
    if q.rest.isEmpty || (isFirst && (q.isParted || q.column < column)) then
      return ⟨.record fields, found.place, found.anchors⟩
    else if isFirst && q.column == column then recordFields? n column found.anchors fields q
    else none

end

/-! ## Documents -/

/-- Every line end as a line feed. -/
def normalized : List Char → List Char
  | [] => []
  | '\r' :: '\n' :: cs => '\n' :: normalized cs
  | '\r' :: cs => '\n' :: normalized cs
  | c :: cs => c :: normalized cs

/-- What follows the lines of directives in front of a document. -/
def behindDirectives : Nat → Place → Place
  | 0, p => p
  | n + 1, p =>
    let (q, _) := p.ahead
    match q.rest with
    | '%' :: _ => behindDirectives n (q.skip (q.rest.takeWhile (· != '\n')).length)
    | _ => q

/-- Whether nothing but the mark of an end follows. -/
def isOver (p : Place) : Bool :=
  let (q, isFirst) := p.ahead
  if isFirst && q.isMarked "..." then (q.skip 3).ahead.1.rest.isEmpty else q.rest.isEmpty

/-- The data that the only document of a text stands for; none at all is an empty record. -/
def parse? (s : String) : Option Data := do
  let cs := normalized s.toList
  let n := 2 * cs.length + 4
  let start := behindDirectives (cs.length + 1) ⟨cs, 0⟩
  if start.rest.isEmpty then return .record []
  else
    let found ←
      if start.isMarked "---" then node? n ⟨-1, false, false⟩ "" [] (start.skip 3)
      else node? n ⟨-1, false, true⟩ "" [] start
    if isOver found.place then return found.value else none

end PromptPack.Yaml
