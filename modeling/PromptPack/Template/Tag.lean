import PromptPack.Data.Json
import PromptPack.Template.Syntax
/-!
# Reading tags

The inside of a tag: references, literals and applications of helpers.
-/

namespace PromptPack.Template

def isSpace (c : Char) : Bool := c == ' ' || c == '\t' || c == '\n' || c == '\r'

def skip (cs : List Char) : List Char := cs.dropWhile isSpace

/-- Characters of names: letters, digits, a few signs and all beyond ASCII. -/
def isSymbol (c : Char) : Bool :=
  c.isAlphanum || ['_', '-', '$', ':', '?'].contains c || 128 ≤ c.toNat

def isStepMark (c : Char) : Bool := c == '.' || c == '/'

/-- Whether no name goes on here. -/
def endsName (cs : List Char) : Bool := !(cs.head?.map isSymbol).getD false

/-! ## References -/

/-- The steps of a name; the word for the current value is no step. -/
def namedStep (name : List Char) : List Step :=
  let s := String.ofList name
  if s == "this" then [] else [.name s]

/-- A name, bare or in brackets. -/
def item? (cs : List Char) : Option (List Step × List Char) :=
  match cs with
  | '[' :: rest =>
    let raw := rest.takeWhile (· != ']')
    match rest.drop raw.length with
    | _ :: rest => some (namedStep raw, rest)
    | [] => none
  | _ =>
    let word := cs.takeWhile isSymbol
    if word.isEmpty then none else some (namedStep word, cs.drop word.length)

/-- Further names, each behind a dot or slash. The number bounds how many there are. -/
def items : Nat → List Char → List Step × List Char
  | 0, cs => ([], cs)
  | n + 1, cs =>
    match cs with
    | [] => ([], [])
    | c :: rest =>
      match (if isStepMark c then item? rest else none) with
      | some (step, rest) =>
        let (steps, rest) := items n rest
        (step ++ steps, rest)
      | none => ([], cs)

/-- Steps to the values around the current one, each with a dot or slash behind it. -/
def upSteps : List Char → List Step × List Char
  | '.' :: '.' :: c :: rest =>
    if isStepMark c then
      let (steps, rest) := upSteps rest
      (.up :: steps, rest)
    else ([], '.' :: '.' :: c :: rest)
  | cs => ([], cs)

/-- What follows a word for the current value and the mark behind it, where they stand in front. -/
def behindCurrent (cs : List Char) : List Char :=
  match cs with
  | '.' :: '/' :: rest => rest
  | 't' :: 'h' :: 'i' :: 's' :: c :: rest => if isStepMark c then rest else cs
  | _ => cs

/-- What follows the word for the whole context and the mark behind it. -/
def behindRoot? (cs : List Char) : Option (List Char) :=
  match Json.afterWord? "@root".toList cs with
  | some (c :: rest) => if isStepMark c then some rest else none
  | _ => none

/-- A reference, and what follows it: it ends in a name, with other names, steps up, the mark of
variables and the word for the context in front of it. -/
def reference? (cs : List Char) : Option (Reference × List Char) := do
  let cs := behindCurrent cs
  let (root, cs) := match behindRoot? cs with
    | some rest => (true, rest)
    | none => (false, cs)
  let (marked, cs) := match cs with
    | '@' :: rest => (true, rest)
    | cs => (false, cs)
  let (up, cs) := upSteps cs
  let (step, cs) ← item? cs
  let (steps, rest) := items cs.length cs
  return (⟨marked && !root, (if root then [.root] else []) ++ up ++ step ++ steps⟩, rest)

/-! ## Literals -/

/-- What follows the closing quote of a text. -/
def behindQuoted? (quote : Char) : List Char → Option (List Char)
  | [] => none
  | '\\' :: 'u' :: a :: b :: c :: d :: rest =>
    if [a, b, c, d].all fun x => (Json.hexValue? x).isSome then behindQuoted? quote rest else none
  | '\\' :: c :: rest =>
    if c == quote || (c != '"' && (Json.escapedChar? c).isSome) then behindQuoted? quote rest else none
  | c :: rest =>
    if c == quote then some rest else if c == '\\' then none else behindQuoted? quote rest

/-- What follows a text in quotes of either kind. -/
def behindText? : List Char → Option (List Char)
  | '"' :: rest => behindQuoted? '"' rest
  | '\'' :: rest => behindQuoted? '\'' rest
  | _ => none

/-- What follows a number: the exponent, if any, has a capital letter. -/
def behindNumber? (cs : List Char) : Option (List Char) :=
  let cs := match cs with
    | '-' :: cs => cs
    | cs => cs
  let (whole, rest) := Decimal.spanDigits cs
  if whole.isEmpty then none
  else
    let rest := match rest with
      | '.' :: rest => (Decimal.spanDigits rest).2
      | rest => rest
    match rest with
    | 'E' :: behind =>
      let behind := match behind with
        | '-' :: behind => behind
        | behind => behind
      let (exponent, behind) := Decimal.spanDigits behind
      if exponent.isEmpty then none else some behind
    | rest => some rest

/-- What follows a word or number that no name goes on behind. -/
def behindWord? (cs : List Char) : Option (List Char) :=
  let found := ["null", "true", "false"].findSome? fun w => Json.afterWord? w.toList cs
  (found.or (behindNumber? cs)).filter endsName

mutual

/-- What follows a literal. The number bounds how many parts it has. -/
def behindLiteral? : Nat → List Char → Option (List Char)
  | 0, _ => none
  | n + 1, cs =>
    match cs with
    | '[' :: rest =>
      let rest := skip rest
      behindItems? n ((behindLiteral? n rest).getD rest)
    | '\x7b' :: rest =>
      let rest := skip rest
      behindFields? n ((behindField? n rest).getD rest)
    | _ => (behindText? cs).or (behindWord? cs)

/-- What follows further items of a list and its closing bracket. -/
def behindItems? : Nat → List Char → Option (List Char)
  | 0, _ => none
  | n + 1, cs =>
    match skip cs with
    | ']' :: rest => some rest
    | ',' :: rest => (behindLiteral? n (skip rest)).bind (behindItems? n)
    | _ => none

def behindField? : Nat → List Char → Option (List Char)
  | 0, _ => none
  | n + 1, cs => do
    match skip (← behindText? cs) with
    | ':' :: rest => behindLiteral? n (skip rest)
    | _ => none

/-- What follows further fields of a record and its closing brace. -/
def behindFields? : Nat → List Char → Option (List Char)
  | 0, _ => none
  | n + 1, cs =>
    match skip cs with
    | '\x7d' :: rest => some rest
    | ',' :: rest => (behindField? n (skip rest)).bind (behindFields? n)
    | _ => none

end

/-- The inside of single quotes as it stands in double quotes. -/
def requoted : List Char → List Char
  | [] => []
  | '\\' :: '\'' :: rest => '\'' :: requoted rest
  | '"' :: rest => '\\' :: '"' :: requoted rest
  | c :: rest => c :: requoted rest

/-- The value of a literal, if it is well formed. -/
def literalValue? (cs : List Char) : Option Data :=
  match cs with
  | '\'' :: rest => (Json.parse? (String.ofList ('"' :: requoted rest.dropLast ++ ['"']))).map Data.sorted
  | _ => (Json.parse? (String.ofList cs)).map Data.sorted

/-! ## Applications -/

/-- The name of a helper or of an argument. -/
def identifier? (cs : List Char) : Option (String × List Char) :=
  let word := cs.takeWhile isSymbol
  if word.isEmpty then none else some (String.ofList word, cs.drop word.length)

/-- Whether a word stands here that is no argument. -/
def seesKeyword (cs : List Char) : Bool :=
  match identifier? cs with
  | some ("as", _) => true
  | some ("else", _) => true
  | _ => false

/-- What is before `rest` in `cs`. -/
def before (cs rest : List Char) : String := String.ofList (cs.take (cs.length - rest.length))

/-- Positional and named arguments. -/
structure Arguments where
  args : List Expr
  named : List (String × Expr)
  rest : List Char

mutual

/-- One argument. A literal that is not well formed is none, whatever else it could be. The number
bounds how many parts it has. -/
def argument? : Nat → List Char → Option (Expr × List Char)
  | 0, _ => none
  | n + 1, cs =>
    if seesKeyword cs then none
    else
      match behindLiteral? (cs.length + 1) cs with
      | some rest => (literalValue? (cs.take (cs.length - rest.length))).map fun d => (.lit d, rest)
      | none =>
        match cs with
        | '(' :: rest =>
          let rest := skip rest
          let applied := do
            let (helper, rest) ← identifier? rest
            let found := arguments n rest
            if found.args.isEmpty && found.named.isEmpty then none
            else return (Expr.call helper found.args found.named, found.rest)
          let alone := (reference? rest).map fun (_, behind) => (Expr.call (before rest behind) [] [], behind)
          match applied.or alone with
          | some (e, rest) => (Json.afterWord? [')'] (skip rest)).map (e, ·)
          | none => none
        | _ => (reference? cs).map fun (r, rest) => (.ref r, rest)

/-- Arguments as far as there are any. -/
def arguments : Nat → List Char → Arguments
  | 0, cs => ⟨[], [], cs⟩
  | n + 1, cs =>
    let here := skip cs
    let assigned := do
      let (key, rest) ← identifier? here
      match skip rest with
      | '=' :: rest =>
        let (e, rest) ← argument? n (skip rest)
        return (key, e, rest)
      | _ => none
    match assigned with
    | some (key, e, rest) =>
      let more := arguments n rest
      { more with named := (key, e) :: more.named }
    | none =>
      match argument? n here with
      | some (e, rest) =>
        let more := arguments n rest
        { more with args := e :: more.args }
      | none => ⟨[], [], cs⟩

end

/-- The names that a block gives, between bars. -/
def blockNames? (cs : List Char) : Option (List String × List Char) := do
  let rest ← Json.afterWord? "as".toList (skip cs)
  let rest ← Json.afterWord? ['|'] (skip rest)
  let (first, rest) ← identifier? (skip rest)
  match skip rest with
  | '|' :: rest => return ([first], rest)
  | rest =>
    let (second, rest) ← identifier? rest
    let rest ← Json.afterWord? ['|'] (skip rest)
    return ([first, second], rest)

/-- A helper with its arguments and the names it gives. -/
def call? (helper : String) (cs : List Char) : Call × List Char :=
  let found := arguments (cs.length + 1) cs
  match blockNames? found.rest with
  | some (names, rest) => (⟨helper, found.args, found.named, names⟩, rest)
  | none => (⟨helper, found.args, found.named, []⟩, found.rest)

/-! ## Tags -/

inductive Tag
  | comment
  | value (r : Reference) (call : Call)
  | computed (e : Expr)
  | opening (call : Call)
  /-- The branch for the other case. -/
  | otherwise
  /-- The branch for the other case under a condition of its own. -/
  | otherwiseIf (call : Call)
  /-- The name is empty where none is written. -/
  | closing (name : String)
  | insertion (part : Expr) (call : Call)
  | insertionOpening (part : Expr) (call : Call)
  | definitionOpening (call : Call)
  | decoration (call : Call)

/-- A tag with its marks for dropping the blanks around it. -/
structure TagRead where
  tag : Tag
  trimsBefore : Bool
  trimsAfter : Bool
  rest : List Char

/-- The closing braces of a tag, with the mark before them. -/
def close? (braces : Nat) (cs : List Char) : Option (Bool × List Char) :=
  let (mark, rest) := match skip cs with
    | '~' :: rest => (true, skip rest)
    | rest => (false, rest)
  (Json.afterWord? (List.replicate braces '\x7d') rest).map (mark, ·)

/-- What follows a single quote with something before it. -/
def behindSingle? : List Char → Option (List Char)
  | [] => none
  | '\'' :: rest => some rest
  | '\\' :: '\'' :: rest => behindSingle? rest
  | _ :: rest => behindSingle? rest

/-- What follows the fixed name of a part: a word with dots and slashes, or anything in brackets or
single quotes, which belong to the name. -/
def behindPartWord? (cs : List Char) : Option (List Char) :=
  match cs with
  | '[' :: rest =>
    let inner := rest.takeWhile (· != ']')
    if inner.isEmpty then none else (rest.drop inner.length).tail?
  | '\'' :: rest => if rest.head? == some '\'' then none else behindSingle? rest
  | _ =>
    let rest := cs.dropWhile fun c => isSymbol c || isStepMark c
    if rest.length == cs.length then none else some rest

/-- The name of a part, as it is written: fixed, the value of an expression in parentheses, or a
reference that stands for itself. -/
def partName? (cs : List Char) : Option (Expr × String × List Char) :=
  let fixed (rest : List Char) : Expr × String × List Char :=
    (.lit (.text (before cs rest)), before cs rest, rest)
  match behindPartWord? cs with
  | some rest => some (fixed rest)
  | none =>
    match cs with
    | '(' :: _ => (argument? (cs.length + 1) cs).map fun (e, rest) => (e, before cs rest, rest)
    | _ => (reference? cs).map fun (_, rest) => fixed rest

/-- A part with its arguments. -/
def part? (cs : List Char) : Option (Expr × Call × List Char) :=
  (partName? cs).map fun (part, name, rest) =>
    let found := arguments (rest.length + 1) rest
    (part, ⟨name, found.args, found.named, []⟩, found.rest)

/-- A name or an expression in parentheses, without arguments. -/
def plainValue? (cs : List Char) : Option (Tag × List Char) :=
  match cs with
  | '(' :: _ => (argument? (cs.length + 1) cs).map fun (e, rest) => (.computed e, rest)
  | _ => (reference? cs).map fun (r, rest) => (.value r ⟨before cs rest, [], [], []⟩, rest)

/-- The inside of a tag that inserts a value: a helper with arguments, or a name. -/
def valueTag? (cs : List Char) : Option (Tag × List Char) :=
  let applied := do
    let (helper, rest) ← identifier? cs
    let found := arguments (rest.length + 1) rest
    if found.args.isEmpty && found.named.isEmpty then none
    else return (Tag.value ⟨false, []⟩ ⟨helper, found.args, found.named, []⟩, found.rest)
  applied.or (plainValue? cs)

/-- A helper by its name, with what belongs to it. -/
def applied? (cs : List Char) : Option (Call × List Char) :=
  (identifier? cs).map fun (helper, rest) => call? helper rest

/-- The inside of a tag that opens a block. -/
def openingTag? (cs : List Char) : Option (Tag × List Char) :=
  match cs with
  | '*' :: rest => (applied? (skip rest)).map fun (call, rest) => (.definitionOpening call, rest)
  | '>' :: rest => (part? (skip rest)).map fun (part, call, rest) => (.insertionOpening part call, rest)
  | rest => (applied? rest).map fun (call, rest) => (.opening call, rest)

/-- What stands behind the word for the other branch. -/
def behindElse? (cs : List Char) : Option (List Char) :=
  match cs with
  | '^' :: rest => some rest
  | 'e' :: 'l' :: 's' :: 'e' :: rest => if endsName rest then some rest else none
  | _ => none

/-- The inside of a tag in double braces. -/
def inside? (cs : List Char) : Option (Tag × List Char) :=
  match cs with
  | '#' :: rest => openingTag? (skip rest)
  | '/' :: rest =>
    match partName? (skip rest) with
    | some (_, name, behind) => some (.closing name, behind)
    | none => some (.closing "", rest)
  | '>' :: rest => (part? (skip rest)).map fun (part, call, rest) => (.insertion part call, rest)
  | '&' :: rest => plainValue? (skip rest)
  | '*' :: rest => (applied? (skip rest)).map fun (call, rest) => (.decoration call, rest)
  | _ =>
    match behindElse? cs with
    | some rest =>
      match applied? (skip rest) with
      | some (call, behind) => some (.otherwiseIf call, behind)
      | none => some (.otherwise, rest)
    | none => valueTag? cs

/-- The characters behind the next occurrence of a word. -/
def behind? (word : List Char) : List Char → Option (List Char)
  | [] => none
  | c :: cs => if word.isPrefixOf (c :: cs) then some ((c :: cs).drop word.length) else behind? word cs

/-- What follows a comment: one that opens with two dashes ends with them too, where they come. -/
def behindComment? (cs : List Char) : Option (List Char) :=
  match skip cs with
  | '-' :: '-' :: inner => (behind? "--\x7d\x7d".toList inner).or (behind? "\x7d\x7d".toList cs)
  | _ => behind? "\x7d\x7d".toList cs

/-- The tag whose two opening braces stand here. -/
def tag? (cs : List Char) : Option TagRead := do
  let body ← Json.afterWord? ['\x7b', '\x7b'] cs
  match body with
  | '!' :: rest => return ⟨.comment, false, false, ← behindComment? rest⟩
  | _ =>
    let (trimsBefore, body) := match skip body with
      | '~' :: rest => (true, skip rest)
      | rest => (false, rest)
    match body with
    | '\x7b' :: rest =>
      let (trimsBefore, rest) := match skip rest with
        | '~' :: rest => (true, skip rest)
        | rest => (trimsBefore, rest)
      let (tag, rest) ← valueTag? rest
      match Json.afterWord? ['\x7d'] (skip rest) with
      | some rest =>
        let (trimsAfter, rest) ← close? 2 rest
        return ⟨tag, trimsBefore, trimsAfter, rest⟩
      | none =>
        let (trimsAfter, rest) ← close? 3 rest
        return ⟨tag, trimsBefore, trimsAfter, rest⟩
    | _ =>
      let (tag, rest) ← inside? body
      let (trimsAfter, rest) ← close? 2 rest
      return ⟨tag, trimsBefore, trimsAfter, rest⟩

end PromptPack.Template
