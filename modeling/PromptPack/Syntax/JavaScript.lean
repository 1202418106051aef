import PromptPack.Outline.Hit
import PromptPack.Syntax.JavaScript.Token
/-!
# Reading JavaScript

Functions and methods lose their bodies, of classes the members are listed, and declared arrow
functions end before their bodies. Exports are found both for themselves and for what they
declare.
-/

namespace PromptPack.Syntax.JavaScript

open Outline

/-! ## Ends of statements -/

def isText (t : Tree) : Bool :=
  match t with
  | .leaf token => token.kind == .text
  | .group .. => false

/-- Words that begin a declaration, which cannot end behind them. -/
def declaringWords : List String := ["var", "const", "function", "class", "import", "export"]

/-- Whether a statement ends between two trees without a mark of its own: behind an operand, or behind
a word that does not need the operand it may have. -/
def breaksBetween (t u : Tree) : Bool :=
  u.fresh && (endsOperand t.lastToken || t.is "return" || t.is "yield") &&
    !continues u.firstToken && !declaringWords.any t.is && !(t.is "from" && isText u)

/-- Whether the head of a function or class goes on behind a tree. No line end closes a statement there. -/
def headBehind (inHead : Bool) (t : Tree) : Bool :=
  if t.opensWith "\x7b" then false else inHead || t.is "function" || t.is "class"

/-- The trees of the statement that begins here, its semicolon included. -/
def statement (trees : List Tree) : List Tree :=
  go false trees
where
  go (inHead : Bool) : List Tree → List Tree
    | [] => []
    | t :: ts =>
      if t.is ";" then [t]
      else
        match ts with
        | [] => [t]
        | u :: _ =>
          let inHead := headBehind inHead t
          if !inHead && breaksBetween t u then [t] else t :: go inHead ts

def withoutSemicolon (s : List Tree) : List Tree :=
  if (s.getLast?.map (·.is ";")).getD false then s.dropLast else s

def stopOf (s : List Tree) : Nat := (s.getLast?.map Tree.stop).getD 0

/-- The end of a statement that ends with an expression. -/
def freeStopOf (s : List Tree) : Nat :=
  (s.getLast?.map fun t => if t.is ";" then t.stop else t.lastToken.reach).getD 0

/-! ## Declarations -/

/-- A function or class: where it begins, its body, and whether it has a name or generates. One that
begins where an expression could is taken to reach behind its body as an expression does. -/
structure Definition where
  start : Nat
  body : Tree
  named : Bool
  generates : Bool

/-- The body in braces among trees, before a semicolon. -/
def bodyIn? : List Tree → Option Tree
  | [] => none
  | t :: ts => if t.opensWith "\x7b" then some t else if t.is ";" then none else bodyIn? ts

def headIs (word : String) : List Tree → Bool
  | [] => false
  | t :: _ => t.is word

def headIsWord : List Tree → Bool
  | [] => false
  | t :: _ => t.isWord

/-- The function that begins here. -/
def functionAt? (trees : List Tree) : Option Definition :=
  match trees with
  | [] => none
  | first :: _ =>
    let behindAsync := if headIs "async" trees && !(trees.tail.head?.map Tree.fresh).getD true then
        trees.tail
      else trees
    if !headIs "function" behindAsync then none
    else
      let behind := behindAsync.tail
      let generates := headIs "*" behind
      let behind := if generates then behind.tail else behind
      let named := headIsWord behind
      let behind := if named then behind.tail else behind
      match behind with
      | [] => none
      | params :: rest =>
        if params.opensWith "(" then (bodyIn? rest).map fun b => ⟨first.start, b, named, generates⟩
        else none

/-- What follows the decorators in front. -/
def afterDecorators : Nat → List Tree → List Tree
  | 0, trees => trees
  | n + 1, trees =>
    match trees with
    | at_ :: name :: rest => if at_.is "@" then afterDecorators n (afterName n rest) else at_ :: name :: rest
    | short => short
where
  afterName : Nat → List Tree → List Tree
    | 0, trees => trees
    | n + 1, trees =>
      match trees with
      | t :: u :: rest =>
        if t.is "." then afterName n rest
        else if t.opensWith "(" then afterName n (u :: rest)
        else t :: u :: rest
      | short => short

def undecorated (trees : List Tree) : List Tree := afterDecorators trees.length trees

/-- The class that begins here. -/
def classAt? (trees : List Tree) : Option Definition :=
  match trees, undecorated trees with
  | first :: _, c :: rest =>
    if c.is "class" then
      let named := headIsWord rest && !headIs "extends" rest
      (bodyIn? rest).map fun b => ⟨first.start, b, named, false⟩
    else none
  | _, _ => none

/-- Whether the key of a method stands here. -/
def isKey (t : Tree) : Bool :=
  match t with
  | .leaf token => token.kind == .word || token.kind == .text || token.kind == .number
  | .group o _ _ => o.text == "["

/-- The body of a method behind its modifiers. -/
def methodBody? : List Tree → Option Tree
  | key :: params :: rest =>
    if isKey key && params.opensWith "(" then
      match rest with
      | body :: _ => if body.opensWith "\x7b" then some body else none
      | [] => none
    else if key.is "*" || ["static", "async", "get", "set"].any key.is then
      methodBody? (params :: rest)
    else none
  | _ => none

/-- The method that begins here. -/
def methodAt? (trees : List Tree) : Option Hit :=
  match trees with
  | [] => none
  | first :: _ => (methodBody? (undecorated trees)).map fun b =>
      Hit.signature 3 first.start b.stop b.start b.stop

/-- The parts of a declaration between its commas. -/
def declarators : List Tree → List (List Tree)
  | [] => [[]]
  | t :: ts =>
    if t.is "," then [] :: declarators ts
    else
      match declarators ts with
      | [] => [[t]]
      | d :: ds => (t :: d) :: ds

/-- The value that a declarator gives. -/
def valueOf (d : List Tree) : List Tree := (d.dropWhile (!·.is "=")).tail

/-- The body of a value that is an arrow function and nothing else. -/
def arrowBody? (value : List Tree) : Option Region :=
  let value := if headIs "async" value && !headIs "=>" value.tail then value.tail else value
  match value with
  | p :: arrow :: b :: rest =>
    if (p.isWord || p.opensWith "(") && arrow.is "=>" && (rest.isEmpty || !b.opensWith "\x7b") then
      some ⟨b.start, stopOf (b :: rest)⟩
    else none
  | _ => none

/-- The body of a value that is a function and nothing else. -/
def functionBody? (value : List Tree) : Option Region :=
  match functionAt? value with
  | some d =>
    if !d.generates && stopOf value == d.body.stop then some ⟨d.body.start, d.body.stop⟩ else none
  | none => none

def signatures (rule start stop : Nat) (bodies : List Region) : List Hit :=
  bodies.map fun b => Hit.signature rule start stop b.start b.stop

/-- The declarators of the declaration that begins here. -/
def valuesAt (trees : List Tree) : List (List Tree) :=
  (declarators (withoutSemicolon (statement trees))).map valueOf

/-- The hits of a declaration of variables. -/
def variableHits (trees : List Tree) : List Hit :=
  match trees with
  | [] => []
  | first :: _ =>
    let stop := freeStopOf (statement trees)
    let late := if first.is "var" then 1 else 0
    (valuesAt trees).flatMap fun v =>
      signatures (11 + late) first.start stop (arrowBody? v).toList ++
        signatures (13 + late) first.start stop (functionBody? v).toList

def isVariableWord (t : Tree) : Bool := t.is "const" || t.is "let" || t.is "var"

/-- The end of a definition, given whether an expression could stand in its place. -/
def Definition.stop (d : Definition) (free : Bool) : Nat :=
  if free then d.body.lastToken.reach else d.body.stop

/-- The hits of a function declaration. -/
def functionHits (free : Bool) (trees : List Tree) : List Hit :=
  match functionAt? trees with
  | some d =>
    if d.named then
      [Hit.signature (if d.generates then 5 else 4) d.start (d.stop free) d.body.start d.body.stop]
    else []
  | none => []

/-- The hits of a class declaration. -/
def classHits (free : Bool) (trees : List Tree) : List Hit :=
  match classAt? trees with
  | some d => if d.named then [Hit.header 2 d.start (d.stop free) d.body.start d.body.stop] else []
  | none => []

/-- The hits of an export, given where it begins and what follows its keyword. -/
def exportHits (start : Nat) (trees behind : List Tree) : List Hit :=
  let isDefault := headIs "default" behind
  let behind := if isDefault then behind.tail else behind
  let free := isDefault || (behind.head?.map isVariableWord).getD false
  let stop := if free then freeStopOf (statement trees) else stopOf (statement trees)
  let whole (rule : Nat) : Hit := Hit.whole rule start stop
  match functionAt? behind, classAt? behind with
  | some d, _ =>
    if d.named then
      Hit.signature (if d.generates then 7 else 6) start (d.stop free) d.body.start d.body.stop ::
        functionHits free behind
    else if !isDefault then []
    else (if d.generates then [] else [Hit.signature 9 start stop d.body.start d.body.stop]) ++
      [whole 20]
  | none, some d =>
    if d.named then
      Hit.header 8 start (d.stop free) d.body.start d.body.stop :: classHits free behind
    else if !isDefault then []
    else [Hit.header 10 start stop d.body.start d.body.stop, whole 20]
  | none, none =>
    match behind with
    | [] => []
    | t :: rest =>
      if isDefault then [whole 20]
      else if isVariableWord t then
        (if t.is "var" then [whole 17]
        else signatures 15 start stop ((valuesAt behind).filterMap arrowBody?) ++ [whole 16]) ++
          variableHits behind
      else if t.isCut then []
      else if t.opensWith "\x7b" then
        [whole 18] ++ if headIs "from" rest then [whole 19] else []
      else if t.is "*" then [whole 19]
      else []

/-- The hits of the statement that begins here. An import names its source by a text. -/
def statementHits (trees : List Tree) : List Hit :=
  match trees with
  | [] => []
  | t :: rest =>
    if t.is "import" then
      match rest with
      | u :: _ =>
        let s := statement trees
        if u.opensWith "(" || u.is "." || !s.any isText then [] else [Hit.whole 0 t.start (stopOf s)]
      | [] => []
    else if isVariableWord t then variableHits trees
    else if t.is "export" then exportHits t.start trees rest
    else if headIs "export" (undecorated trees) then
      exportHits t.start trees (undecorated trees).tail
    else functionHits true trees ++ classHits true trees

/-! ## Scanning -/

/-- What a list of trees is. -/
inductive Role
  | statements
  /-- The members of a class. -/
  | members
  /-- The properties of an object. -/
  | properties
  | expression
  deriving DecidableEq

/-- What is known between two trees of a list. -/
structure State where
  role : Role
  /-- A statement or member may begin here. -/
  begins : Bool
  before : Option Tree := none
  /-- The next block is the body of a class. -/
  inClassHead : Bool := false
  /-- The next block is the body of a function. -/
  inFunctionHead : Bool := false
  /-- The statement or member ends with its body. -/
  defines : Bool := false
  /-- How many conditional expressions wait for their second branch. -/
  questions : Nat := 0
  /-- A parenthesis with a statement behind it follows. -/
  controls : Bool := false

def State.within (role : Role) : State := { role, begins := role != .expression }

/-- The state before a tree, when a line end closes the statement or member before it. -/
def State.atLine (s : State) (t : Tree) : State :=
  match s.before with
  | none => s
  | some u =>
    if (s.role == .statements || s.role == .members) && !s.begins && !s.defines && !s.controls &&
        !s.inClassHead && !s.inFunctionHead && breaksBetween u t then
      { State.within s.role with before := some u }
    else s

def State.isBehind (s : State) (text : String) : Bool := (s.before.map (·.is text)).getD false

/-- What a group is, seen from the state before it. -/
def State.roleOf (s : State) (t : Tree) : Role :=
  if !t.opensWith "\x7b" then .expression
  else if s.inClassHead then .members
  else if s.role == .statements && s.begins then .statements
  else if s.defines || s.isBehind "=>" then .statements
  else if s.role == .members && s.isBehind "static" then .statements
  else
    match s.before with
    | some (.group o _ _) => if o.text == "(" then .statements else .properties
    | _ => .properties

/-- Words with a parenthesis and a statement behind them. -/
def controlWords : List String := ["if", "for", "while", "with", "switch", "catch"]

/-- Words with a statement right behind them. -/
def leadingWords : List String := ["else", "try", "do", "finally"]

/-- Whether the statement or member that begins here ends with its body. -/
def State.definesAt (s : State) (trees : List Tree) : Bool :=
  match s.role with
  | .statements =>
    let inner := undecorated trees
    let inner := if headIs "export" inner then
        undecorated (if headIs "default" inner.tail then inner.tail.tail else inner.tail)
      else inner
    (functionAt? inner).isSome || headIs "class" inner
  | .expression => false
  | _ => (methodAt? trees).isSome

/-- The hits of what begins here. -/
def State.hitsAt (s : State) (trees : List Tree) : List Hit :=
  if !s.begins then []
  else
    match s.role with
    | .statements => statementHits trees
    | .expression => []
    | _ => (methodAt? trees).toList

def opensBlock (next : Option Tree) : Bool := next.any (·.opensWith "\x7b")

/-- The state behind a tree, given the tree after it. -/
def State.step (s : State) (trees : List Tree) (t : Tree) (next : Option Tree) : State :=
  let fresh : State := { State.within s.role with before := some t }
  let s := if s.begins then { s with begins := false, defines := s.definesAt trees } else s
  let on : State := { s with before := some t }
  let nextIs (text : String) : Bool := (next.map (·.is text)).getD false
  match t with
  | .group o _ _ =>
    if o.text == "\x7b" then
      if s.defines then fresh
      else { on with inClassHead := false, inFunctionHead := false }
    else if o.text == "(" && s.controls then fresh
    else on
  | .leaf _ =>
    if t.is ";" || (s.role == .properties && t.is ",") then fresh
    else if t.is "?" then { on with questions := s.questions + 1 }
    else if t.is ":" && s.role == .statements && !s.defines then
      if s.questions == 0 then fresh else { on with questions := s.questions - 1 }
    else if s.isBehind "." || s.isBehind "?." then on
    else if s.role == .statements && (leadingWords.any t.is || (t.is "catch" && opensBlock next)) then
      fresh
    else if s.role == .statements && controlWords.any t.is then
      { on with controls := (next.map (fun u => u.opensWith "(" || u.is "await")).getD false }
    else if [":", ",", "="].any nextIs then on
    else if t.is "class" then { on with inClassHead := true }
    else if t.is "function" then { on with inFunctionHead := true }
    else on

mutual

/-- The hits inside a group. -/
def hitsInTree (role : Role) : Tree → List Hit
  | .leaf _ => []
  | .group _ items _ => hitsInTrees (State.within role) items

/-- The hits in a list of trees. The first part of a loop's head is a statement if a semicolon ends
it. -/
def hitsInTrees (s : State) : List Tree → List Hit
  | [] => []
  | t :: ts =>
    let s := s.atLine t
    let next := s.step (t :: ts) t ts.head?
    let next :=
      if s.role == .statements && s.begins && t.opensWith "\x7b" then
        { State.within .statements with before := some t }
      else if s.role == .members && s.isBehind "static" && t.opensWith "\x7b" then
        { State.within .members with before := some t }
      else next
    let head := if s.isBehind "for" && t.items.any (·.is ";") then
        match t.items with
        | [] => []
        | u :: us => if isVariableWord u then variableHits (u :: us) else []
      else []
    s.hitsAt (t :: ts) ++ head ++ hitsInTree (s.roleOf t) t ++ hitsInTrees next ts

end

/-- What the outline of a source may keep. -/
def hits (source : List Char) : List Hit :=
  let tokens := tokens source
  let comments := tokens.filter fun t => t.isComment && Text.startsWith t.text "/"
  comments.map (fun t => Hit.whole 1 t.start t.stop) ++
    hitsInTrees (State.within .statements) (treesOf (closeLast (significant tokens)))

end PromptPack.Syntax.JavaScript
