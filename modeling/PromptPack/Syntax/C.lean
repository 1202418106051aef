import PromptPack.Outline.Hit
import PromptPack.Syntax.C.Token
/-!
# Reading C and C++

Includes, macros, comments and types with a body are kept wherever they stand, functions lose
their bodies, and declarations are kept when nothing encloses them.
-/

namespace PromptPack.Syntax.C

open Outline

/-! ## Types with a body -/

/-- Words with a parenthesis that belongs to them alone. -/
def attributeWords : List String :=
  ["__attribute__", "__declspec", "alignas", "_Alignas", "noexcept", "throw", "decltype", "asm",
    "__asm__", "requires", "explicit"]

/-- Words that are a type together with the parenthesis behind them. -/
def typeOfWords : List String := ["decltype", "typeof", "__typeof__"]

/-- What follows the attributes in front. -/
def afterAttributes : List Tree → List Tree
  | t :: u :: rest =>
    if attributeWords.any t.is && !typeOfWords.any t.is && u.opensWith "(" then afterAttributes rest
    else if t.opensWith "[" then afterAttributes (u :: rest)
    else t :: u :: rest
  | rest => rest

/-- What follows the angle brackets that are open. -/
def afterAngles : Nat → List Tree → List Tree
  | _, [] => []
  | open_, t :: ts =>
    if t.is "<" then afterAngles (open_ + 1) ts
    else if t.is "<<" then afterAngles (open_ + 2) ts
    else if t.is ">" then if open_ ≤ 1 then ts else afterAngles (open_ - 1) ts
    else afterAngles open_ ts

/-- What follows the arguments in angle brackets, if they stand here. -/
def afterArguments : List Tree → List Tree
  | [] => []
  | t :: ts => if t.is "<" then afterAngles 1 ts else t :: ts

/-- What follows a name, with its qualifiers and arguments. The number bounds its parts. -/
def afterName : Nat → List Tree → List Tree
  | 0, trees => trees
  | _, [] => []
  | n + 1, t :: ts =>
    if t.is "::" then afterName n ts
    else if t.isWord then
      match afterArguments ts with
      | u :: us => if u.is "::" then afterName n us else u :: us
      | [] => []
    else t :: ts

/-- What follows a condition on the arguments of a template: names, parentheses and requirements that
are joined by "and" and "or". The number bounds its parts. -/
def afterCondition : Nat → List Tree → List Tree
  | 0, trees => trees
  | _, [] => []
  | n + 1, t :: ts =>
    let behind :=
      if t.is "requires" then
        match ts with
        | u :: us => if u.opensWith "(" then us.tail else us
        | [] => []
      else if t.isWord then afterName (ts.length + 1) (t :: ts)
      else ts
    match behind with
    | u :: us => if u.is "&&" || u.is "||" then afterCondition n us else u :: us
    | [] => []

/-- What follows the parameters of a template, with a condition on them. -/
def afterParameters (trees : List Tree) : List Tree :=
  match (if (trees.head?.map (·.is "<")).getD false then afterAngles 1 trees.tail else trees) with
  | t :: ts => if t.is "requires" then afterCondition (ts.length + 1) ts else t :: ts
  | [] => []

/-- The first block before a semicolon, and what follows it. -/
def block? : List Tree → Option (Tree × List Tree)
  | [] => none
  | t :: ts => if t.opensWith "\x7b" then some (t, ts) else if t.is ";" then none else block? ts

def isTypeWord (t : Tree) : Bool := t.is "struct" || t.is "union" || t.is "enum" || t.is "class"

/-- What follows the keyword and the name of a type. -/
def behindTypeName : List Tree → List Tree
  | [] => []
  | key :: rest =>
    let rest := match rest with
      | t :: ts => if key.is "enum" && (t.is "class" || t.is "struct") then ts else t :: ts
      | [] => []
    let rest := afterAttributes rest
    match afterName rest.length rest with
    | t :: ts => if t.is "final" then ts else t :: ts
    | [] => []

/-- The body of the type whose keyword stands here, and what follows it. -/
def typeBody? (trees : List Tree) : Option (Tree × List Tree) :=
  if !(trees.head?.map isTypeWord).getD false then none
  else
    match behindTypeName trees with
    | t :: ts =>
      if t.opensWith "\x7b" then some (t, ts)
      else if t.is ":" then block? ts
      else none
    | [] => none

/-- The end of a type, given its body and what follows it: an attribute belongs to the type. -/
def typeStop (body : Tree) : List Tree → Nat
  | t :: u :: _ => if t.is "__attribute__" && u.opensWith "(" then u.stop else body.stop
  | _ => body.stop

/-- The hit of a type with a body whose keyword stands here. -/
def typeHits (trees : List Tree) : List Hit :=
  match trees, typeBody? trees with
  | key :: _, some (body, rest) =>
    let stop := typeStop body rest
    if key.is "struct" then [Hit.whole 5 key.start stop]
    else if key.is "enum" then [Hit.whole 6 key.start stop]
    else if key.is "union" then [Hit.whole 7 key.start stop]
    else []
  | _, _ => []

def toSemicolon : List Tree → Option Tree
  | [] => none
  | t :: ts => if t.is ";" then some t else toSemicolon ts

/-- The types and type names that are defined in a list of trees, whatever encloses them. -/
def typesIn (behindEnum : Bool) : List Tree → List Hit
  | [] => []
  | t :: ts =>
    (if t.is "typedef" then
      match toSemicolon ts with
      | some e => [Hit.whole 8 t.start e.stop]
      | none => []
    else if behindEnum then []
    else typeHits (t :: ts)) ++ typesIn (t.is "enum") ts

/-! ## Declarations -/

/-- Words that may stand between the parameters of a function and its body. -/
def trailingWords : List String :=
  ["const", "volatile", "noexcept", "override", "final", "throw", "try", "requires", "mutable",
    "restrict", "__attribute__", "asm", "__asm__", "__restrict", "and", "or"]

/-- Words that are a type by themselves. -/
def plainTypes : List String :=
  ["void", "char", "short", "int", "long", "float", "double", "signed", "unsigned", "bool", "_Bool",
    "auto", "size_t", "wchar_t"]

/-- Words with which the type of a declaration may begin. -/
def basicTypes : List String :=
  plainTypes ++ ["const", "static", "extern", "volatile", "inline", "register", "constexpr",
    "thread_local", "_Thread_local", "_Atomic"]

/-- How a declaration ends. -/
inductive Ending
  | body (start stop : Nat)
  | semicolon (stop : Nat)
  /-- The semicolon is missing; the end is that of what was read. -/
  | missing (stop : Nat)
  | none

/-- What has been seen of a declaration. -/
structure Seen where
  before : Option Tree := none
  count : Nat := 0
  params : Bool := false
  assigns : Bool := false
  /-- An arrow leads to the type of the result. -/
  returns : Bool := false
  initializes : Bool := false

def Seen.behind (s : Seen) (test : Tree → Bool) : Bool := (s.before.map test).getD false

def Seen.next (s : Seen) (t : Tree) : Seen := { s with before := some t, count := s.count + 1 }

def isDirectiveTree : Tree → Bool
  | .leaf t => isDirective t
  | .group .. => false

/-- The end of the handlers behind a guarded body. -/
def handlersEnd (stop : Nat) : List Tree → Nat × List Tree
  | c :: p :: b :: rest =>
    if c.is "catch" && p.opensWith "(" && b.opensWith "\x7b" then handlersEnd b.stop rest
    else (stop, c :: p :: b :: rest)
  | rest => (stop, rest)

/-- Reads a declaration to its end. The number bounds how many trees are looked at. -/
def declaration : Nat → Seen → List Tree → Ending × List Tree
  | 0, _, trees => (.none, trees)
  | _, _, [] => (.none, [])
  | n + 1, s, t :: ts =>
    let plainWord := t.isWord && !trailingWords.any t.is
    if isDirectiveTree t then declaration n s ts
    else if t.is ";" then (.semicolon t.stop, ts)
    else if t.is "\x7d" then (.none, ts)
    else if t.is "\x7b" then (.none, t :: ts)
    else if t.is "=" && s.behind (·.is "operator") then declaration n s ts
    else if t.is "=" then declaration n { s.next t with assigns := true } ts
    else if t.is "->" && s.params then declaration n { s.next t with returns := true } ts
    else if t.is "," && s.params && !s.initializes && !s.returns then
      declaration n { s.next t with assigns := true } ts
    else if t.is ":" && s.params then declaration n { s.next t with initializes := true } ts
    else if t.is "try" && s.params then
      match block? ts with
      | some (b, rest) =>
        let (stop, rest) := handlersEnd b.stop rest
        (.body t.start stop, rest)
      | none => (.none, [])
    else if t.fresh && plainTypes.any t.is && (s.assigns || s.behind (·.opensWith "\x7b")) then
      (if s.assigns then .missing ((s.before.map Tree.stop).getD 0) else .none, t :: ts)
    else if plainTypes.any t.is && s.params && s.count == 2 then (.none, t :: ts)
    else if plainWord && s.params && !s.assigns && !s.initializes && 2 < s.count &&
        s.behind (·.opensWith "(") then
      (.missing ((s.before.map Tree.stop).getD 0), t :: ts)
    else if isTypeWord t && !s.params then
      match typeBody? (t :: ts) with
      | some (b, rest) => declaration n (s.next b) rest
      | none => declaration n (s.next t) ts
    else if t.opensWith "(" then
      let named := s.behind fun b =>
        !(attributeWords.any b.is || b.is "=" || b.opensWith "[" || b.opensWith "\x7b")
      declaration n { s.next t with params := s.params || named } ts
    else if t.opensWith "\x7b" && s.params && !s.assigns &&
        !(s.initializes && s.behind fun b => b.isWord || b.is ">") then
      (.body t.start t.stop, ts)
    else if t.opensWith "\x7b" && !s.params && !s.assigns && 1 < s.count && s.behind Tree.isWord &&
        t.items.any (·.is ";") then
      (.body t.start t.stop, ts)
    else declaration n (s.next t) ts

/-- Whether the trees before a semicolon declare something: a type with a name behind it. -/
def declares (trees : List Tree) : Bool :=
  match afterAttributes trees with
  | [] => false
  | t :: ts =>
    if ["static", "extern", "const", "volatile", "inline", "register", "constexpr"].any t.is then
      match ts with
      | u :: us =>
        if isTypeWord u then !(behindType (u :: us)).isEmpty else true
      | [] => false
    else if isTypeWord t then !(behindType (t :: ts)).isEmpty
    else if basicTypes.any t.is then !ts.isEmpty
    else if typeOfWords.any t.is && (ts.head?.map (·.opensWith "(")).getD false then
      !(ts.tail.head?.map (·.is "::")).getD true
    else if !t.isWord then false
    else
      match afterName trees.length (t :: ts) with
      | u :: _ => u.isWord || u.is "*" || u.is "&" || u.is "&&"
      | [] => false
where
  /-- What stands behind a type that a keyword begins, less what belongs to the type. -/
  behindType (trees : List Tree) : List Tree :=
    match typeBody? trees with
    | some (_, rest) => afterAttributes rest
    | none =>
      match behindTypeName trees with
      | t :: ts => if t.is ":" then [] else t :: ts
      | [] => []

/-- The trees before the first semicolon. -/
def beforeSemicolon (trees : List Tree) : List Tree := trees.takeWhile (!·.is ";")

/-- Words of a statement with a statement behind it. -/
def controlWords : List String :=
  ["if", "for", "while", "switch", "catch", "else", "do", "try", "constexpr"]

/-- Words of a statement that no declaration begins with. -/
def jumpWords : List String :=
  ["return", "goto", "break", "continue", "throw", "delete", "new", "using", "static_assert",
    "_Static_assert", "typedef", "co_return", "co_yield", "co_await", "concept"]

/-- The trees behind a label, if one stands here. -/
def behindLabel? : List Tree → Option (List Tree)
  | t :: u :: rest =>
    if t.isWord && u.is ":" then some rest
    else if t.is "case" then some ((u :: rest).dropWhile (!·.is ":")).tail
    else none
  | _ => none

def afterSemicolon (trees : List Tree) : List Tree := (trees.dropWhile (!·.is ";")).tail

/-- How many conditional directives are open behind a directive. -/
def conditionals (open_ : Nat) (t : Tree) : Nat :=
  match t with
  | .leaf token =>
    let name := directiveName token
    if Text.startsWith name "if" then open_ + 1 else if name == "endif" then open_ - 1 else open_
  | .group .. => open_

/-- The functions and declarations that stand in a list of trees. Of declarations those are meant
that nothing encloses: no group, directive, template or linkage. -/
def declarationsIn : Nat → (top : Bool) → (open_ : Nat) → (enclosed : Bool) → List Tree → List Hit
  | 0, _, _, _, _ => []
  | _, _, _, _, [] => []
  | n + 1, top, open_, enclosed, t :: ts =>
    if isDirectiveTree t then declarationsIn n top (conditionals open_ t) enclosed ts
    else if t.is "\x7b" then declarationsIn n false open_ false ts
    else if t.is ";" || t.is "\x7d" || t.opensWith "\x7b" then declarationsIn n top open_ false ts
    else if t.is "template" then
      declarationsIn n top open_ true (afterParameters ts)
    else if t.is "friend" then declarationsIn n top open_ true ts
    else if t.is "extern" && ((ts.head?.map fun u => isText u || u.is "template").getD false) then
      declarationsIn n top open_ true ts.tail
    else if t.is "inline" && (ts.head?.map (·.is "namespace")).getD false then
      declarationsIn n top open_ false ts
    else if t.is "namespace" then
      declarationsIn n top open_ false (ts.dropWhile fun u => !(u.opensWith "\x7b" || u.is ";"))
    else if jumpWords.any t.is then declarationsIn n top open_ false (afterSemicolon ts)
    else if controlWords.any t.is && !(t.is "constexpr" && !(ts.head?.map (·.opensWith "(")).getD false) then
      declarationsIn n top open_ false (match ts with
        | u :: us => if u.opensWith "(" then us
            else if u.is "constexpr" then us.tail else u :: us
        | [] => [])
    else
      match behindLabel? (t :: ts) with
      | some rest => declarationsIn n top open_ true rest
      | none =>
        let (ending, rest) := declaration (ts.length + 2) {} (t :: ts)
        let rest := if rest.length ≤ ts.length then rest else ts
        (match ending with
        | .body start stop => [Hit.signature 4 t.start stop start stop]
        | .semicolon stop =>
          if top && open_ == 0 && !enclosed && declares (beforeSemicolon (t :: ts)) then
            [Hit.whole 9 t.start stop]
          else []
        | .missing stop =>
          if top && open_ == 0 && !enclosed then [Hit.whole 9 t.start stop] else []
        | .none => []) ++ declarationsIn n top open_ false rest
where
  isText : Tree → Bool
    | .leaf t => t.kind == .text
    | .group .. => false

/-- The spans that cannot be read: from a lone word before a directive to the end of a declaration
that lacks its semicolon. -/
def unreadable : List Tree → List Region
  | t :: d :: ts =>
    (if t.isWord && isDirectiveTree d then
      match (declaration (ts.length + 3) {} (t :: d :: ts)).1 with
      | .missing stop => [⟨t.start, stop⟩]
      | _ => []
    else []) ++ unreadable (d :: ts)
  | _ => []

mutual

/-- The hits inside a tree. -/
def hitsInTree : Tree → List Hit
  | .leaf _ => []
  | .group o items _ =>
    (if o.text == "\x7b" then declarationsIn (items.length + 1) false 0 false items else []) ++
      typesIn false items ++ hitsInTrees items

def hitsInTrees : List Tree → List Hit
  | [] => []
  | t :: ts => hitsInTree t ++ hitsInTrees ts

end

/-- The hits of a directive. One that names nothing is malformed. -/
def directiveHits (t : Token) : List Hit :=
  let name := directiveName t
  (if !namesSomething t then []
  else if name == "include" then [Hit.whole 0 t.start t.stop]
  else if name == "define" then [Hit.whole (if hasParameters t then 2 else 1) t.start t.stop]
  else []) ++ (directiveComments t).map fun (a, b) => Hit.whole 3 a b

/-- What the outline of a source may keep. -/
def hits (source : List Char) : List Hit :=
  let tokens := tokens source
  let trees := treesOf (significant tokens)
  let lost := unreadable trees
  let kept := (tokens.filter isDirective).flatMap directiveHits ++
    declarationsIn (2 * trees.length + 1) true 0 false trees ++ typesIn false trees ++ hitsInTrees trees
  (tokens.filter (·.isComment)).map (fun t => Hit.whole 3 t.start t.stop) ++
    kept.filter fun h => !lost.any fun r => r.start ≤ h.node.start && h.node.start < r.stop

end PromptPack.Syntax.C
