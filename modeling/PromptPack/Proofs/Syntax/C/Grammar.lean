import PromptPack.Proofs.Syntax.Trees
import PromptPack.Syntax.C
/-!
# A grammar of declarations

The prototypes and variables that a file declares: specifiers, declarators between commas, a semicolon. A source that
holds nothing else but directives is a sequence of rows (`Rows`).
-/

namespace PromptPack.Syntax.C

open Outline (Region)

/-! ## Words -/

/-- Words that qualify a type or say how what is declared is kept. -/
def qualifiers : List String :=
  ["const", "volatile", "static", "extern", "register", "inline", "thread_local", "_Thread_local", "_Atomic"]

def tagWords : List String := ["struct", "union", "enum"]

/-- Words with a parenthesis that may stand behind a declarator. -/
def suffixWords : List String := ["__attribute__", "asm", "__asm__"]

/-- Words that are no names. -/
def reserved : List String :=
  attributeWords ++ typeOfWords ++ trailingWords ++ basicTypes ++ controlWords ++ jumpWords ++ tagWords ++
    ["class", "template", "friend", "namespace", "case", "operator"]

/-- Whether the tree is one of the words. -/
def isOneOf (words : List String) : Tree → Bool
  | .leaf t => t.kind == .word && words.contains t.text
  | .group .. => false

def isName : Tree → Bool
  | .leaf t => t.kind == .word && t.text.toList.all Text.isWord && !reserved.contains t.text
  | .group .. => false

/-- Whether the tree makes a declarator one of a pointer. -/
def isPointer (t : Tree) : Bool := t.is "*" || isOneOf ["const", "volatile", "restrict", "__restrict", "_Atomic"] t

/-! ## Declarations -/

/-- What stands in front of the declarators: a type, and words that qualify it. -/
inductive Specifiers : List Tree → Prop
  /-- A type that has words of its own. -/
  | basic {front back : List Tree} {word : Tree} : (∀ t ∈ front, isOneOf qualifiers t = true) →
      isOneOf plainTypes word = true → (∀ t ∈ back, isOneOf (qualifiers ++ plainTypes) t = true) →
      Specifiers (front ++ word :: back)
  | named {front back : List Tree} {name : Tree} : (∀ t ∈ front, isOneOf qualifiers t = true) → isName name = true →
      (∀ t ∈ back, isOneOf qualifiers t = true) → Specifiers (front ++ name :: back)
  | tagged {front back : List Tree} {key name : Tree} : (∀ t ∈ front, isOneOf qualifiers t = true) →
      isOneOf tagWords key = true → isName name = true → (∀ t ∈ back, isOneOf qualifiers t = true) →
      Specifiers (front ++ key :: name :: back)
  /-- A type with its members. -/
  | defined {front back : List Tree} {key body : Tree} (name : Option Tree) : (∀ t ∈ front, isOneOf qualifiers t = true) →
      isOneOf tagWords key = true → (∀ t ∈ name, isName t = true) → body.opensWith "\x7b" = true →
      (∀ t ∈ back, isOneOf qualifiers t = true) → Specifiers (front ++ key :: (name.toList ++ body :: back))

/-- Whether the tree may stand in a value. Commas end a value, and keywords of types stand in it in parentheses only. -/
def isPiece (t : Tree) : Bool :=
  !isDirectiveTree t && !([";", ",", "\x7b", "\x7d", "try", "typedef"].any t.is) && !plainTypes.any t.is && !isTypeWord t

/-- What stands behind the name of a declarator. -/
inductive Suffixes : List Tree → Prop
  | nil : Suffixes []
  | group {t : Tree} {ts : List Tree} : t.opensWith "(" = true ∨ t.opensWith "[" = true → Suffixes ts → Suffixes (t :: ts)
  | clause {word t : Tree} {ts : List Tree} : isOneOf suffixWords word = true → t.opensWith "(" = true → Suffixes ts →
      Suffixes (word :: t :: ts)
  /-- The value that is given. -/
  | value {mark t : Tree} {ts : List Tree} : mark.is "=" = true → (∀ u ∈ t :: ts, isPiece u = true) →
      Suffixes (mark :: t :: ts)

/-- A declarator: pointers, a name or a declarator in parentheses, and what stands behind it. -/
inductive Declarator : List Tree → Prop
  | mk {pointers suffixes : List Tree} {core : Tree} : (∀ t ∈ pointers, isPointer t = true) →
      isName core = true ∨ core.opensWith "(" = true → Suffixes suffixes → Declarator (pointers ++ core :: suffixes)

/-- Declarators between commas. -/
inductive Declarators : List Tree → Prop
  | one {d : List Tree} : Declarator d → Declarators d
  | more {d ds : List Tree} {comma : Tree} : Declarator d → comma.is "," = true → Declarators ds →
      Declarators (d ++ comma :: ds)

/-- A declaration of functions or variables. A name alone with a parenthesis behind it is a call. -/
inductive Declaration : List Tree → Prop
  | mk {specifiers declarators : List Tree} {semicolon : Tree} : Specifiers specifiers → Declarators declarators →
      ((∃ name, specifiers = [name] ∧ isName name = true) → ∀ t ∈ declarators.head?, t.opensWith "(" = false) →
      semicolon.is ";" = true → Declaration (specifiers ++ (declarators ++ [semicolon]))

/-! ## Rows -/

/-- A directive or a declaration. -/
inductive Row
  | directive (t : Token)
  | declaration (trees : List Tree)

namespace Row

def trees : Row → List Tree
  | directive t => [.leaf t]
  | declaration trees => trees

/-- The span of the row. -/
def region (r : Row) : Region :=
  ⟨(r.trees.head?.map Tree.start).getD 0, (r.trees.getLast?.map Tree.stop).getD 0⟩

/-- How many conditionals are open behind the row. -/
def openBehind (open_ : Nat) : Row → Nat
  | directive t => conditionals open_ (.leaf t)
  | declaration _ => open_

end Row

/-- The declaration has no block, no type name and no directive in it. -/
def IsPlain (trees : List Tree) : Prop := ∀ t ∈ leavesOf trees, t.text ≠ "\x7b" ∧ t.text ≠ "typedef" ∧ isDirective t = false

/-- The rows of a source, given how many conditionals are open in front of them. A declaration in a conditional is
plain. -/
inductive Rows : Nat → List Row → Prop
  | nil {open_ : Nat} : Rows open_ []
  | directive {open_ : Nat} {t : Token} {rows : List Row} : isDirective t = true →
      Rows ((Row.directive t).openBehind open_) rows → Rows open_ (.directive t :: rows)
  | declaration {open_ : Nat} {trees : List Tree} {rows : List Row} : Declaration trees →
      (open_ ≠ 0 → IsPlain trees) → Rows open_ rows → Rows open_ (.declaration trees :: rows)

end PromptPack.Syntax.C
