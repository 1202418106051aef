import PromptPack.Data.Basic
/-!
# Templates

A template is text with tags in double braces. Tags insert values, open and close blocks, and
insert or define named parts.
-/

namespace PromptPack.Template

/-- A step of a reference. -/
inductive Step
  /-- To the value around the current one. -/
  | up
  /-- To the whole context. -/
  | root
  /-- To a field or an item. -/
  | name (s : String)
  deriving DecidableEq, Repr

/-- Where a value is found. -/
structure Reference where
  /-- Among the variables of the block rather than in the context. -/
  isLocal : Bool
  steps : List Step
  deriving DecidableEq, Repr

inductive Expr
  | ref (r : Reference)
  | lit (d : Data)
  /-- A helper applied to values. -/
  | call (helper : String) (args : List Expr) (named : List (String × Expr))
  deriving Inhabited

/-- A helper or part applied to values, in a tag. -/
structure Call where
  /-- The name as it is written. -/
  name : String
  args : List Expr := []
  named : List (String × Expr) := []
  /-- The names that a block gives to its value and key. -/
  names : List String := []
  deriving Inhabited

inductive Node
  | text (s : String)
  /-- The value of a reference, or of a helper with that name. -/
  | value (r : Reference) (call : Call)
  /-- The value of an expression. -/
  | computed (e : Expr)
  | block (call : Call) (body : List Node) (inverse : List Node) (hasInverse : Bool)
  /-- A part by its name, each line of it behind the given blanks. What the insertion encloses
  stands in for a part that is not there, and is a part for the one that is. -/
  | insertion (part : Expr) (call : Call) (indent : String) (encloses : Bool) (body : List Node)
  /-- The definition of a named part. -/
  | definition (call : Call) (body : List Node)
  /-- A definition that encloses nothing. -/
  | decoration (call : Call)
  deriving Inhabited

end PromptPack.Template
