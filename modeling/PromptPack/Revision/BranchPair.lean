import PromptPack.Text.Blank
/-!
# Pairs of branches

Two branches are named with a comma between them; blanks around the names do not count.
-/

namespace PromptPack

structure BranchPair where
  base : String
  tip : String
  deriving DecidableEq, Repr

/-- What is said about a text that names no pair. -/
def BranchPair.misnamed : String := "please provide exactly two branches separated by a comma"

/-- The pair that a text names: exactly two names, neither of them blank. -/
def BranchPair.parse? (spec : String) : Option BranchPair :=
  match (Text.splitAt ',' spec).map Text.trim with
  | [base, tip] => if base.isEmpty || tip.isEmpty then none else some ⟨base, tip⟩
  | _ => none

end PromptPack
