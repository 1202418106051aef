import PromptPack.Outline.Rules.Java
/-!
# Search rules for Swift

Comments, imports, the heads of type declarations and extensions, and the signatures of
functions.
-/

namespace PromptPack.Outline.Swift

open Regex

/-- An import at the start of its line. -/
def importLine : Regex :=
  lineStart ++ blanks ++ "import" ++ gap ++
    plus .greedy (char fun c => Text.isWord c || c == '.')

/-- The access levels of a declaration. -/
def levels : List String := ["public", "private", "fileprivate", "internal"]

def access : Regex := maybe (Java.keywords levels)

/-- The access levels of a declaration that other modules may refine. -/
def openAccess : Regex := maybe (Java.keywords (levels ++ ["open"]))

/-- A keyword, a name and what the declaration conforms to, up to the body. -/
def head (keyword : String) : Regex :=
  keyword ++ gap ++ word ++ maybe (":" ++ blanks ++ plus .greedy (noneOf ['{'])) ++ blanks ++ brace

def function : Regex :=
  openAccess ++ maybe ("override" ++ gap) ++ maybe (Java.keywords ["static", "class"]) ++
    maybe ("mutating" ++ gap) ++ "func" ++ gap ++ group "name" word ++ blanks ++
    maybe ("<" ++ star .greedy (noneOf ['>']) ++ ">") ++ blanks ++ "(" ++
    star .greedy (noneOf [')']) ++ ")" ++
    star .greedy (blanks ++ oneOf ["throws", "rethrows", "async"]) ++
    maybe (blanks ++ "->" ++ blanks ++ plus .greedy (noneOf ['{'])) ++ blanks ++ brace

def rules : List Rule := [
  ⟨Java.lineComment, .all⟩,
  ⟨Java.blockComment, .all⟩,
  ⟨importLine, .all⟩,
  ⟨openAccess ++ head "struct", .all⟩,
  ⟨openAccess ++ maybe ("final" ++ gap) ++ head "class", .all⟩,
  ⟨access ++ head "protocol", .all⟩,
  ⟨access ++ maybe ("indirect" ++ gap) ++ head "enum", .all⟩,
  ⟨access ++ head "extension", .all⟩,
  ⟨function, .signature⟩]

end PromptPack.Outline.Swift
