import PromptPack.Outline.Search
/-!
# Search rules for Java

Comments, the package and import clauses, the heads of type declarations, and the signatures of
methods and constructors.
-/

namespace PromptPack.Outline.Java

open Regex

/-- A line comment up to the end of its line. -/
def lineComment : Regex := "//" ++ star .greedy (noneOf ['\n']) ++ lineEnd

def blockComment : Regex := "/*" ++ star .lazy (char fun _ => true) ++ "*/"

/-- A clause from its keyword to its semicolon. -/
def clause (keyword : String) : Regex :=
  wordBoundary ++ keyword ++ gap ++ plus .greedy (noneOf [';']) ++ ";"

/-- One of the keywords with the blanks after it. -/
def keywords (ks : List String) : Regex := oneOf (ks.map fun k => literal k ++ gap)

def access : Regex := maybe (keywords ["public", "private", "protected"])

/-- A keyword followed by everything up to the body. -/
def upToBody (keyword : String) : Regex :=
  maybe (gap ++ keyword ++ gap ++ plus .greedy (noneOf ['{']))

def typeParameters : Regex := maybe ("<" ++ star .greedy (noneOf ['>', '{']) ++ ">")

/-- A character of the name of an extended class. -/
def isSuperclass (c : Char) : Bool := Text.isWord c || ['.', '<', '>', ',', ' '].contains c

def opening : Regex := blanks ++ brace

def classHead : Regex :=
  access ++ maybe ("static" ++ gap) ++ maybe (keywords ["abstract", "final"]) ++ "class" ++ gap ++
    word ++ typeParameters ++
    maybe (gap ++ "extends" ++ gap ++ plus .lazy (char isSuperclass)) ++
    upToBody "implements" ++ opening

def interfaceHead : Regex :=
  access ++ "interface" ++ gap ++ word ++ typeParameters ++ upToBody "extends" ++ opening

def enumHead : Regex := access ++ "enum" ++ gap ++ word ++ upToBody "implements" ++ opening

/-- The result type of a method with its type arguments and array brackets. -/
def result : Regex :=
  maybe (group "ret" (plus .greedy (char fun c => Text.isWord c || c == '.')) ++
    maybe ("<" ++ star .greedy (noneOf ['>', '{', ';']) ++ ">") ++ star .greedy "[]" ++ gap)

def method : Regex :=
  access ++ star .greedy (keywords ["static", "final", "abstract", "synchronized"]) ++
    maybe ("<" ++ plus .greedy (noneOf ['>']) ++ ">" ++ gap) ++ result ++ group "name" word ++
    blanks ++ "(" ++ star .greedy (noneOf [')']) ++ ")" ++
    maybe (gap ++ "throws" ++ gap ++ plus .greedy (noneOf ['{', ';'])) ++ opening

def rules : List Rule := [
  ⟨lineComment, .all⟩,
  ⟨blockComment, .all⟩,
  ⟨clause "package", .all⟩,
  ⟨clause "import", .all⟩,
  ⟨classHead, .all⟩,
  ⟨interfaceHead, .all⟩,
  ⟨enumHead, .all⟩,
  ⟨method, .signature⟩]

end PromptPack.Outline.Java
