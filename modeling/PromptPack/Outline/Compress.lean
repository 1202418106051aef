import PromptPack.Outline.Rules
import PromptPack.Syntax.Bash
import PromptPack.Syntax.C
import PromptPack.Syntax.Css
import PromptPack.Syntax.Go
import PromptPack.Syntax.JavaScript
import PromptPack.Syntax.Python
import PromptPack.Syntax.Rust
/-!
# Compressing a source to its outline
-/

namespace PromptPack.Outline

/-- What reading a source by the grammar of its language finds. -/
def hitsOf (language : Language) (source : List Char) : List Hit :=
  match language with
  | .go => Syntax.Go.hits source
  | .css => Syntax.Css.hits source
  | .c => Syntax.C.hits source
  | .bash => Syntax.Bash.hits source
  | .javascript => Syntax.JavaScript.hits source
  | .python => Syntax.Python.hits source
  | .rust => Syntax.Rust.hits source
  | _ => []

/-- The chunks of a source, in the order in which they are found. -/
def chunks (language : Language) (source : String) : List Chunk :=
  chunksOf language source.toList (distinctHits (hitsOf language source.toList))

/-- The outline of a source in the given language. -/
def compress (language : Language) (source : String) : Except OutlineError String :=
  match language.method with
  | .search => ofRules language source
  | .syntactic => .ok (assemble (chunks language source))

/-- The outline of a source in the language that its path stands for. -/
def compressPath (p : Path) (source : String) : Except OutlineError String := do
  compress (← Language.identify p) source

end PromptPack.Outline
