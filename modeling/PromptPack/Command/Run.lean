import PromptPack.Command.Completions
import PromptPack.Command.Compress
import PromptPack.Command.Excludes
import PromptPack.Command.Init
import PromptPack.Command.Pack
import PromptPack.Command.Tree
/-!
# Running a command line
-/

namespace PromptPack

open CommandLine

/-- What a parsed command line leaves behind in a world. -/
def CommandLine.Invocation.run (i : Invocation) (w : World) : Outcome :=
  match i.command with
  | .pack a => Pack.run w i.options a
  | .compress a => Compress.run w i.options a
  | .tree a => Tree.run w i.options a
  | .excludes a => Excludes.run w i.options a
  | .template => w.printed (if i.options.quiet then "" else PromptTemplate.builtin.source)
  | .init a => Init.run w i.options a
  | .completions a => Completions.run w a

/-- Reads a command line and runs it. -/
def runWords (w : World) (words : List String) : Except UsageError Outcome :=
  (Invocation.parse words).map fun i => i.run w

end PromptPack
