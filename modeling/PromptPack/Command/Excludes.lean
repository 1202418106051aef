import PromptPack.CommandLine.Arguments
import PromptPack.World
/-!
# Showing the exclude patterns
-/

namespace PromptPack.Excludes

open CommandLine

/-- The patterns in force. -/
def globs (w : World) (a : ExcludesArguments) : Except Failure (List String) := do
  let config ← w.config
  let globs ← (w.excludeGlobs a.patternFile a.noDefaultExcludes).mapError .patternFile
  return globs ++ config.excludes

def run (w : World) (g : GlobalOptions) (a : ExcludesArguments) : Outcome :=
  if a.builtin then w.printed Glob.builtinText
  else
    match globs w a with
    | .error e => w.failed e
    | .ok globs =>
      w.printed (if g.quiet then "" else String.join (globs.map (· ++ "\n")))

end PromptPack.Excludes
