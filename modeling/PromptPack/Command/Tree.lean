import PromptPack.CommandLine.Arguments
import PromptPack.Listing
import PromptPack.World
/-!
# Showing a source tree
-/

namespace PromptPack.Tree

open CommandLine

/-- The walker of a tree and the patterns that it excludes by. -/
def walker (w : World) (a : TreeArguments) : Except Failure (Walker × List String) := do
  let config ← w.config
  let globs ← (w.excludeGlobs a.patternFile a.noDefaultExcludes).mapError .patternFile
  let globs := globs ++ config.excludes ++ a.excludes
  let base ← (Walker.ofExcludes globs).mapError .glob
  let base ← (base.withIncludes a.includes).mapError .glob
  return ({ base with
    followLinks := a.followLinks || config.followSymlinks
    ignoreFiles := !a.noIgnore }, globs)

/-- What would be scanned. -/
def dryText (a : TreeArguments) (globs : List String) : String :=
  Console.Style.yellow.apply "DRY RUN: Would scan:" ++ "\n  Root: " ++ a.path.text ++
    "\n  Exclude patterns: " ++ toString globs.length ++ "\n"

/-- The drawing of a root. -/
def drawing (w : World) (walker : Walker) (a : TreeArguments) (root : Path) : String :=
  if w.files.isDir root then
    Listing.draw root (walker.walk w.files w.home root) a.excludeFromTree
  else Listing.drawFile root

def run (w : World) (g : GlobalOptions) (a : TreeArguments) : Outcome :=
  match walker w a with
  | .error e => w.failed e
  | .ok (walker, globs) =>
    if g.dryRun then w.printed (if g.quiet then "" else dryText a globs)
    else
      match w.locate a.path with
      | .error e => w.failed e
      | .ok root => w.printed (if g.quiet then "" else drawing w walker a root ++ "\n")

end PromptPack.Tree
