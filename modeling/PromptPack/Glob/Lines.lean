import PromptPack.Glob.Builtin
import PromptPack.Text.Blank
/-!
# Pattern files

A pattern file holds one glob a line. Blanks around a glob do not count; blank lines and lines
that begin with a number sign are skipped.
-/

namespace PromptPack.Glob

open Text

/-- Whether a trimmed line holds a glob. -/
def isGlobLine (line : String) : Bool := !line.isEmpty && !startsWith line "#"

/-- The globs of a pattern file. -/
def parseLines (text : String) : List String := ((lines text).map trim).filter isGlobLine

/-- The globs that are excluded unless the user says otherwise. -/
def builtin : List String := parseLines builtinText

end PromptPack.Glob
