import PromptPack.Command.Run
import PromptPack.Manifest
/-!
# The command line

Runs the command line in the world that standard input describes. The exit code tells a success
from a failed run and from words that are no command line.
-/

open PromptPack PromptPack.CommandLine

/-- What is said about words that are no command line. -/
def UsageError.notice : UsageError → String
  | .unknownArgument => "error: unexpected argument"
  | .argumentConflict => "error: an argument cannot be used multiple times"
  | .tooManyValues => "error: unexpected value for an argument"
  | .invalidValue => "error: a value is missing or invalid"
  | .missingRequiredArgument => "error: a required argument was not provided"
  | .invalidSubcommand => "error: unrecognized subcommand"
  | .missingSubcommand => "error: a subcommand is required"
  | .helpWanted => "Usage: ingest [OPTIONS] <COMMAND>"
  | .helpForWantOfArguments => "Usage: ingest [OPTIONS] <COMMAND>"
  | .versionWanted => "ingest"

/-- Whether the words asked for no more than a notice. -/
def UsageError.isRequest : UsageError → Bool
  | .helpWanted => true
  | .versionWanted => true
  | _ => false

partial def readAll (input : IO.FS.Stream) (lines : String) : IO String := do
  let line ← input.getLine
  if line.isEmpty then return lines else readAll input (lines ++ line)

def main (words : List String) : IO UInt32 := do
  match Manifest.world? (← readAll (← IO.getStdin) "") with
  | none =>
    IO.eprintln "error: standard input describes no world"
    return 2
  | some world =>
    match runWords world words with
    | .error e =>
      if UsageError.isRequest e then
        IO.println (UsageError.notice e)
        return 0
      else
        IO.eprintln (UsageError.notice e)
        return 2
    | .ok outcome =>
      IO.print outcome.out
      IO.eprint outcome.err
      match outcome.result with
      | .ok () => return 0
      | .error e =>
        IO.eprintln ("Error: " ++ e.message)
        return 1
