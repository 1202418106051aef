import PromptPack.CommandLine.Arguments
/-!
# The world of a run

All that a run of the program can see: the files, the user's home, the environment, the
repositories, the clipboard, how texts are encoded, and what shells need to complete its commands.
-/

namespace PromptPack

structure World where
  files : FileSystem
  /-- The user's home directory. -/
  home : Path
  environment : List (String × String) := []
  repositories : Repositories := []
  clipboard : Clipboard := .broken "Failed to access clipboard"
  encoder : Encoding → Encoder
  /-- The scripts by which shells complete the names of the commands. -/
  scripts : CommandLine.Shell → String

namespace World

/-- Where the configuration is looked for, the least important file first. -/
def configPaths (w : World) : List Path := [Config.userFile w.home, ⟨Config.fileName⟩]

/-- The configuration in force. -/
def config (w : World) : Except Failure Config :=
  (Config.load w.files w.configPaths w.environment).mapError .configuration

/-- The globs that exclude files, but for those of the configuration and the command line. -/
def excludeGlobs (w : World) (file : Option Path) (noDefaults : Bool) :
    Except Exclusion.Unreadable (List String) :=
  Exclusion.resolve w.files file noDefaults (some (Exclusion.userDirectory w.home))

/-- The absolute path without links of an argument. -/
def locate (w : World) (p : Path) : Except Failure Path :=
  match w.files.canonical? p with
  | some root => .ok root
  | none => .error (.unresolved p)

/-- The outcome of a run that failed before it printed or wrote anything but notes. -/
def failed (w : World) (e : Failure) (notes : String := "") : Outcome where
  result := .error e
  err := notes
  files := w.files

/-- The outcome of a run that only prints. -/
def printed (w : World) (out : String) : Outcome where
  result := .ok ()
  out := out
  files := w.files

end World

end PromptPack
