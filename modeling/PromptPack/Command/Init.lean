import PromptPack.CommandLine.Arguments
import PromptPack.World
/-!
# Starting a configuration file
-/

namespace PromptPack.Init

open CommandLine

/-- The file to write. -/
def target (w : World) (a : InitArguments) : Path :=
  if a.userWide then Config.userFile w.home else a.path.join ⟨Config.fileName⟩

/-- Writes the defaults to a file and makes the directories above it. -/
def write (fs : FileSystem) (p : Path) : FileSystem × Except Failure Unit :=
  match makeParents fs p with
  | (fs, .error e) => (fs, .error e)
  | (fs, .ok ()) =>
    match fs.writeFile? p Config.defaultsText.toUTF8 with
    | some fs => (fs, .ok ())
    | none => (fs, .error .configUnwritten)

def run (w : World) (g : GlobalOptions) (a : InitArguments) : Outcome :=
  let p := target w a
  let say (message : String) : String := if g.quiet then "" else message ++ p.text ++ "\n"
  if w.files.exists? p && !a.force then w.failed (.configExists p)
  else if g.dryRun then w.printed (say "Would create config file at ")
  else
    match write w.files p with
    | (fs, .error e) => { result := .error e, files := fs }
    | (fs, .ok ()) => { result := .ok (), out := say "Created config file at ", files := fs }

end PromptPack.Init
