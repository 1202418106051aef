import PromptPack.CommandLine.Invocation
import PromptPack.World
/-!
# Completions for shells

Scripts that let a shell complete the names of the commands.
-/

namespace PromptPack.Completions

open CommandLine

def programName : String := "ingest"

def commandNames : List String :=
  ["pack", "compress", "tree", "excludes", "template", "init", "completions", helpWord]

/-- The name of the file that a shell looks for. -/
def fileName : Shell → String
  | .bash => programName ++ ".bash"
  | .zsh => "_" ++ programName
  | .fish => programName ++ ".fish"
  | .powerShell => "_" ++ programName ++ ".ps1"
  | .elvish => programName ++ ".elv"

/-- A script for a shell that completes the names of the commands. -/
def script (shell : Shell) : String :=
  let names := String.intercalate " " commandNames
  match shell with
  | .bash => "complete -W '" ++ names ++ "' " ++ programName ++ "\n"
  | .zsh => "#compdef " ++ programName ++ "\n_arguments '1:command:(" ++ names ++ ")'\n"
  | .fish => "complete -c " ++ programName ++ " -n __fish_use_subcommand -a '" ++ names ++ "'\n"
  | .powerShell =>
    "Register-ArgumentCompleter -Native -CommandName " ++ programName ++ " -ScriptBlock \x7b\n" ++
      String.join (commandNames.map fun n => "    '" ++ n ++ "'\n") ++ "\x7d\n"
  | .elvish =>
    "set edit:completion:arg-completer[" ++ programName ++ "] = \x7b|@words| put " ++ names ++
      " \x7d\n"

/-- Writes a script into a directory, which is made when it is missing. -/
def write (w : World) (shell : Shell) (dir : Path) : Outcome :=
  match w.files.makeDirs dir with
  | (fs, false) => { result := .error (.unmade dir), files := fs }
  | (fs, true) =>
    let p := dir.join ⟨fileName shell⟩
    match fs.writeFile? p (w.scripts shell).toUTF8 with
    | some fs => { result := .ok (), err := "Wrote completion to " ++ p.text ++ "\n", files := fs }
    | none => { result := .error .completionUnwritten, files := fs }

def run (w : World) (a : CompletionsArguments) : Outcome :=
  if a.toOutput then w.printed (w.scripts a.shell)
  else
    match a.outDir with
    | none => w.failed .nowhereToComplete
    | some dir => write w a.shell dir

end PromptPack.Completions
