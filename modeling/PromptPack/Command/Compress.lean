import PromptPack.CommandLine.Arguments
import PromptPack.Packing
import PromptPack.World
/-!
# Printing outlines

The outlines of files, one after the other. A directory stands for the files below it that have a
language. Of more than one file each has a line with its path before its outline.
-/

namespace PromptPack.Compress

open CommandLine Outline

/-- Whether the language of a path is known. -/
def hasLanguage (p : Path) : Bool := (Language.identify p).toOption.isSome

/-- The files that an input stands for; with a language given every file below a directory. -/
def expand (w : World) (walker : Walker) (forced : Bool) (input : Path) : List Path :=
  if w.files.isDir input then
    (walker.walkFiles w.files w.home input).filter fun p => forced || hasLanguage p
  else [input]

/-- The outline of a file. -/
def outline (w : World) (forced : Option Language) (p : Path) : Except Failure String := do
  let content ← (w.files.readContent p).mapError fun _ => .unreadable p
  let language ←
    match forced with
    | some language => .ok language
    | none => (Language.identify p).mapError .outline
  (compress language content.text).mapError fun _ => .uncompressed p

/-- The line before an outline. -/
def header (place : Nat) (p : Path) : String :=
  (if place == 0 then "" else "\n") ++ "==> " ++ p.text ++ " <==\n"

/-- Prints outlines up to the first failure. -/
def printFrom (w : World) (forced : Option Language) (many : Bool) (place : Nat) :
    List Path → String × Except Failure Unit
  | [] => ("", .ok ())
  | p :: rest =>
    match outline w forced p with
    | .error e => ("", .error e)
    | .ok text =>
      let (more, result) := printFrom w forced many (place + 1) rest
      ((if many then header place p else "") ++ text ++ more, result)

/-- The language that was asked for. -/
def forcedLanguage (name : Option String) : Except Failure (Option Language) :=
  match name with
  | none => .ok none
  | some name => ((Language.ofName name).map some).mapError .outline

/-- The outlines of files that are no directories. -/
def printFiles (w : World) (forced : Option Language) (files : List Path) :
    String × Except Failure Unit :=
  printFrom w forced (1 < files.length) 0 files

def run (w : World) (g : GlobalOptions) (a : CompressArguments) : Outcome :=
  match forcedLanguage a.language with
  | .error e => w.failed e
  | .ok forced =>
    match Walker.ofExcludes Glob.builtin with
    | .error e => w.failed (.glob e)
    | .ok walker =>
      let files := a.files.flatMap (expand w walker forced.isSome)
      let (out, result) := printFiles w forced files
      { result := result, out := if g.quiet then "" else out, files := w.files }

end PromptPack.Compress
