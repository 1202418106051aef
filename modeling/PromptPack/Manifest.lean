import PromptPack.Command.Completions
import PromptPack.Data.Json
import PromptPack.Tokens.Vocabulary
/-!
# Described worlds

A world can be described by a JSON document: the working directory, the home directory, the
texts of files by their paths, and the environment. What the document leaves out is empty.
-/

namespace PromptPack.Manifest

def fieldsOf (d : Data) (key : String) : List (String × Data) :=
  match d.get? key with
  | some (.record fields) => fields
  | _ => []

def textOf (d : Data) (key dflt : String) : String :=
  match d.get? key with
  | some (.text s) => s
  | _ => dflt

/-- The fields that hold texts. -/
def textsOf (d : Data) (key : String) : List (String × String) :=
  (fieldsOf d key).filterMap fun (k, v) =>
    match v with
    | .text s => some (k, s)
    | _ => none

/-- A file system with a working directory and nothing else. -/
def emptyAt (cwd : Path) : FileSystem :=
  let made := (({ items := [], cwd := [] } : FileSystem).makeDirs cwd).1
  { made with cwd := (made.locate? cwd).getD [] }

/-- Adds a file and the directories above it, as far as that works out. -/
def addFile (fs : FileSystem) (path text : String) : FileSystem :=
  (writeOutput fs ⟨path⟩ text).1

/-- The world that a document describes. -/
def toWorld (d : Data) : World :=
  let start := emptyAt ⟨textOf d "directory" "/work"⟩
  let files := (textsOf d "files").foldl (fun fs (path, text) => addFile fs path text) start
  { files := files
    home := ⟨textOf d "home" "/home"⟩
    environment := textsOf d "environment"
    encoder := Tokens.encode
    scripts := Completions.script }

/-- Reads the document of a world; without one the world is empty. -/
def world? (text : String) : Option World :=
  if (Text.trim text).isEmpty then some (toWorld (.record []))
  else (Json.parse? text).map toWorld

end PromptPack.Manifest
