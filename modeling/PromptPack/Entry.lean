import PromptPack.Content
import PromptPack.Outline.Compress
import PromptPack.Text.Fence
/-!
# The files of a prompt

A file enters the prompt under a path, with its extension and its code: its outline where one can
be made, else its text, numbered and fenced as asked.
-/

namespace PromptPack

/-- One file as it appears in the prompt. -/
structure FileEntry where
  path : String
  /-- With its dot, or empty. -/
  extension : String
  code : String
  deriving DecidableEq, Repr

/-- How files are dressed up. -/
structure FileFormat where
  lineNumbers : Bool := false
  noFence : Bool := false
  relativePaths : Bool := false
  deriving DecidableEq, Repr

/-- A way to make outlines from the path and the text of a file. -/
abbrev Outliner := Path → String → Except Outline.OutlineError String

namespace FileEntry

/-- The code of a file that is not outlined. -/
def plainCode (format : FileFormat) (extension text : String) : String :=
  let numbered := if format.lineNumbers then Text.numberLines text else text
  if format.noFence then numbered else Text.fence numbered extension

/-- The path that is shown: as reached, or below the name of the base directory. -/
def shownPath (path rel base : Path) (relative : Bool) : String :=
  if !relative then path.text
  else
    match base.fileName? with
    | some name => ((⟨name⟩ : Path).join rel).text
    | none => rel.text

/-- The entry of a file with the given content; binary files have none. -/
def ofContent (path rel base : Path) (format : FileFormat) (outliner : Option Outliner) (c : Content) :
    Option FileEntry :=
  if c.isBinary then none
  else
    let text := c.text
    let extension := path.dottedExtension
    let outline := outliner.bind fun f => (f path text).toOption
    some {
      path := shownPath path rel base format.relativePaths
      extension := extension
      code := outline.getD (plainCode format extension text) }

/-- Reads a file and makes its entry. -/
def ofFile (fs : FileSystem) (path rel base : Path) (format : FileFormat)
    (outliner : Option Outliner) : Except ReadError (Option FileEntry) :=
  (fs.readContent path).map (ofContent path rel base format outliner)

/-- The entries with the most code, in bytes, the largest first. -/
def largest (entries : List FileEntry) (limit : Nat) : List FileEntry :=
  (entries.mergeSort fun a b => b.code.utf8ByteSize ≤ a.code.utf8ByteSize).take limit

end FileEntry

end PromptPack
