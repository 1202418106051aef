import PromptPack.Data.Json
import PromptPack.Entry
import PromptPack.Omissions
import PromptPack.Text.Grouped
import PromptPack.Tokens.Counter
/-!
# Reports on a prompt

The largest files with their token counts, and the whole prompt with its files and with what was
left out as a JSON document.
-/

namespace PromptPack

/-- No more files than this are reported. -/
def reportedFiles : Nat := 5

/-- The first line of the report. -/
def reportHeader : String := "Top 5 largest files (by estimated token count):\n"

/-- A line of the report. -/
def reportLine (counter : TokenCounter) (e : FileEntry) (place : Nat) : String :=
  toString (place + 1) ++ ". " ++ e.path ++ " (" ++ Text.grouped (counter.count e.code) ++
    " tokens)\n"

/-- The largest files by their code, with token counts. -/
def report (counter : TokenCounter) (files : List FileEntry) : String :=
  reportHeader ++ String.join (((FileEntry.largest files reportedFiles).zipIdx).map fun (e, place) =>
    reportLine counter e place)

/-! ## The document -/

/-- A file as it stands in the document. -/
def FileEntry.toRecord (e : FileEntry) : Data :=
  .record [("path", .text e.path), ("extension", .text e.extension), ("code", .text e.code)]

def Counts.toRecord (c : Counts) : Data := .record (c.map fun (name, n) => (name, .int n))

def Omissions.toRecord (o : Omissions) : Data :=
  .record [("directories", o.directories.toRecord), ("extensions", o.extensions.toRecord),
    ("total_files", .int o.totalFiles), ("files", .ofTexts o.files)]

/-- A prompt with all that is told about it. -/
def documentData (counter : TokenCounter) (prompt : String) (files : List FileEntry)
    (omissions : Omissions) : Data :=
  .record [("prompt", .text prompt), ("token_count", .int (counter.count prompt)),
    ("model_info", .text counter.encoding.models), ("files", .list (files.map FileEntry.toRecord)),
    ("excluded", omissions.toRecord)]

/-- The JSON document of a prompt. -/
def document (counter : TokenCounter) (prompt : String) (files : List FileEntry)
    (omissions : Omissions) : String :=
  Json.pretty (documentData counter prompt files omissions)

end PromptPack
