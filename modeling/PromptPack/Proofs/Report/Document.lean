import PromptPack.Proofs.Yields
import PromptPack.Proofs.Json.Printing
import PromptPack.Proofs.Json.Grammar
import PromptPack.Report
/-!
# The document of a prompt says what was packed

A reader of the JSON document takes the fields by their names. What it gets by the grammar of JSON is the prompt, its
count, the models, the files in their order and what was left out, and nothing else can be read from the text
(`document_decodes`).
-/

namespace PromptPack

namespace Data

def text? : Data → Option String
  | .text s => some s
  | _ => none

def count? : Data → Option Nat
  | .int (.ofNat n) => some n
  | _ => none

def items? : Data → Option (List Data)
  | .list ds => some ds
  | _ => none

def fields? : Data → Option (List (String × Data))
  | .record fs => some fs
  | _ => none

end Data

/-! ## Reading the document -/

def FileEntry.ofRecord? (d : Data) : Option FileEntry := do
  let path ← (← d.get? "path").text?
  let extension ← (← d.get? "extension").text?
  let code ← (← d.get? "code").text?
  return { path, extension, code }

def Counts.ofRecord? (d : Data) : Option Counts := do
  (← d.fields?).mapM fun (name, d) => d.count?.map (name, ·)

def Omissions.ofRecord? (d : Data) : Option Omissions := do
  let directories ← Counts.ofRecord? (← d.get? "directories")
  let extensions ← Counts.ofRecord? (← d.get? "extensions")
  let totalFiles ← (← d.get? "total_files").count?
  let files ← (← (← d.get? "files").items?).mapM Data.text?
  return { directories, extensions, totalFiles, files }

/-- What the document of a prompt tells. -/
structure Document where
  prompt : String
  tokenCount : Nat
  models : String
  files : List FileEntry
  omissions : Omissions
  deriving DecidableEq, Repr

def Document.ofData? (d : Data) : Option Document := do
  let prompt ← (← d.get? "prompt").text?
  let tokenCount ← (← d.get? "token_count").count?
  let models ← (← d.get? "model_info").text?
  let files ← (← (← d.get? "files").items?).mapM FileEntry.ofRecord?
  let omissions ← Omissions.ofRecord? (← d.get? "excluded")
  return { prompt, tokenCount, models, files, omissions }

/-! ## Reading what was written -/

theorem FileEntry.ofRecord?_toRecord (e : FileEntry) : FileEntry.ofRecord? e.toRecord = some e := rfl

theorem Counts.ofRecord?_toRecord (c : Counts) : Counts.ofRecord? c.toRecord = some c := by
  simp only [Counts.ofRecord?, Counts.toRecord, Data.fields?, Option.bind_eq_bind, Option.bind_some]
  rw [mapM_map_eq_some]
  exact fun _ => rfl

theorem Omissions.ofRecord?_toRecord (o : Omissions) : Omissions.ofRecord? o.toRecord = some o := by
  have hfiles : (o.files.map Data.text).mapM Data.text? = some o.files := by
    rw [mapM_map_eq_some]
    exact fun _ => rfl
  simp [Omissions.ofRecord?, Omissions.toRecord, Data.get?, Data.ofTexts, Data.items?, Data.count?,
    Counts.ofRecord?_toRecord, hfiles]

theorem Document.ofData?_documentData (counter : TokenCounter) (prompt : String) (files : List FileEntry)
    (o : Omissions) : Document.ofData? (documentData counter prompt files o) =
      some ⟨prompt, counter.count prompt, counter.encoding.models, files, o⟩ := by
  have hfiles : (files.map FileEntry.toRecord).mapM FileEntry.ofRecord? = some files :=
    mapM_map_eq_some FileEntry.ofRecord?_toRecord files
  simp [Document.ofData?, documentData, Data.get?, Data.text?, Data.items?, Data.count?,
    Omissions.ofRecord?_toRecord, hfiles]

/-! ## The text -/

theorem Counts.exact (c : Counts) : Json.Exact c.toRecord := by
  refine .record fun f hf => ?_
  obtain ⟨_, -, rfl⟩ := List.mem_map.mp hf
  exact .int _

theorem Omissions.exact (o : Omissions) : Json.Exact o.toRecord := by
  have hfiles : Json.Exact (.ofTexts o.files) := by
    refine .list fun d hd => ?_
    obtain ⟨s, -, rfl⟩ := List.mem_map.mp hd
    exact .text s
  refine .record ?_
  simp [Counts.exact, hfiles, Json.Exact.int]

theorem FileEntry.exact (e : FileEntry) : Json.Exact e.toRecord := by
  refine .record ?_
  simp [Json.Exact.text]

/-- There are no doubles in a document. -/
theorem exact_documentData (counter : TokenCounter) (prompt : String) (files : List FileEntry) (o : Omissions) :
    Json.Exact (documentData counter prompt files o) := by
  have hfiles : Json.Exact (.list (files.map FileEntry.toRecord)) := by
    refine .list fun d hd => ?_
    obtain ⟨e, -, rfl⟩ := List.mem_map.mp hd
    exact e.exact
  refine .record ?_
  simp [hfiles, Omissions.exact, Json.Exact.text, Json.Exact.int]

/-- The document of a prompt is JSON that stands for one piece of data only, from which the prompt, its count, the
models, the files and all that was left out are read back as they were. -/
theorem document_decodes (counter : TokenCounter) (prompt : String) (files : List FileEntry) (o : Omissions) :
    ∃ d, (∀ d', Json.Denotes (document counter prompt files o) d' ↔ d' = d) ∧
      Document.ofData? d = some ⟨prompt, counter.count prompt, counter.encoding.models, files, o⟩ := by
  have hdenotes := Json.denotes_pretty (exact_documentData counter prompt files o)
  refine ⟨documentData counter prompt files o, fun d' => ⟨fun h => h.unique hdenotes, ?_⟩,
    Document.ofData?_documentData counter prompt files o⟩
  rintro rfl
  exact hdenotes

end PromptPack
