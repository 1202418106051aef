import PromptPack.FileSystem
/-!
# Contents of files

What is read from a file for a prompt: its bytes, whether they look binary, and their text.
-/

namespace PromptPack

/-- The number of leading bytes that are looked at to tell binary files. -/
def sniffLength : Nat := 8192

/-- A file is binary when one of its leading bytes is zero. -/
def isBinary (bytes : ByteArray) : Bool := (bytes.toList.take sniffLength).contains 0

/-- Files of more bytes than this are mapped into memory instead of being read. -/
def mappingThreshold : Nat := 1024 * 1024

structure Content where
  bytes : ByteArray
  mapped : Bool

/-- Why a file could not be read. -/
inductive ReadError
  | noMetadata (path : Path)
  /-- A file that is to be mapped cannot be opened. -/
  | unopened (path : Path)
  | unreadable (path : Path)
  deriving DecidableEq, Repr

def ReadError.message : ReadError → String
  | .noMetadata p => "Failed to read metadata for " ++ p.text
  | .unopened p => "Failed to open file " ++ p.text
  | .unreadable p => "Failed to read file " ++ p.text

/-- Reads a file. -/
def FileSystem.readContent (fs : FileSystem) (p : Path) : Except ReadError Content :=
  match fs.place p with
  | some ⟨loc, some (.file bytes)⟩ =>
    let mapped : Bool := mappingThreshold < bytes.size
    if fs.opens loc then .ok ⟨bytes, mapped⟩
    else .error (if mapped then .unopened p else .unreadable p)
  | some ⟨_, some _⟩ => .error (.unreadable p)
  | _ => .error (.noMetadata p)

def Content.isBinary (c : Content) : Bool := PromptPack.isBinary c.bytes

/-- The text of the content; broken sequences are replaced. -/
def Content.text (c : Content) : String := Text.decodeLossy c.bytes

end PromptPack
