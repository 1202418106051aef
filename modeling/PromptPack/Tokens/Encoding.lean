import PromptPack.Text.Blank
/-!
# Encodings

The families of byte-pair encodings that texts are counted in, with the names they and their
models go by. A name that is not known means the newest family.
-/

namespace PromptPack

inductive Encoding
  | o200k
  | cl100k
  | p50k
  | r50k
  deriving DecidableEq, Repr

namespace Encoding

def all : List Encoding := [.o200k, .cl100k, .p50k, .r50k]

/-- The names of a family and of its models, in small letters. -/
def names : Encoding → List String
  | .o200k => ["o200k", "o200k_base", "gpt-4o", "gpt-4.1", "gpt-4.5"]
  | .cl100k =>
    ["cl100k", "cl100k_base", "llama3", "llama-3", "gpt-4", "gpt-3.5-turbo", "text-ada-002"]
  | .p50k => ["p50k", "p50k_base"]
  | .r50k =>
    ["r50k", "r50k_base", "gpt2", "text-ada-001", "text-curie-001", "text-babbage-001"]

/-- The models for embeddings share the start of their names and one family. -/
def embeddingStart : String := "text-embedding-"

/-- The family that a name means, whatever its case. -/
def ofName (name : String) : Encoding :=
  let lower := Text.lowerAscii name
  match all.find? fun e => e.names.contains lower with
  | some e => e
  | none => if Text.startsWith lower embeddingStart then .cl100k else .o200k

def label : Encoding → String
  | .o200k => "o200k_base"
  | .cl100k => "cl100k_base"
  | .p50k => "p50k_base"
  | .r50k => "r50k_base"

/-- The models that use a family, for human readers. -/
def models : Encoding → String
  | .o200k => "OpenAI gpt-4+, Anthropic Claude Haiku/Sonnet/Opus 3+ models"
  | .cl100k => "Llama3, OpenAI <4o models, text-embedding-ada-002, gpt-4 etc..."
  | .p50k => "OpenAI code models, text-davinci-002, text-davinci-003 etc..."
  | .r50k => "Legacy models like llama2, GPT-3, davinci etc..."

end Encoding

end PromptPack
