import PromptPack.Config
import PromptPack.Exclusion
import PromptPack.Glob.Pattern
import PromptPack.Outline.Language
import PromptPack.Prompt
import PromptPack.Revision.BranchPair
import PromptPack.Revision.Query
/-!
# Failures

Why a run of the program can fail, and what it says then.
-/

namespace PromptPack

inductive Failure
  | configuration (cause : ConfigError)
  /-- The exclude patterns of a pack could not be read. -/
  | excludes
  | patternFile (cause : Exclusion.Unreadable)
  /-- An exclude pattern of a pack is no glob. -/
  | excludeGlob
  /-- An include pattern of a pack is no glob. -/
  | includeGlob
  | glob (cause : Glob.GlobError)
  | prompt (cause : PromptError)
  | branchPair
  | revision (cause : RevisionError)
  | outline (cause : Outline.OutlineError)
  | uncompressed (path : Path)
  | unresolved (path : Path)
  | unreadable (path : Path)
  /-- A directory could not be made. -/
  | unmade (path : Path)
  | unwritten (path : Path)
  | configExists (path : Path)
  | configUnwritten
  | nowhereToComplete
  | completionUnwritten

def Failure.message : Failure → String
  | .configuration e => e.message
  | .excludes => "Failed to read exclude patterns"
  | .patternFile e => e.message
  | .excludeGlob => "Invalid exclude pattern"
  | .includeGlob => "Invalid include pattern"
  | .glob e => e.message
  | .prompt e => e.message
  | .branchPair => BranchPair.misnamed
  | .revision e => e.message
  | .outline e => e.message
  | .uncompressed p => "Failed to compress " ++ p.text
  | .unresolved p => "Failed to resolve " ++ p.text
  | .unreadable p => "Failed to read " ++ p.text
  | .unmade p => "Failed to create " ++ p.text
  | .unwritten p => "Failed to write to " ++ p.text
  | .configExists p =>
    "Config file already exists at " ++ p.text ++ ". Use --force to overwrite."
  | .configUnwritten => "Failed to write config file"
  | .nowhereToComplete => "--out-dir is required unless --stdout is set"
  | .completionUnwritten => "Failed to generate completion file"

end PromptPack
