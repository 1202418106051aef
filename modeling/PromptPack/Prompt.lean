import PromptPack.Entry
import PromptPack.Template.Render
/-!
# Prompts

A prompt is a template rendered with the drawn trees, the files and the changes of a packed
project. Without a template of the user's own the built-in one is used.
-/

namespace PromptPack

/-- What a template can refer to. -/
structure PromptContext where
  absoluteCodePath : String := ""
  sourceTrees : String := ""
  files : List FileEntry := []
  gitDiff : String := ""
  gitDiffBranch : String := ""
  gitLogBranch : String := ""
  deriving DecidableEq, Repr

def FileEntry.toData (e : FileEntry) : Data :=
  .record [("code", .text e.code), ("extension", .text e.extension), ("path", .text e.path)]

def PromptContext.toData (c : PromptContext) : Data :=
  .record [("absolute_code_path", .text c.absoluteCodePath),
    ("files", .list (c.files.map FileEntry.toData)),
    ("git_diff", .text c.gitDiff),
    ("git_diff_branch", .text c.gitDiffBranch),
    ("git_log_branch", .text c.gitLogBranch),
    ("source_trees", .text c.sourceTrees)]

/-- A template with the name it goes by. -/
structure PromptTemplate where
  name : String
  source : String
  deriving DecidableEq, Repr

inductive PromptError
  | unreadable (path : Path)
  | malformed (name : String)
  | failed (name : String)
  deriving DecidableEq, Repr

def PromptError.message : PromptError → String
  | .unreadable p => "Failed to read template " ++ p.text
  | .malformed name => "Failed to parse template " ++ name
  | .failed name => "Failed to render template " ++ name

namespace PromptTemplate

/-- A tag in double braces. -/
def tag (inside : String) : String := "\x7b\x7b" ++ inside ++ "\x7d\x7d"

def rule : String := "\x60\x60\x60"

/-- A block that is there only when a value is not empty. -/
def sectionWhen (value title fence : String) : String :=
  tag ("#if " ++ value) ++ "\n" ++ title ++ ":\n\n" ++ rule ++ fence ++ "\n" ++
    tag (" " ++ value ++ " ") ++ "\n" ++ rule ++ "\n\n" ++ tag "/if" ++ "\n"

/-- The text of the built-in template. -/
def builtinSource : String :=
  "Project Path: " ++ tag " absolute_code_path " ++ "\n\nSource Tree:\n\n" ++ rule ++ "\n" ++
    tag " source_trees " ++ "\n" ++ rule ++ "\n\n" ++
    tag "#each files" ++ "\n" ++ tag "#if code" ++ "\n\x60" ++ tag "path" ++ ":\x60\n\n" ++
    tag "code" ++ "\n\n" ++ tag "/if" ++ "\n" ++ tag "/each" ++ "\n" ++
    sectionWhen "git_diff" "Git Diff" "diff" ++
    sectionWhen "git_diff_branch" "Git Diff Between Branches" "diff" ++
    sectionWhen "git_log_branch" "Git Log Between Branches" ""

def builtin : PromptTemplate := ⟨"default", builtinSource⟩

/-- The user's template where a path is given, else the built-in one. -/
def load (fs : FileSystem) (path : Option Path) : Except PromptError PromptTemplate :=
  match path with
  | none => .ok builtin
  | some p =>
    match fs.readText? p with
    | some source => .ok ⟨p.text, source⟩
    | none => .error (.unreadable p)

/-- The prompt of a context. -/
def render (t : PromptTemplate) (c : PromptContext) : Except PromptError String :=
  match Template.parse? t.source with
  | none => .error (.malformed t.name)
  | some nodes =>
    match Template.render t.name nodes c.toData with
    | .ok text => .ok text
    | .error _ => .error (.failed t.name)

end PromptTemplate

end PromptPack
