import PromptPack.Path
/-!
# Languages that can be outlined

A language is known by its name and by file extensions. Most are read by a grammar; three are
read by ordered search rules.
-/

namespace PromptPack.Outline

open Text

inductive Language
  | go
  | python
  | javascript
  | bash
  | c
  | css
  | html
  | rust
  | java
  | swift
  deriving DecidableEq, Repr

/-- How a language is reduced to its outline. -/
inductive Method
  | syntactic
  | search
  deriving DecidableEq, Repr

/-- Why no outline could be made. -/
inductive OutlineError
  | unsupportedExtension (shown : String)
  | unsupportedLanguage (name : String)
  | noRules (language : Language)
  deriving DecidableEq, Repr

namespace Language

def all : List Language :=
  [go, python, javascript, bash, c, css, html, rust, java, swift]

def name : Language → String
  | go => "go"
  | python => "python"
  | javascript => "javascript"
  | bash => "bash"
  | c => "c"
  | css => "css"
  | html => "html"
  | rust => "rust"
  | java => "java"
  | swift => "swift"

/-- The name as people write it. -/
def title : Language → String
  | go => "Go"
  | python => "Python"
  | javascript => "JavaScript"
  | bash => "Bash"
  | c => "C"
  | css => "CSS"
  | html => "HTML"
  | rust => "Rust"
  | java => "Java"
  | swift => "Swift"

def method : Language → Method
  | html | java | swift => .search
  | _ => .syntactic

/-- What stands in place of a removed body. -/
def placeholder : Language → String
  | go => " \x7b ... \x7d"
  | python | bash => " \x7b ... \x7d # Body removed"
  | _ => " \x7b ... \x7d // Body removed"

/-- The language of files with the given extension, in small letters and without its dot. -/
def ofExtension? : String → Option Language
  | "go" => some go
  | "py" => some python
  | "js" | "jsx" | "mjs" | "cjs" | "ts" | "tsx" => some javascript
  | "sh" | "bash" => some bash
  | "c" | "h" => some c
  | "css" => some css
  | "html" | "htm" => some html
  | "rs" => some rust
  | "java" => some java
  | "swift" => some swift
  | _ => none

/-- The language that the extension of a path stands for, letter case aside. -/
def identify (p : Path) : Except OutlineError Language :=
  let ext := lowerAscii (p.extension?.getD "")
  match ofExtension? ext with
  | some l => .ok l
  | none => .error (.unsupportedExtension (if ext == "" then "" else "." ++ ext))

/-- The language of the given name, letter case aside. -/
def ofName (name : String) : Except OutlineError Language :=
  match all.find? (·.name == lowerAscii name) with
  | some l => .ok l
  | none => .error (.unsupportedLanguage name)

end Language

def OutlineError.message : OutlineError → String
  | .unsupportedExtension shown => "unsupported file extension: " ++ shown
  | .unsupportedLanguage name => "unsupported language: " ++ name
  | .noRules language => "no extraction patterns for language: " ++ language.name

end PromptPack.Outline
