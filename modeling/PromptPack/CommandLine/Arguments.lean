import PromptPack.CommandLine.Grammar
import PromptPack.Delivery
/-!
# The arguments of the commands

What each command can be told, with the options that tell it.
-/

namespace PromptPack.CommandLine

/-- A path in the place of a value; an empty one is no path. -/
def path? (s : String) : Option Path := if s.isEmpty then none else some ⟨s⟩

/-- Asks for help. -/
def helpRule {σ : Type} : OptionRule σ := ⟨"help", some 'h', .help⟩

structure PackArguments where
  /-- The working directory, when none is given. -/
  paths : List Path := []
  includes : List String := []
  excludes : List String := []
  includePriority : Bool := false
  excludeFromTree : Bool := false
  patternFile : Option Path := none
  noDefaultExcludes : Bool := false
  followLinks : Bool := false
  noIgnore : Bool := false
  compress : Bool := false
  lineNumbers : Bool := false
  noFence : Bool := false
  relativePaths : Bool := false
  diff : Bool := false
  diffBranches : Option String := none
  logBranches : Option String := none
  template : Option Path := none
  encoding : Option String := none
  noTokens : Bool := false
  noCorrection : Bool := false
  noClipboard : Bool := false
  output : Option Path := none
  json : Bool := false
  report : Bool := false

/-- The paths to pack. -/
def PackArguments.roots (a : PackArguments) : List Path :=
  if a.paths.isEmpty then [⟨"."⟩] else a.paths

def packGrammar : Grammar PackArguments where
  options := [
    ⟨"include", some 'i', .values fun a vs => { a with includes := a.includes ++ vs }⟩,
    ⟨"exclude", some 'e', .values fun a vs => { a with excludes := a.excludes ++ vs }⟩,
    ⟨"include-priority", none, .switch fun a => { a with includePriority := true }⟩,
    ⟨"exclude-from-tree", none, .switch fun a => { a with excludeFromTree := true }⟩,
    ⟨"pattern-exclude", none, .value fun a v => (path? v).map fun p =>
      { a with patternFile := some p }⟩,
    ⟨"no-default-excludes", none, .switch fun a => { a with noDefaultExcludes := true }⟩,
    ⟨"follow-symlinks", none, .switch fun a => { a with followLinks := true }⟩,
    ⟨"no-ignore", none, .switch fun a => { a with noIgnore := true }⟩,
    ⟨"compress", none, .switch fun a => { a with compress := true }⟩,
    ⟨"line-number", some 'l', .switch fun a => { a with lineNumbers := true }⟩,
    ⟨"no-codeblock", none, .switch fun a => { a with noFence := true }⟩,
    ⟨"relative-paths", none, .switch fun a => { a with relativePaths := true }⟩,
    ⟨"diff", some 'd', .switch fun a => { a with diff := true }⟩,
    ⟨"git-diff-branch", none, .value fun a v => some { a with diffBranches := some v }⟩,
    ⟨"git-log-branch", none, .value fun a v => some { a with logBranches := some v }⟩,
    ⟨"template", some 't', .value fun a v => (path? v).map fun p => { a with template := some p }⟩,
    ⟨"encoding", some 'c', .value fun a v => some { a with encoding := some v }⟩,
    ⟨"no-tokens", none, .switch fun a => { a with noTokens := true }⟩,
    ⟨"no-correction", none, .switch fun a => { a with noCorrection := true }⟩,
    ⟨"no-clipboard", some 'n', .switch fun a => { a with noClipboard := true }⟩,
    ⟨"output", some 'o', .value fun a v => (path? v).map fun p => { a with output := some p }⟩,
    ⟨"json", none, .switch fun a => { a with json := true }⟩,
    ⟨"report", none, .switch fun a => { a with report := true }⟩,
    helpRule]
  operand := some {
    many := true
    required := false
    apply := fun a v => (path? v).map fun p => { a with paths := a.paths ++ [p] } }

structure CompressArguments where
  files : List Path := []
  /-- The language to use in place of the one that the extension means. -/
  language : Option String := none

def compressGrammar : Grammar CompressArguments where
  options := [
    ⟨"language", none, .value fun a v => some { a with language := some v }⟩,
    helpRule]
  operand := some {
    many := true
    required := true
    apply := fun a v => (path? v).map fun p => { a with files := a.files ++ [p] } }

structure TreeArguments where
  path : Path := ⟨"."⟩
  includes : List String := []
  excludes : List String := []
  excludeFromTree : Bool := false
  patternFile : Option Path := none
  noDefaultExcludes : Bool := false
  followLinks : Bool := false
  noIgnore : Bool := false

def treeGrammar : Grammar TreeArguments where
  options := [
    ⟨"include", some 'i', .values fun a vs => { a with includes := a.includes ++ vs }⟩,
    ⟨"exclude", some 'e', .values fun a vs => { a with excludes := a.excludes ++ vs }⟩,
    ⟨"exclude-from-tree", none, .switch fun a => { a with excludeFromTree := true }⟩,
    ⟨"pattern-exclude", none, .value fun a v => (path? v).map fun p =>
      { a with patternFile := some p }⟩,
    ⟨"no-default-excludes", none, .switch fun a => { a with noDefaultExcludes := true }⟩,
    ⟨"follow-symlinks", none, .switch fun a => { a with followLinks := true }⟩,
    ⟨"no-ignore", none, .switch fun a => { a with noIgnore := true }⟩,
    helpRule]
  operand := some {
    many := false
    required := false
    apply := fun a v => (path? v).map fun p => { a with path := p } }

structure ExcludesArguments where
  /-- Print the built-in list as it is. -/
  builtin : Bool := false
  patternFile : Option Path := none
  noDefaultExcludes : Bool := false

def excludesGrammar : Grammar ExcludesArguments where
  options := [
    ⟨"builtin", none, .switch fun a => { a with builtin := true }⟩,
    ⟨"pattern-exclude", none, .value fun a v => (path? v).map fun p =>
      { a with patternFile := some p }⟩,
    ⟨"no-default-excludes", none, .switch fun a => { a with noDefaultExcludes := true }⟩,
    helpRule]
  operand := none

/-- The command without arguments of its own. -/
def templateGrammar : Grammar Unit where
  options := [helpRule]
  operand := none

structure InitArguments where
  path : Path := ⟨"."⟩
  force : Bool := false
  /-- Write the user's own file instead. -/
  userWide : Bool := false

def initGrammar : Grammar InitArguments where
  options := [
    ⟨"force", none, .switch fun a => { a with force := true }⟩,
    ⟨"global", none, .switch fun a => { a with userWide := true }⟩,
    helpRule]
  operand := some {
    many := false
    required := false
    apply := fun a v => (path? v).map fun p => { a with path := p } }

inductive Shell
  | bash
  | zsh
  | fish
  | powerShell
  | elvish
  deriving DecidableEq, Repr

def Shell.all : List Shell := [.bash, .zsh, .fish, .powerShell, .elvish]

def Shell.name : Shell → String
  | .bash => "bash"
  | .zsh => "zsh"
  | .fish => "fish"
  | .powerShell => "power-shell"
  | .elvish => "elvish"

def Shell.ofName? (name : String) : Option Shell := Shell.all.find? fun s => s.name == name

structure CompletionsArguments where
  shell : Shell := .bash
  outDir : Option Path := none
  toOutput : Bool := false

def completionsGrammar : Grammar CompletionsArguments where
  options := [
    ⟨"out-dir", none, .value fun a v => (path? v).map fun p => { a with outDir := some p }⟩,
    ⟨"stdout", none, .switch fun a => { a with toOutput := true }⟩,
    helpRule]
  operand := some {
    many := false
    required := true
    apply := fun a v => (Shell.ofName? v).map fun s => { a with shell := s } }

/-- The options of every command. -/
def globalRules : List (OptionRule GlobalOptions) := [
  ⟨"no-color", none, .switch fun g => { g with noColor := true }⟩,
  ⟨"quiet", none, .switch fun g => { g with quiet := true }⟩,
  ⟨"verbose", some 'v', .switch fun g => { g with verbose := true }⟩,
  ⟨"dry-run", none, .switch fun g => { g with dryRun := true }⟩]

end PromptPack.CommandLine
