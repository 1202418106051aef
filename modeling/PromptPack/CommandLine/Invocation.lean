import PromptPack.CommandLine.Arguments
/-!
# Invocations

A whole command line: the options of every command, which can stand before the command and behind
it, and the command with its own arguments.
-/

namespace PromptPack.CommandLine

inductive Command
  | pack (arguments : PackArguments)
  | compress (arguments : CompressArguments)
  | tree (arguments : TreeArguments)
  | excludes (arguments : ExcludesArguments)
  | template
  | init (arguments : InitArguments)
  | completions (arguments : CompletionsArguments)

structure Invocation where
  options : GlobalOptions
  command : Command

/-- What stands before the command. -/
def rootGrammar : Grammar GlobalOptions where
  options := globalRules ++ [helpRule, ⟨"version", some 'V', .version⟩]
  operand := none

/-- Options count wherever they stand. -/
def GlobalOptions.or (a b : GlobalOptions) : GlobalOptions where
  quiet := a.quiet || b.quiet
  noColor := a.noColor || b.noColor
  verbose := a.verbose || b.verbose
  dryRun := a.dryRun || b.dryRun

/-- Reads the arguments of a command along with the options of every command. -/
def readWith {σ : Type} (g : Grammar σ) (start : σ) (make : σ → Command) (words : List String)
    (before : GlobalOptions) : Except UsageError Invocation := do
  let (arguments, options) ← (g.withOptions globalRules).read (start, {}) words
  return ⟨GlobalOptions.or before options, make arguments⟩

/-- A command by its name, as what reads the words behind it. -/
def commandNamed? (name : String) :
    Option (List String → GlobalOptions → Except UsageError Invocation) :=
  match name with
  | "pack" => some (readWith packGrammar {} .pack)
  | "compress" => some (readWith compressGrammar {} .compress)
  | "tree" => some (readWith treeGrammar {} .tree)
  | "excludes" => some (readWith excludesGrammar {} .excludes)
  | "template" => some (readWith templateGrammar () fun _ => .template)
  | "init" => some (readWith initGrammar {} .init)
  | "completions" => some (readWith completionsGrammar {} .completions)
  | _ => none

/-- The word that asks for help on the command behind it. -/
def helpWord : String := "help"

def isCommand (word : String) : Bool := (commandNamed? word).isSome || word == helpWord

/-- Asks for help, on a command when one is named. -/
def readHelp : List String → Except UsageError Invocation
  | [] => .error .helpWanted
  | [name] => .error (if isCommand name then .helpWanted else .invalidSubcommand)
  | _ :: _ :: _ => .error .invalidSubcommand

/-- Reads what stands before the command and then the command. -/
def readFrom (r : Reading GlobalOptions) : List String → Except UsageError Invocation
  | [] =>
    .error (if r.seen.isEmpty then .helpForWantOfArguments else .missingSubcommand)
  | w :: rest =>
    if r.literal then
      .error (if isCommand w then .unknownArgument else .invalidSubcommand)
    else if Reading.isOption w then do
      readFrom (← r.word rootGrammar w) rest
    else if w == helpWord then readHelp rest
    else
      match commandNamed? w with
      | some read => read rest r.settings
      | none => .error .invalidSubcommand

/-- Reads a command line. -/
def Invocation.parse (words : List String) : Except UsageError Invocation :=
  readFrom { settings := {} } words

/-- Reads the arguments of a pack on their own. -/
def PackArguments.parse (words : List String) : Except UsageError PackArguments :=
  packGrammar.read {} words

end PromptPack.CommandLine
