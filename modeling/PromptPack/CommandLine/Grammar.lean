import PromptPack.Text.Blank
/-!
# Grammars of command lines

A grammar lists options and operands and says what each does to the settings read so far. Words
are read from left to right. An option that wants a value and the operands are only taken in when
the next one comes up or the words end, so a word that is wrong in itself is noticed before them.
-/

namespace PromptPack.CommandLine

inductive UsageError
  | unknownArgument
  | argumentConflict
  | tooManyValues
  | invalidValue
  | missingRequiredArgument
  | invalidSubcommand
  | missingSubcommand
  | helpWanted
  | helpForWantOfArguments
  | versionWanted
  deriving DecidableEq, Repr

/-- What an option does to settings. -/
inductive Action (σ : Type)
  /-- Switches something on, once. -/
  | switch (apply : σ → σ)
  /-- Takes one value, once; not every value need be valid. -/
  | value (apply : σ → String → Option σ)
  /-- Takes values between commas, any number of times. -/
  | values (apply : σ → List String → σ)
  | help
  | version

structure OptionRule (σ : Type) where
  long : String
  short : Option Char := none
  action : Action σ

/-- What stands without an option. -/
structure OperandRule (σ : Type) where
  /-- Whether there can be more than one. -/
  many : Bool
  required : Bool
  apply : σ → String → Option σ

structure Grammar (σ : Type) where
  options : List (OptionRule σ)
  operand : Option (OperandRule σ)

/-- What was read and not taken in yet. -/
inductive Pending (σ : Type)
  | nothing
  /-- An option with its value, if that was read. -/
  | option (rule : OptionRule σ) (value : Option String)
  | operands (rule : OperandRule σ) (values : List String)

structure Reading (σ : Type) where
  settings : σ
  /-- The options that were taken in, by their long names. -/
  seen : List String := []
  operands : Nat := 0
  pending : Pending σ := .nothing
  /-- Whether only operands follow. -/
  literal : Bool := false

namespace Reading

variable {σ : Type}

/-- Notes that an option was taken in that can stand only once. -/
def once (r : Reading σ) (rule : OptionRule σ) : Except UsageError (Reading σ) :=
  if r.seen.contains rule.long then .error .argumentConflict
  else .ok { r with seen := rule.long :: r.seen }

def orInvalid (r : Reading σ) (settings : Option σ) : Except UsageError (Reading σ) :=
  match settings with
  | some s => .ok { r with settings := s }
  | none => .error .invalidValue

/-- Takes an option in, with the value that belongs to it. -/
def take (r : Reading σ) (rule : OptionRule σ) (value : String) : Except UsageError (Reading σ) :=
  match rule.action with
  | .switch apply => do
    let r ← r.once rule
    return { r with settings := apply r.settings }
  | .value apply => do
    let r ← r.once rule
    r.orInvalid (apply r.settings value)
  | .values apply => .ok { r with settings := apply r.settings (Text.splitAt ',' value) }
  | .help => .error .helpWanted
  | .version => .error .versionWanted

/-- Takes operands in. -/
def takeOperands (r : Reading σ) (rule : OperandRule σ) : List String → Except UsageError (Reading σ)
  | [] => .ok r
  | v :: rest => do
    let r ← r.orInvalid (rule.apply r.settings v)
    r.takeOperands rule rest

/-- Takes in what is pending. -/
def settle (r : Reading σ) : Except UsageError (Reading σ) :=
  match r.pending with
  | .nothing => .ok r
  | .option _ none => .error .invalidValue
  | .option rule (some v) => { r with pending := .nothing }.take rule v
  | .operands rule values => { r with pending := .nothing }.takeOperands rule values

/-- An option at hand, with the value attached to it. -/
def option (r : Reading σ) (rule : OptionRule σ) (attached : Option String) :
    Except UsageError (Reading σ) :=
  let takesValue := match rule.action with
    | .value _ => true
    | .values _ => true
    | _ => false
  match takesValue, attached with
  | true, some v => do (← r.settle).take rule v
  | true, none => do return { (← r.settle) with pending := .option rule none }
  | false, some _ => .error .tooManyValues
  | false, none => do (← r.settle).take rule ""

/-- A word after two dashes, with or without a value behind an equals sign. -/
def longOption (g : Grammar σ) (r : Reading σ) (word : List Char) : Except UsageError (Reading σ) :=
  let name := String.ofList (word.takeWhile (· != '='))
  let attached := match word.dropWhile (· != '=') with
    | _ :: value => some (String.ofList value)
    | [] => none
  match g.options.find? fun o => o.long == name with
  | some rule => r.option rule attached
  | none => .error .unknownArgument

/-- The letters after one dash. The first one that wants a value has the rest for it. -/
def shortOptions (g : Grammar σ) (r : Reading σ) : List Char → Except UsageError (Reading σ)
  | [] => .ok r
  | c :: rest =>
    match g.options.find? fun o => o.short == some c with
    | none => .error .unknownArgument
    | some rule =>
      let takesValue := match rule.action with
        | .value _ => true
        | .values _ => true
        | _ => false
      if takesValue then
        match rest with
        | [] => r.option rule none
        | '=' :: value => r.option rule (some (String.ofList value))
        | value => r.option rule (some (String.ofList value))
      else do shortOptions g (← r.option rule none) rest

/-- A word that is no option. -/
def operand (g : Grammar σ) (r : Reading σ) (word : String) : Except UsageError (Reading σ) :=
  match g.operand with
  | none => .error .unknownArgument
  | some rule =>
    if rule.many then
      match r.pending with
      | .operands rule values =>
        .ok { r with pending := .operands rule (values ++ [word]), operands := r.operands + 1 }
      | _ => do
        let r ← r.settle
        return { r with pending := .operands rule [word], operands := r.operands + 1 }
    else if r.operands == 0 then do
      let r ← r.settle
      return { r with pending := .operands rule [word], operands := 1 }
    else .error .unknownArgument

/-- Whether a word reads as an option where options are read. -/
def isOption (word : String) : Bool :=
  match word.toList with
  | '-' :: _ :: _ => true
  | _ => false

/-- Reads one word. -/
def word (g : Grammar σ) (r : Reading σ) (w : String) : Except UsageError (Reading σ) :=
  if r.literal then r.operand g w
  else
    match w.toList with
    | ['-', '-'] => .ok { r with literal := true }
    | '-' :: '-' :: rest => r.longOption g rest
    | '-' :: c :: rest => r.shortOptions g (c :: rest)
    | _ =>
      match r.pending with
      | .option rule none => .ok { r with pending := .option rule (some w) }
      | _ => r.operand g w

/-- Takes the last words in and looks whether a required operand is missing. -/
def finish (g : Grammar σ) (r : Reading σ) : Except UsageError σ := do
  let r ← r.settle
  if r.operands == 0 && (g.operand.map (·.required)).getD false then
    throw .missingRequiredArgument
  return r.settings

end Reading

/-- Reads all words of a command line. -/
def Grammar.read {σ : Type} (g : Grammar σ) (start : σ) (words : List String) : Except UsageError σ := do
  let r ← words.foldlM (fun r w => r.word g w) ({ settings := start } : Reading σ)
  r.finish g

/-- An option on the first part of a pair. -/
def OptionRule.onFirst {σ τ : Type} (rule : OptionRule σ) : OptionRule (σ × τ) where
  long := rule.long
  short := rule.short
  action := match rule.action with
    | .switch apply => .switch fun (s, t) => (apply s, t)
    | .value apply => .value fun (s, t) v => (apply s v).map (·, t)
    | .values apply => .values fun (s, t) vs => (apply s vs, t)
    | .help => .help
    | .version => .version

/-- An option on the second part of a pair. -/
def OptionRule.onSecond {σ τ : Type} (rule : OptionRule τ) : OptionRule (σ × τ) where
  long := rule.long
  short := rule.short
  action := match rule.action with
    | .switch apply => .switch fun (s, t) => (s, apply t)
    | .value apply => .value fun (s, t) v => (apply t v).map (s, ·)
    | .values apply => .values fun (s, t) vs => (s, apply t vs)
    | .help => .help
    | .version => .version

/-- A grammar with further options on settings of their own. -/
def Grammar.withOptions {σ τ : Type} (g : Grammar σ) (options : List (OptionRule τ)) :
    Grammar (σ × τ) where
  options := g.options.map OptionRule.onFirst ++ options.map OptionRule.onSecond
  operand := g.operand.map fun rule =>
    { many := rule.many
      required := rule.required
      apply := fun (s, t) v => (rule.apply s v).map (·, t) }

end PromptPack.CommandLine
