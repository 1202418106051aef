import PromptPack.Console
import PromptPack.Failure
import PromptPack.Report
/-!
# Delivery

A finished prompt is delivered to the clipboard, to a file or to standard output, or as a JSON
document. What is said about it goes to standard error, so that standard output holds the prompt
or the document and nothing else.
-/

namespace PromptPack

/-- The options that every command takes. -/
structure GlobalOptions where
  quiet : Bool := false
  noColor : Bool := false
  verbose : Bool := false
  dryRun : Bool := false
  deriving DecidableEq, Repr

/-- What a run leaves behind: how it ended, what it printed, the files as they are now, and what
the clipboard got. -/
structure Outcome where
  result : Except Failure Unit
  out : String := ""
  err : String := ""
  files : FileSystem
  copied : Option String := none

/-- Whether texts can be put into the clipboard, and why not. -/
inductive Clipboard
  | ready
  | broken (reason : String)
  deriving DecidableEq, Repr

/-- What is wanted of a delivery. -/
structure DeliveryOptions where
  showTokens : Bool := false
  noClipboard : Bool := false
  output : Option Path := none
  json : Bool := false
  report : Bool := false
  deriving DecidableEq, Repr

/-- A prompt that is ready, with its files and with what was left out. -/
structure Delivery where
  prompt : String
  files : List FileEntry
  omissions : Omissions

/-- Makes the directories above a path. -/
def makeParents (fs : FileSystem) (p : Path) : FileSystem × Except Failure Unit :=
  match p.parent? with
  | none => (fs, .ok ())
  | some dir =>
    if dir.text.isEmpty then (fs, .ok ())
    else
      match fs.makeDirs dir with
      | (fs, true) => (fs, .ok ())
      | (fs, false) => (fs, .error (.unmade dir))

/-- Writes a text to a file and makes the directories above it. -/
def writeOutput (fs : FileSystem) (p : Path) (text : String) : FileSystem × Except Failure Unit :=
  match makeParents fs p with
  | (fs, .error e) => (fs, .error e)
  | (fs, .ok ()) =>
    match fs.writeFile? p text.toUTF8 with
    | some fs => (fs, .ok ())
    | none => (fs, .error (.unwritten p))

namespace Delivery

def statusNote (g : GlobalOptions) (status : Console.Status) (message : String) : String :=
  Console.statusLine status message g.noColor ++ "\n"

/-- What is said with a counter at hand: the token count and the report, where wanted. -/
def countNotes (d : Delivery) (counter : TokenCounter) (o : DeliveryOptions) (g : GlobalOptions) :
    String :=
  (if o.showTokens then
    statusNote g .info (Text.grouped (counter.count d.prompt) ++ " Tokens (Approximate)")
  else "") ++
  (if o.report then "\n" ++ report counter d.files else "")

/-- Where the prompt would go. -/
def targetName (o : DeliveryOptions) : String :=
  match o.output with
  | some p => p.text
  | none => if o.noClipboard then "stdout" else "clipboard"

/-- What is said instead of a delivery. -/
def dryNote (d : Delivery) (o : DeliveryOptions) : String :=
  Console.Style.yellow.apply
    ("DRY RUN: Would write " ++ toString d.prompt.utf8ByteSize ++ " bytes to " ++ targetName o) ++
    "\n"

/-- What the clipboard gets, and what is said about it. -/
def copyPrompt (d : Delivery) (clipboard : Clipboard) (o : DeliveryOptions) (g : GlobalOptions) :
    Option String × String :=
  if o.noClipboard then (none, "")
  else
    match clipboard with
    | .ready =>
      (some d.prompt,
        if g.quiet then "" else statusNote g .success "Copied to clipboard successfully.")
    | .broken reason =>
      (none,
        if g.quiet then ""
        else statusNote g .warning
          ("Failed to copy to clipboard: " ++ reason ++ ". Falling back to console output."))

/-- Hands the prompt over: to the clipboard, to the output file, and to standard output when
neither took it. -/
def handOver (d : Delivery) (clipboard : Clipboard) (o : DeliveryOptions) (g : GlobalOptions)
    (fs : FileSystem) : Outcome :=
  let (copied, notes) := d.copyPrompt clipboard o g
  match o.output with
  | none =>
    ⟨.ok (), if copied.isSome then "" else d.prompt, notes, fs, copied⟩
  | some p =>
    match writeOutput fs p d.prompt with
    | (fs, .error e) => ⟨.error e, "", notes, fs, copied⟩
    | (fs, .ok ()) =>
      let written :=
        if g.quiet then "" else statusNote g .success ("Written to file: " ++ p.text)
      ⟨.ok (), "", notes ++ written, fs, copied⟩

/-- Delivers a prompt without a counter, or after what is said with one. -/
def handOverOrTell (d : Delivery) (clipboard : Clipboard) (o : DeliveryOptions) (g : GlobalOptions)
    (fs : FileSystem) : Outcome :=
  if g.dryRun then ⟨.ok (), "", if g.quiet then "" else d.dryNote o, fs, none⟩
  else d.handOver clipboard o g fs

/-- Delivers a prompt. The token count, the report and the document are there only with a
counter. -/
def deliver (d : Delivery) (counter : Option TokenCounter) (clipboard : Clipboard)
    (o : DeliveryOptions) (g : GlobalOptions) (fs : FileSystem) : Outcome :=
  match counter with
  | none => d.handOverOrTell clipboard o g fs
  | some counter =>
    let notes := d.countNotes counter o g
    if o.json then
      ⟨.ok (), document counter d.prompt d.files d.omissions ++ "\n", notes, fs, none⟩
    else
      let outcome := d.handOverOrTell clipboard o g fs
      { outcome with err := notes ++ outcome.err }

end Delivery

end PromptPack
