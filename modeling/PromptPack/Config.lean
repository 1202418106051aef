import PromptPack.Data.Ini
import PromptPack.Data.Json
import PromptPack.Data.Json5
import PromptPack.Data.Ron
import PromptPack.Data.Toml
import PromptPack.Data.Yaml
import PromptPack.FileSystem
/-!
# Configuration

Settings come in layers: files in the order given, then the environment. A later layer replaces
what an earlier one says about a setting, and what no layer says keeps its default. Missing files
count as empty.
-/

namespace PromptPack

structure Config where
  excludes : List String := []
  encoding : String := "o200k"
  compress : Bool := false
  lineNumbers : Bool := false
  noCodeblock : Bool := false
  relativePaths : Bool := false
  followSymlinks : Bool := false
  template : Option String := none
  noClipboard : Bool := false
  deriving DecidableEq, Repr

inductive ConfigError
  /-- A file is no document of its format. -/
  | unreadable
  /-- A setting has a value of the wrong kind. -/
  | illTyped
  deriving DecidableEq, Repr

def ConfigError.message : ConfigError → String
  | .unreadable => "Failed to load configuration"
  | .illTyped => "Failed to parse configuration"

namespace Config

/-! ## Layers -/

/-- What a source says, by setting. -/
abbrev Layer := List (String × Data)

mutual

/-- A later value in the place of an earlier one; records are merged field by field. -/
def overlay (earlier later : Data) : Data :=
  match earlier, later with
  | .record old, .record new => .record (overlayFields old new)
  | _, _ => later
termination_by structural later

def overlayFields (old : List (String × Data)) : List (String × Data) → List (String × Data)
  | [] => old
  | (k, d) :: rest =>
    let merged := match old.find? (·.1 == k) with
      | some (_, before) => overlay before d
      | none => d
    overlayFields ((k, merged) :: old.filter (·.1 != k)) rest
termination_by structural fields => fields

end

/-- A step of a key into a setting. -/
inductive KeyStep
  | field (name : String)
  /-- An item, counted from the end when below zero. -/
  | item (index : Int)
  deriving DecidableEq, Repr

def isKeyChar (c : Char) : Bool := c.isAlphanum || c == '_' || c == '-'

/-- The steps behind the first name of a key: names behind dots and indices in brackets. -/
def keySteps? : Nat → List Char → Option (List KeyStep)
  | 0, _ => none
  | n + 1, cs =>
    match cs with
    | [] => some []
    | '.' :: rest =>
      let name := rest.takeWhile isKeyChar
      if name.isEmpty then none
      else (keySteps? n (rest.drop name.length)).map (.field (String.ofList name) :: ·)
    | '[' :: rest =>
      let inner := rest.takeWhile (· != ']')
      match rest.drop inner.length, Decimal.wordOfText? (Text.trim (String.ofList inner)) with
      | _ :: rest, some i => (keySteps? n rest).map (.item i :: ·)
      | _, _ => none
    | _ => none

/-- A key as a name and the steps behind it; one that is none of that kind is a name as a whole. -/
def keyPath (key : String) : String × List KeyStep :=
  let cs := key.toList
  let name := cs.takeWhile isKeyChar
  match (if name.isEmpty then none else keySteps? (cs.length + 1) (cs.drop name.length)) with
  | some steps => (String.ofList name, steps)
  | none => (key, [])

/-- A list with the given item at a place, and null in the places that it lacks. -/
def withItem (items : List Data) (i : Int) (change : Data → Data) : List Data :=
  let n : Int := items.length
  let at' := if i < 0 then n + i else i
  if at' < 0 then change .null :: List.replicate ((-at').toNat - 1) .null ++ items
  else
    let k := at'.toNat
    let full := items ++ List.replicate (k + 1 - items.length) .null
    full.take k ++ change (full[k]?.getD .null) :: full.drop (k + 1)

/-- Puts a value at the end of some steps; what stands in the way gives way. -/
def placed : List KeyStep → (later : Data) → (earlier : Data) → Data
  | [], later, earlier => overlay earlier later
  | .field k :: steps, later, earlier =>
    let fields := match earlier with
      | .record fields => fields
      | _ => []
    let inner := (((fields.find? (·.1 == k)).map (·.2))).getD .null
    .record ((k, placed steps later inner) :: fields.filter (·.1 != k))
  | .item i :: steps, later, earlier =>
    let items := match earlier with
      | .list items => items
      | _ => []
    .list (withItem items i (placed steps later))

/-- Sets what a key stands for. -/
def set (layer : Layer) (key : String) (d : Data) : Layer :=
  let (name, steps) := keyPath key
  let before := (((layer.find? (·.1 == name)).map (·.2))).getD .null
  (name, placed steps d before) :: layer.filter (·.1 != name)

/-- The layers as one, the last one first in rank. -/
def merge (layers : List Layer) : Layer :=
  layers.flatten.foldl (fun whole (key, d) => set whole key d) []

/-! ## Files -/

inductive FileKind
  | toml
  | json
  | yaml
  | ini
  | ron
  | json5
  deriving DecidableEq, Repr

def FileKind.extensions : FileKind → List String
  | .toml => ["toml"]
  | .json => ["json"]
  | .yaml => ["yaml", "yml"]
  | .ini => ["ini"]
  | .ron => ["ron"]
  | .json5 => ["json5"]

def FileKind.parse? : FileKind → String → Option Data
  | .toml => Toml.parse?
  | .json => Json.parse?
  | .yaml => Yaml.parse?
  | .ini => Ini.parse?
  | .ron => Ron.parse?
  | .json5 => Json5.parse?

/-- In the order in which a path without an extension is tried. -/
def FileKind.all : List FileKind := [.toml, .json, .yaml, .ini, .ron, .json5]

/-- The file that a path means, with its kind: the path itself, or the path with one of the known
extensions added. -/
def locate? (fs : FileSystem) (p : Path) : Option (Path × FileKind) :=
  if fs.isFile p then
    (FileKind.all.find? fun k => k.extensions.any fun e => p.extension? == some e).map (p, ·)
  else
    let candidates := FileKind.all.flatMap fun k =>
      k.extensions.map fun e => ((⟨p.text ++ "." ++ e⟩ : Path), k)
    candidates.find? fun (q, _) => fs.isFile q

/-- A byte order mark at the start of a file does not count. -/
def withoutMark (s : String) : String :=
  match s.toList with
  | '\uFEFF' :: rest => String.ofList rest
  | _ => s

/-- What a file says; a missing file says nothing. -/
def fileLayer (fs : FileSystem) (p : Path) : Except ConfigError Layer :=
  match locate? fs p with
  | none => .ok []
  | some (q, kind) =>
    match fs.readBytes? q with
    | none => .ok []
    | some bytes =>
      match kind.parse? (withoutMark (Text.decodeLossy bytes)) with
      | some (.record fields) => .ok fields
      | _ => .error .unreadable

/-! ## Environment -/

/-- The names of variables begin with this. -/
def variableStart : String := "ingest_"

/-- The value of a variable: a truth value or a number where it reads as one, else a list for the
setting that is one, else a text. -/
def variableValue (key value : String) : Data :=
  match (value.toLower : String) with
  | "true" => .bool true
  | "false" => .bool false
  | _ =>
    match Decimal.wordOfText? value with
    | some n => .int n
    | none =>
      match Decimal.ofText? value with
      | some x => .real x
      | none => if key == "excludes" then .ofTexts (Text.splitAt ',' value) else .text value

/-- A key in which each double underscore is a step into a setting. -/
def dotted : List Char → List Char
  | '_' :: '_' :: rest => '.' :: dotted rest
  | c :: rest => c :: dotted rest
  | [] => []

/-- What a variable says, when its name is that of a setting. -/
def setting? (name value : String) : Option (String × Data) :=
  let lower := name.toList.map Char.toLower
  (Text.dropStart? variableStart.toList lower).map fun key =>
    let key := String.ofList (dotted key)
    (key, variableValue key value)

def environmentLayer (env : List (String × String)) : Layer :=
  env.filterMap fun (name, value) => setting? name value

/-! ## Settings -/

def asBool? : Data → Option Bool
  | .bool b => some b
  | .int n => some (n != 0)
  | .real x => some (x != 0.0)
  | .text s =>
    match (s.toLower : String) with
    | "1" | "true" | "on" | "yes" => some true
    | "0" | "false" | "off" | "no" => some false
    | _ => none
  | _ => none

def asText? : Data → Option String
  | .text s => some s
  | .bool b => some (if b then "true" else "false")
  | .int n => some (toString n)
  | .real x => some (Decimal.text x)
  | _ => none

def asTexts? : Data → Option (List String)
  | .list items => items.mapM asText?
  | _ => none

/-- A setting by its name, or its default when no layer speaks of it. -/
def field {α : Type} (layer : Layer) (key : String) (read : Data → Option α) (dflt : α) :
    Except ConfigError α :=
  match layer.find? (·.1 == key) with
  | none => .ok dflt
  | some (_, d) =>
    match read d with
    | some a => .ok a
    | none => .error .illTyped

/-- The configuration that a layer describes. -/
def ofLayer (layer : Layer) : Except ConfigError Config := do
  let dflt : Config := {}
  let path? (d : Data) : Option (Option String) :=
    match d with
    | .null => some none
    | d => (asText? d).map some
  return {
    excludes := ← field layer "excludes" asTexts? dflt.excludes
    encoding := ← field layer "encoding" asText? dflt.encoding
    compress := ← field layer "compress" asBool? dflt.compress
    lineNumbers := ← field layer "line_numbers" asBool? dflt.lineNumbers
    noCodeblock := ← field layer "no_codeblock" asBool? dflt.noCodeblock
    relativePaths := ← field layer "relative_paths" asBool? dflt.relativePaths
    followSymlinks := ← field layer "follow_symlinks" asBool? dflt.followSymlinks
    template := ← field layer "template" path? dflt.template
    noClipboard := ← field layer "no_clipboard" asBool? dflt.noClipboard }

/-- Loads files, the first with the least rank, and the environment above them. -/
def load (fs : FileSystem) (paths : List Path) (env : List (String × String)) :
    Except ConfigError Config := do
  let files ← paths.mapM (fileLayer fs)
  ofLayer (merge (files ++ [environmentLayer env]))

/-! ## The file of defaults -/

def fileName : String := "ingest.toml"

/-- Where the user's own file lies below the home directory. -/
def userFile (home : Path) : Path := home.join ⟨".config/ingest/ingest.toml"⟩

def line (key value : String) : String := key ++ " = " ++ value ++ "\n"

def boolLine (key : String) (b : Bool) : String := line key (if b then "true" else "false")

/-- The defaults as a document to start from. -/
def defaultsText : String :=
  let d : Config := {}
  line "excludes" "[]" ++ line "encoding" ("\"" ++ d.encoding ++ "\"") ++
    boolLine "compress" d.compress ++ boolLine "line_numbers" d.lineNumbers ++
    boolLine "no_codeblock" d.noCodeblock ++ boolLine "relative_paths" d.relativePaths ++
    boolLine "follow_symlinks" d.followSymlinks ++ boolLine "no_clipboard" d.noClipboard

end Config

end PromptPack
