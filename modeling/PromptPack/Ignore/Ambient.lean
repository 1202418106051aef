import PromptPack.Ignore.Rule
/-!
# A user's own ignore rules

A user may keep rules for all directories in one file. The settings of the version control system
name the file; without a name it has a fixed place in the home directory.
-/

namespace PromptPack.Ignore

open Text

/-- The text of a value that may be quoted: nothing in it is blank. -/
def unquoted (cs : List Char) : Option (List Char) :=
  let body := trimChars (match cs with | '"' :: rest => rest | _ => cs)
  let body := match dropEnd? ['"'] body with | some b => trimEndChars b | none => body
  if body.isEmpty || body.any isBlank then none else some body

/-- The value that a settings line gives to the name of the ignore file. -/
def excludesValue? (line : String) : Option String :=
  let cs := trimChars line.toList
  let key := "excludesfile".toList
  if (cs.take key.length).map Char.toLower == key then
    match trimStartChars (cs.drop key.length) with
    | '=' :: rest => (unquoted (trimChars rest)).map String.ofList
    | _ => none
  else none

/-- A tilde stands for the home directory. -/
def expandHome (home : Path) (s : String) : String := s.replace "~" home.text

/-- The ignore file named in a settings file. -/
def namedIn? (fs : FileSystem) (home settings : Path) : Option Path :=
  (fs.readText? settings).bind fun text =>
    ((splitAt '\n' text).findSome? excludesValue?).map fun v => ⟨expandHome home v⟩

/-- The file with the user's own rules. -/
def ambientFile (fs : FileSystem) (home : Path) : Path :=
  let named := (namedIn? fs home (home.join ⟨".gitconfig"⟩)).orElse fun _ =>
    namedIn? fs home (home.join ⟨".config/git/config"⟩)
  named.getD (home.join ⟨".config/git/ignore"⟩)

/-- The user's own rules. -/
def ambient (fs : FileSystem) (home : Path) : Rules :=
  match fs.readBytes? (ambientFile fs home) with
  | some bytes => ofBytes bytes
  | none => []

end PromptPack.Ignore
