import PromptPack.CommandLine.Arguments
import PromptPack.Entry
/-!
# Settings of a pack

What the command line says goes before what the configuration says. Switches that either of them
turns on are on.
-/

namespace PromptPack

open CommandLine

structure PackSettings where
  format : FileFormat
  compress : Bool
  followLinks : Bool
  encoding : Encoding
  template : Option Path
  delivery : DeliveryOptions
  deriving DecidableEq, Repr

namespace PackSettings

def resolve (a : PackArguments) (c : Config) (verbose : Bool) : PackSettings where
  format := {
    lineNumbers := a.lineNumbers || c.lineNumbers
    noFence := a.noFence || c.noCodeblock
    relativePaths := a.relativePaths || c.relativePaths }
  compress := a.compress || c.compress
  followLinks := a.followLinks || c.followSymlinks
  encoding := Encoding.ofName (a.encoding.getD c.encoding)
  template := a.template.or (c.template.map Path.mk)
  delivery := {
    showTokens := !a.noTokens
    noClipboard := a.noClipboard || c.noClipboard
    output := a.output
    json := a.json
    report := a.report || verbose }

/-- What makes outlines, when they are wanted. -/
def outliner? (s : PackSettings) : Option Outliner :=
  if s.compress then some Outline.compressPath else none

/-- Whether tokens have to be counted for what is wanted. -/
def needsTokens (s : PackSettings) : Bool :=
  s.delivery.showTokens || s.delivery.report || s.delivery.json

end PackSettings

end PromptPack
