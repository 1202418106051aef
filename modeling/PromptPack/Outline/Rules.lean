import PromptPack.Outline.Rules.Html
import PromptPack.Outline.Rules.Java
import PromptPack.Outline.Rules.Swift
/-!
# The languages that have search rules
-/

namespace PromptPack.Outline

/-- The rules of a language, in order of precedence. -/
def Language.rules? : Language → Option (List Rule)
  | .html => some Html.rules
  | .java => some Java.rules
  | .swift => some Swift.rules
  | _ => none

/-- The outline of a source by the rules of its language. -/
def ofRules (language : Language) (source : String) : Except OutlineError String :=
  match language.rules? with
  | some rules => .ok (searchOutline language rules source)
  | none => .error (.noRules language)

end PromptPack.Outline
