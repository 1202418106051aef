import PromptPack.Outline.Search
/-!
# Search rules for HTML

The skeleton of a page: its document type, the tags of the outer elements, comments, the title
and the opening tags of scripts and styles.
-/

namespace PromptPack.Outline.Html

open Regex

/-- Attributes between a tag's name and its closing bracket. -/
def attributes : Regex := maybe (blank ++ star .greedy (noneOf ['>']))

def openTag (name : String) : Regex := anyCase ("<" ++ name) ++ attributes ++ ">"

/-- The opening or the closing tag of an element. -/
def tags (name : String) : Regex := openTag name ||| anyCase ("</" ++ name ++ ">")

/-- As few characters of any kind as will do. -/
def anything : Regex := star .lazy (char fun _ => true)

def rules : List Rule := [
  ⟨anyCase "<!DOCTYPE" ++ star .greedy (noneOf ['>']) ++ ">", .all⟩,
  ⟨tags "html", .all⟩,
  ⟨tags "head", .all⟩,
  ⟨tags "body", .all⟩,
  ⟨"<!--" ++ anything ++ "-->", .all⟩,
  ⟨openTag "title" ++ anything ++ anyCase "</title>", .all⟩,
  ⟨openTag "script", .all⟩,
  ⟨openTag "style", .all⟩]

end PromptPack.Outline.Html
