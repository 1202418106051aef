/-!
# Values by name

A list of names, each with a value, that is kept in the order of the names.
-/

namespace PromptPack

/-- Values by name, in the order of names. -/
abbrev ByName (α : Type) := List (String × α)

/-- Changes the value of a name, which is `fresh` at first. -/
def ByName.change {α : Type} (fresh : α) (name : String) (f : α → α) : ByName α → ByName α
  | [] => [(name, f fresh)]
  | (other, x) :: rest =>
    if name < other then (name, f fresh) :: (other, x) :: rest
    else if name == other then (name, f x) :: rest
    else (other, x) :: ByName.change fresh name f rest

end PromptPack
