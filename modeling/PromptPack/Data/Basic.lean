import PromptPack.Decimal.Shortest
/-!
# Data

The values that configuration files, templates and JSON documents deal in. A record keeps its
fields in order.
-/

namespace PromptPack

inductive Data
  | null
  | bool (b : Bool)
  | int (n : Int)
  | real (x : Float)
  | text (s : String)
  | list (items : List Data)
  | record (fields : List (String × Data))
  deriving Inhabited

namespace Data

/-- The value of a field, when the data is a record that has it; the last one counts. -/
def get? (d : Data) (key : String) : Option Data :=
  match d with
  | record fields => (fields.reverse.find? (·.1 == key)).map (·.2)
  | _ => none

/-- Puts a field among fields in the order of their names; one of the same name gives way. -/
def insertField (key : String) (d : Data) : List (String × Data) → List (String × Data)
  | [] => [(key, d)]
  | (k, e) :: fs =>
    if key == k then (key, d) :: fs
    else if key < k then (key, d) :: (k, e) :: fs
    else (k, e) :: insertField key d fs

mutual

/-- The data with the fields of each record in the order of their names, each name once. -/
def sorted : Data → Data
  | list items => list (sortedItems items)
  | record fields => record (sortedFields [] fields)
  | d => d

def sortedItems : List Data → List Data
  | [] => []
  | d :: ds => sorted d :: sortedItems ds

def sortedFields (before : List (String × Data)) : List (String × Data) → List (String × Data)
  | [] => before
  | (k, d) :: fs => sortedFields (insertField k (sorted d) before) fs

end

def ofTexts (texts : List String) : Data := list (texts.map text)

end Data

end PromptPack
