import PromptPack.Template.Parse
/-!
# Rendering templates

References are looked up in the blocks around a tag, the innermost first. Values are inserted as
they are: a prompt is plain text, so nothing is escaped.
-/

namespace PromptPack.Template

/-- Why a template cannot be rendered. -/
inductive RenderError
  | noHelper (name : String)
  | noPart (name : String)
  | noArgument (helper : String)
  | badIndex (step : String)
  | badArgument (helper : String)
  | tooDeep
  deriving DecidableEq, Repr

/-! ## Values -/

/-- The text of a value in the output. -/
def shown : Data → String
  | .null => ""
  | .bool b => if b then "true" else "false"
  | .int n => toString n
  | .real x => Json.numberText x
  | .text s => s
  | .list items => "[" ++ String.intercalate ", " (shownAll items) ++ "]"
  | .record _ => "[object]"
where
  shownAll : List Data → List String
    | [] => []
    | d :: ds => shown d :: shownAll ds

/-- The least double above zero that has all its digits. -/
def leastNormal : Float := Decimal.nearest false 22250738585072014 (-324)

/-- Whether a value counts as true: anything but null, zero and what is next to it, and the empty. -/
def truthy (includeZero : Bool) : Data → Bool
  | .null => false
  | .bool b => b
  | .int n => includeZero || n != 0
  | .real x => includeZero || leastNormal ≤ x.abs
  | .text s => !s.isEmpty
  | .list items => !items.isEmpty
  | .record fields => !fields.isEmpty

mutual

def same : Data → Data → Bool
  | .null, .null => true
  | .bool a, .bool b => a == b
  | .int a, .int b => a == b
  | .real a, .real b => a == b
  | .text a, .text b => a == b
  | .list a, .list b => sameAll a b
  | .record a, .record b => sameFields a b
  | _, _ => false

def sameAll : List Data → List Data → Bool
  | [], [] => true
  | a :: as, b :: bs => same a b && sameAll as bs
  | _, _ => false

def sameFields : List (String × Data) → List (String × Data) → Bool
  | [], [] => true
  | (k, a) :: as, (l, b) :: bs => k == l && same a b && sameFields as bs
  | _, _ => false

end

/-- A number, or a text that is the text of one. -/
def asNumber? : Data → Option Data
  | .int n => some (.int n)
  | .real x => some (.real x)
  | .text s =>
    match Json.number? s.toList with
    | some (d, []) => some d
    | _ => none
  | _ => none

/-- The order of two numbers. -/
def numberOrder? : Data → Data → Option Ordering
  | .int a, .int b => some (compare a b)
  | .int a, .real y => Decimal.compareInt? a y
  | .real x, .int b => (Decimal.compareInt? b x).map Ordering.swap
  | .real x, .real y => if x < y then some .lt else if x == y then some .eq else if y < x then some .gt else none
  | _, _ => none

/-- The order of two values, where they have one. -/
def order? : Data → Data → Option Ordering
  | .text a, .text b => some (if a < b then .lt else if a == b then .eq else .gt)
  | .bool a, .bool b => some (compare a b)
  | a, b => do numberOrder? (← asNumber? a) (← asNumber? b)

/-! ## References -/

/-- A block that is being rendered. -/
structure Frame where
  value : Data
  /-- The variables that the block sets. -/
  locals : List (String × Data) := []
  /-- The names that the block gives. -/
  names : List (String × Data) := []

structure Scope where
  root : Data
  /-- The innermost first. -/
  frames : List Frame
  /-- What the insertions around enclose, the innermost first. -/
  enclosed : List (List Node) := []
  /-- How many of those are passed over, as what they enclose is being rendered. -/
  passed : Nat := 0
  deriving Inhabited

/-- An index in decimal digits, below `2 ^ 64`. -/
def index? (s : String) : Option Nat :=
  let digits := match s.toList with
    | '+' :: cs => cs
    | cs => cs
  let n := Decimal.natOf digits
  if digits.isEmpty || !digits.all Char.isDigit || Nat.pow 2 64 ≤ n then none else some n

/-- One step into a value. -/
def stepInto (d : Option Data) (key : String) : Except RenderError (Option Data) :=
  match d with
  | some (.list items) =>
    match index? key with
    | some n => .ok items[n]?
    | none => .error (.badIndex key)
  | some d => .ok (d.get? key)
  | none => .ok none

def stepNames (steps : List Step) : List String :=
  steps.filterMap fun s =>
    match s with
    | .name k => some k
    | _ => none

/-- A value below another. -/
def below? (d : Data) (steps : List Step) : Except RenderError (Option Data) :=
  (stepNames steps).foldlM stepInto (some d)

/-- The value of a name that a block gives. -/
def Scope.given? (s : Scope) (name : String) : Option Data :=
  (s.frames.findSome? fun f => (f.names.find? (·.1 == name)).map (·.2))

def isUp (step : Step) : Bool := step == .up

/-- The value of a variable, for steps up from the innermost block. -/
def Scope.localValue? (s : Scope) (up : Nat) (name : String) : Option Data :=
  (s.frames.drop up).findSome? fun f => (f.locals.find? (·.1 == name)).map (·.2)

/-- The value of a reference, if it has one. -/
def Scope.lookup (s : Scope) (r : Reference) : Except RenderError (Option Data) :=
  let ups := (r.steps.takeWhile isUp).length
  if r.isLocal then
    match r.steps.drop ups with
    | .name key :: _ => .ok (s.localValue? ups key)
    | _ => .ok none
  else
    let plain : Except RenderError (Option Data) :=
      match (s.frames[ups]?).or s.frames.head? with
      | some f => below? f.value r.steps
      | none => below? s.root r.steps
    match r.steps.drop ups with
    | .root :: _ => below? s.root r.steps
    | .name key :: behind =>
      match s.given? key with
      | some d => below? d behind
      | none => plain
    | _ => plain

/-! ## Helpers that give a value -/

/-- The names of all helpers. -/
def helperNames : List String :=
  ["if", "unless", "each", "with", "lookup", "raw", "log", "eq", "ne", "gt", "gte", "lt", "lte",
    "and", "or", "not", "len"]

def compareBy (test : Ordering → Bool) (args : List Data) (name : String) : Except RenderError Data :=
  match args with
  | a :: b :: _ => .ok (.bool (((order? a b).map test).getD false))
  | _ => .error (.noArgument name)

/-- The value of a helper for its arguments; those that only write have an empty text. -/
def helperValue (name : String) (args : List Data) : Except RenderError Data :=
  match name, args with
  | "lookup", .list items :: .int n :: _ => .ok ((if n < 0 then none else items[n.toNat]?).getD .null)
  | "lookup", .record fields :: .text key :: _ => .ok ((Data.get? (.record fields) key).getD .null)
  | "lookup", _ :: _ :: _ => .ok .null
  | "eq", a :: b :: _ => .ok (.bool (same a b))
  | "ne", a :: b :: _ => .ok (.bool (!same a b))
  | "gt", args => compareBy (· == .gt) args "gt"
  | "gte", args => compareBy (· != .lt) args "gte"
  | "lt", args => compareBy (· == .lt) args "lt"
  | "lte", args => compareBy (· != .gt) args "lte"
  | "and", args => .ok (.bool (args.all (truthy false)))
  | "or", args => .ok (.bool (args.any (truthy false)))
  | "not", a :: _ => .ok (.bool (!truthy false a))
  | "len", .list items :: _ => .ok (.int items.length)
  | "len", .record fields :: _ => .ok (.int fields.length)
  | "len", .text s :: _ => .ok (.int s.utf8ByteSize)
  | "len", _ :: _ => .ok (.int 0)
  | "log", _ => .ok (.text "")
  | "raw", _ => .ok (.text "")
  | "if", _ :: _ => .ok (.text "")
  | "unless", _ :: _ => .ok (.text "")
  | "each", _ :: _ => .ok (.text "")
  | "with", _ :: _ => .ok (.text "")
  | name, _ => .error (if helperNames.contains name then .noArgument name else .noHelper name)

mutual

/-- The value of an expression; a missing one is null. -/
def Scope.eval (s : Scope) : Expr → Except RenderError Data
  | .ref r => (s.lookup r).map (·.getD .null)
  | .lit d => .ok d
  | .call helper args named => do
    let values ← s.evalAll args
    let _ ← s.evalNamed named
    helperValue helper values

def Scope.evalAll (s : Scope) : List Expr → Except RenderError (List Data)
  | [] => .ok []
  | e :: es => do
    let d ← s.eval e
    let ds ← s.evalAll es
    return d :: ds

def Scope.evalNamed (s : Scope) : List (String × Expr) → Except RenderError (List (String × Data))
  | [] => .ok []
  | (k, e) :: es => do
    let d ← s.eval e
    let ds ← s.evalNamed es
    return (k, d) :: ds

end

/-! ## Nodes -/

/-- Named parts, the latest definition first. -/
abbrev Parts := List (String × List Node)

/-- What rendering leaves for the nodes that follow. -/
structure Progress where
  /-- The parts defined so far. -/
  parts : Parts := []
  /-- The name of the template whose nodes these are, until a block has been entered. -/
  template : Option String := none

abbrev Written := Except RenderError (String × Progress)

/-- How nodes of another place are rendered, inside an insertion. -/
abbrev Inserter := Scope → Progress → List Node → Written

/-- A text with blanks behind each line end but the last. -/
def indented (indent : String) (s : String) : String :=
  let rec go : List Char → List Char
    | [] => []
    | c :: cs => if c == '\n' && !cs.isEmpty then c :: (indent.toList ++ go cs) else c :: go cs
  String.ofList (go s.toList)

/-- The frame for one item of a list or record. -/
def itemFrame (names : List String) (locals : List (String × Data)) (key value : Data) : Frame where
  value := value
  locals := locals
  names :=
    match names with
    | [a] => [(a, value)]
    | [a, b] => [(a, value), (b, key)]
    | _ => []

/-- The variables of an item among `total`. -/
def itemLocals (i total : Nat) (keyName : String) (key : Data) : List (String × Data) :=
  [("first", .bool (i == 0)), ("last", .bool (i + 1 == total)), (keyName, key)]

/-- The frames for the items of a value, one after the other. -/
def itemFrames (names : List String) (d : Data) : List Frame :=
  match d with
  | .list items => items.zipIdx.map fun (v, i) =>
      itemFrame names (itemLocals i items.length "index" (.int i)) (.int i) v
  | .record fields => fields.zipIdx.map fun ((k, v), i) =>
      itemFrame names (itemLocals i fields.length "key" (.text k)) (.text k) v
  | _ => []

/-- Whether a value has items to go through. -/
def hasItems (d : Data) (hasInverse : Bool) : Bool :=
  match d with
  | .list items => !items.isEmpty || !hasInverse
  | .record fields => !fields.isEmpty || !hasInverse
  | _ => false

def Scope.within (s : Scope) (f : Frame) : Scope := { s with frames := f :: s.frames }

/-- Writes the same nodes for each frame. -/
def forEach (write : Frame → Progress → Written) : List Frame → Progress → Written
  | [], p => .ok ("", p)
  | f :: fs, p => do
    let (text, p) ← write f p
    let (more, p) ← forEach write fs p
    return (text ++ more, p)

/-- The name under which a part sees what its insertion encloses. -/
def blockPart : String := "@partial-block"

/-- A record with the fields of another put over its own. -/
def withFields (d : Data) (fields : List (String × Data)) : Data :=
  let old := match d with
    | .record old => old
    | _ => []
  .record (fields.foldl (fun old (k, d) => Data.insertField k d old) old)

/-- Whether a block counts zero as true; only a truth value says so. -/
def includesZero (named : List (String × Data)) : Bool :=
  match named.reverse.find? (·.1 == "includeZero") with
  | some (_, .bool b) => b
  | _ => false

/-- The scope of an inserted part: with a value of its own when one is given, else what is around. -/
def Scope.forPart (s : Scope) (values : List Data) (named : List (String × Data)) : Scope :=
  let here : Frame := s.frames.head?.getD { value := s.root }
  let base : Frame := match values with
    | v :: _ => { value := v }
    | [] => here
  if named.isEmpty then
    if values.isEmpty then s else { s with frames := [base] }
  else { s with frames := [{ base with value := withFields base.value named }] }

/-- The nodes of a part: of the enclosed text, of a definition, of the template by its own name, or
else what the insertion encloses. -/
def Scope.part? (s : Scope) (own : String × List Node) (parts : Parts) (name : String)
    (fallback : Option (List Node)) : Option (List Node) :=
  let defined := if name == blockPart then s.enclosed[s.passed]? else (parts.find? (·.1 == name)).map (·.2)
  defined.or ((if name == own.1 then some own.2 else none).or fallback)

/-- Takes in the definition of a part; only one kind of definition is known. -/
def defineOne (s : Scope) (p : Progress) (call : Call) (body : List Node) : Except RenderError Progress :=
  if call.name != "inline" then .error (.noHelper call.name)
  else do
    match ← s.evalAll call.args with
    | .text name :: _ => return { p with parts := (name, body) :: p.parts }
    | _ => .error (.badArgument call.name)

/-- Takes in the definitions among nodes. -/
def define (s : Scope) (p : Progress) : List Node → Except RenderError Progress
  | [] => .ok p
  | .definition call body :: ns => do define s (← defineOne s p call body) ns
  | .decoration call :: _ => .error (.badArgument call.name)
  | _ :: ns => define s p ns

/-- Inside a block no template is the one whose nodes are rendered, nor behind it. -/
def Progress.inBlock (p : Progress) : Progress := { p with template := none }

mutual

/-- Renders a node of the given template. -/
def renderNode (own : String × List Node) (insert : Inserter) (s : Scope) (p : Progress) :
    Node → Written
  | .text t => .ok (t, p)
  | .value r call =>
    if call.args.isEmpty && call.named.isEmpty && !helperNames.contains call.name then do
      let d ← s.lookup r
      return (shown (d.getD .null), p)
    else do
      let values ← s.evalAll call.args
      let _ ← s.evalNamed call.named
      let d ← helperValue call.name values
      return (shown d, p)
  | .computed e => do
    let d ← s.eval e
    let d ← if helperNames.contains (shown d) then helperValue (shown d) [] else .ok d
    return (shown d, p)
  | .block call body inverse hasInverse => do
    let values ← s.evalAll call.args
    let named ← s.evalNamed call.named
    let branch (yes : Bool) : Written :=
      if yes then renderNodes own insert s p.inBlock body else renderNodes own insert s p.inBlock inverse
    match call.name, values with
    | "if", d :: _ => branch (truthy (includesZero named) d)
    | "unless", d :: _ => branch (!truthy (includesZero named) d)
    | "each", d :: _ =>
      if hasItems d hasInverse then do
        let (text, after) ←
          forEach (fun f p => renderNodes own insert (s.within f) p.inBlock body) (itemFrames call.names d) p
        return (text, { after with parts := p.parts })
      else branch false
    | "with", d :: _ =>
      if truthy false d then do
        let names := if call.names.length == 1 then call.names else []
        let (text, after) ← renderNodes own insert (s.within (itemFrame names [] .null d)) p.inBlock body
        return (text, { after with parts := p.parts })
      else branch false
    | "raw", _ => branch true
    | name, values => do
      match ← helperValue name values with
      | .bool b => branch b
      | d => return (shown d, p)
  | .insertion part call indent encloses body => do
    let p ← if encloses then define s p body else .ok p
    let name := shown (← s.eval part)
    let values ← s.evalAll call.args
    let named ← s.evalNamed call.named
    if p.template == some name then .error (.noPart name)
    else
      match s.part? own p.parts name (if encloses then some body else none) with
      | none => .error (.noPart name)
      | some nodes =>
        let inner := s.forPart values named
        let inner := { inner with
          enclosed := if encloses then body :: s.enclosed else s.enclosed
          passed := if name == blockPart then s.passed + 1 else s.passed - 1 }
        let template := if name == own.1 && !(p.parts.any (·.1 == name)) then some name else none
        let (text, _) ← insert inner { p with template } nodes
        return (if indent.isEmpty then text else indented indent text, p)
  | .definition call body => (defineOne s p call body).map fun p => ("", p)
  | .decoration call => .error (.badArgument call.name)

/-- Renders nodes one after the other. -/
def renderNodes (own : String × List Node) (insert : Inserter) (s : Scope) (p : Progress) :
    List Node → Written
  | [] => .ok ("", p)
  | n :: ns => do
    let (text, p) ← renderNode own insert s p n
    let (more, p) ← renderNodes own insert s p ns
    return (text ++ more, p)

end

/-- Renders nodes in which insertions nest no deeper than the number. -/
def renderWithin (own : String × List Node) : Nat → Inserter
  | 0 => fun _ _ _ => .error .tooDeep
  | depth + 1 => fun s p nodes => renderNodes own (renderWithin own depth) s p nodes

/-- How deep insertions may nest. -/
def maxDepth : Nat := 100

/-- The text of a template with the given name in a context. -/
def render (name : String) (nodes : List Node) (context : Data) : Except RenderError String :=
  let s : Scope := { root := context, frames := [{ value := context }] }
  (renderWithin (name, nodes) (maxDepth + 1) s { template := some name } nodes).map (·.1)

end PromptPack.Template
