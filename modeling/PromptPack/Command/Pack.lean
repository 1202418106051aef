import PromptPack.Command.Settings
import PromptPack.Packing
import PromptPack.World
/-!
# Packing

A pack reads its settings, walks its roots, asks the repository for the wanted changes and renders
the prompt. Only then is anything delivered, so a pack that fails before leaves nothing behind.
-/

namespace PromptPack.Pack

open CommandLine

/-- What is known before the roots are walked. -/
structure Plan where
  settings : PackSettings
  excludes : List String

/-- Reads the configuration and the exclude patterns. -/
def plan (w : World) (g : GlobalOptions) (a : PackArguments) : Except Failure Plan := do
  let config ← w.config
  let globs ← (w.excludeGlobs a.patternFile a.noDefaultExcludes).mapError fun _ => .excludes
  return ⟨PackSettings.resolve a config g.verbose, globs ++ config.excludes ++ a.excludes⟩

/-- The walker of a pack. -/
def walker (p : Plan) (a : PackArguments) : Except Failure Walker := do
  let base ← (Walker.ofExcludes p.excludes).mapError fun _ => .excludeGlob
  let base ← (base.withIncludes a.includes).mapError fun _ => .includeGlob
  return { base with
    includePriority := a.includePriority
    followLinks := p.settings.followLinks
    ignoreFiles := !a.noIgnore }

/-- The pair of branches that an option names. -/
def branches (spec : Option String) : Except Failure (Option BranchPair) :=
  match spec with
  | none => .ok none
  | some s =>
    match BranchPair.parse? s with
    | some pair => .ok (some pair)
    | none => .error .branchPair

/-- What the roots contribute in their order, and what all of them leave out. -/
structure Gathered where
  trees : List String := []
  files : List FileEntry := []
  omissions : Omissions := {}
  /-- The first root. -/
  first : Option Path := none

/-- Walks one more root. -/
def Gathered.add (got : Gathered) (w : World) (walker : Walker) (s : PackSettings) (hide : Bool)
    (path : Path) : Except Failure Gathered := do
  let root ← w.locate path
  let (packed, omissions) :=
    PackedRoot.pack walker w.files w.home root s.format hide s.outliner? got.omissions
  return {
    trees := got.trees ++ [root.text ++ ":\n" ++ packed.tree]
    files := got.files ++ packed.files
    omissions := omissions
    first := got.first.or (some root) }

/-- Walks all roots. -/
def gather (w : World) (walker : Walker) (s : PackSettings) (a : PackArguments) :
    Except Failure Gathered :=
  a.roots.foldlM (fun got path => got.add w walker s a.excludeFromTree path) {}

/-- The directory whose repository is asked. -/
def repositoryPath (w : World) (root : Path) : Path :=
  if w.files.isDir root then root else root.parent?.getD ⟨"."⟩

/-- The text that a pair of branches asks for, or none without a pair. -/
def sectionOf (pair : Option BranchPair) (ask : String → String → Except RevisionError String) :
    Except Failure String :=
  match pair with
  | none => .ok ""
  | some pair => (ask pair.base pair.tip).mapError .revision

/-- What a repository says of its changes, as far as it was asked. -/
structure Changes where
  diff : String
  diffBranch : String
  logBranch : String

/-- The changes of the work tree, when they are wanted. -/
def diffOf (w : World) (wanted : Bool) (repo : Path) : Except Failure String :=
  if wanted then (w.repositories.diff w.files repo).mapError .revision else .ok ""

/-- Asks the repository of a directory. -/
def changes (w : World) (a : PackArguments) (repo : Path) (diffPair logPair : Option BranchPair) :
    Except Failure Changes := do
  let diff ← diffOf w a.diff repo
  let diffBranch ← sectionOf diffPair (w.repositories.diffBetween w.files repo)
  let logBranch ← sectionOf logPair (w.repositories.logBetween w.files repo)
  return ⟨diff, diffBranch, logBranch⟩

/-- What a prompt is rendered from, and what it leaves out. -/
structure Material where
  template : PromptTemplate
  context : PromptContext
  omissions : Omissions

/-- Everything up to the rendering of the prompt. -/
def collect (w : World) (p : Plan) (a : PackArguments) : Except Failure Material := do
  let walker ← walker p a
  let template ← (PromptTemplate.load w.files p.settings.template).mapError .prompt
  let diffPair ← branches a.diffBranches
  let logPair ← branches a.logBranches
  let got ← gather w walker p.settings a
  let root := got.first.getD ⟨""⟩
  let found ← changes w a (repositoryPath w root) diffPair logPair
  return {
    template := template
    context := {
      absoluteCodePath := root.text
      sourceTrees := String.intercalate "\n\n" got.trees
      files := got.files
      gitDiff := found.diff
      gitDiffBranch := found.diffBranch
      gitLogBranch := found.logBranch }
    omissions := got.omissions }

/-- Everything up to the rendered prompt. -/
def prepare (w : World) (p : Plan) (a : PackArguments) : Except Failure Delivery := do
  let m ← collect w p a
  let prompt ← (m.template.render m.context).mapError .prompt
  return ⟨prompt, m.context.files, m.omissions⟩

/-! ## Notes -/

/-- The exclude patterns in force, one a line. -/
def excludeNotes (g : GlobalOptions) (globs : List String) : String :=
  Delivery.statusNote g .info "Active exclude patterns:" ++
    String.join (globs.map fun glob =>
      "  " ++ (if g.noColor then glob else Console.Style.dim.apply glob) ++ "\n")

/-- What was left out, when anything was. -/
def omissionNotes (g : GlobalOptions) (o : Omissions) : String :=
  if o.isEmpty then ""
  else
    Delivery.statusNote g .info
      ("Excluded " ++ toString o.totalFiles ++ " files in " ++ toString o.directories.length ++
        " directories") ++
      String.join (o.extensions.map fun (ext, n) => "  " ++ ext ++ ": " ++ toString n ++ "\n") ++
      String.join (o.files.map fun f => "  " ++ f ++ "\n")

/-- The counter of a pack, when it needs one. -/
def counter? (w : World) (s : PackSettings) (a : PackArguments) : Option TokenCounter :=
  if s.needsTokens then some ⟨s.encoding, w.encoder s.encoding, !a.noCorrection⟩ else none

def run (w : World) (g : GlobalOptions) (a : PackArguments) : Outcome :=
  match plan w g a with
  | .error e => w.failed e
  | .ok p =>
    let notes := if g.verbose then excludeNotes g p.excludes else ""
    match prepare w p a with
    | .error e => w.failed e notes
    | .ok d =>
      let summary := if g.verbose then omissionNotes g d.omissions else ""
      let outcome := d.deliver (counter? w p.settings a) w.clipboard p.settings.delivery g w.files
      { outcome with err := notes ++ summary ++ outcome.err }

end PromptPack.Pack
