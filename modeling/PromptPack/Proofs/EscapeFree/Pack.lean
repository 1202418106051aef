import PromptPack.Command.Pack
import PromptPack.Proofs.EscapeFree.Arguments
import PromptPack.Proofs.EscapeFree.Delivery
import PromptPack.Proofs.EscapeFree.Globs
import PromptPack.Proofs.EscapeFree.Outline
import PromptPack.Proofs.EscapeFree.Patch
import PromptPack.World
/-!
# Packs without escapes

A world is plain when everything that a run can read in it and tell is free of escapes: names and contents of files, the
settings in force, what the repositories hold, why the clipboard is out of reach. The globs in force are then free of
escapes, and so is what is said when they cannot be had.

Each stage of a pack in a plain world yields what is free of escapes, or fails with a cause that is. Without colours the
whole pack prints an escape exactly where it says in a dry run what would be delivered (`Pack.run_plain_iff`).
-/

namespace PromptPack

/-! ## Worlds -/

/-- The texts among the settings are free of escapes. -/
structure Config.Plain (c : Config) : Prop where
  excludes : ∀ glob ∈ c.excludes, EscapeFree glob
  encoding : EscapeFree c.encoding
  template : ∀ s ∈ c.template, EscapeFree s

/-- Whatever a run can tell of the world is free of escapes. -/
structure World.Plain (w : World) : Prop where
  files : w.files.Plain
  home : EscapeFree w.home.text
  /-- Files of the configuration can spell escapes in characters of their own; the settings are what counts. -/
  config : Yields w.config Config.Plain
  repositories : ∀ r ∈ w.repositories, r.Plain
  clipboard : ∀ reason, w.clipboard = .broken reason → EscapeFree reason
  scripts : ∀ shell, EscapeFree (w.scripts shell)

namespace World

variable {w : World} {p : Path}

theorem fails_config (w : World) : Fails w.config Failure.Plain := by
  have hmessage (e : ConfigError) : Failure.Plain (.configuration e) := by
    cases e <;> exact escapeFree_literal rfl
  exact fails_mapError hmessage

theorem Plain.userFile (h : w.Plain) : EscapeFree (Config.userFile w.home).text :=
  Path.escapeFree_join h.home (escapeFree_literal rfl)

theorem Plain.userDirectory (h : w.Plain) : EscapeFree (Exclusion.userDirectory w.home).text :=
  Path.escapeFree_join h.home (escapeFree_literal rfl)

theorem Plain.excludeGlobs (h : w.Plain) (file : Option Path) (noDefaults : Bool) :
    Yields (w.excludeGlobs file noDefaults) fun globs => ∀ glob ∈ globs, EscapeFree glob :=
  Exclusion.escapeFree_resolve h.files file noDefaults _

theorem Plain.fails_excludeGlobs (h : w.Plain) {file : Option Path} (hfile : ∀ p ∈ file, EscapeFree p.text)
    (noDefaults : Bool) : Fails (w.excludeGlobs file noDefaults) fun e => EscapeFree e.message :=
  Exclusion.fails_resolve h.files hfile (by simpa using h.userDirectory) noDefaults

theorem Plain.locate (h : w.Plain) (p : Path) : Yields (w.locate p) fun root => EscapeFree root.text := by
  unfold World.locate
  split
  · rename_i root hroot
    exact yields_ok.2 (h.files.of_canonical? hroot)
  · exact yields_error

theorem fails_locate (w : World) (hp : EscapeFree p.text) : Fails (w.locate p) Failure.Plain := by
  unfold World.locate
  split
  · exact fails_ok
  · exact fails_error.2 ((escapeFree_literal rfl : EscapeFree "Failed to resolve ").append hp)

end World

/-! ## Templates -/

namespace PromptTemplate

variable {fs : FileSystem} {path : Option Path}

theorem escapeFree_name_load (h : ∀ p ∈ path, EscapeFree p.text) :
    Yields (load fs path) fun t => EscapeFree t.name := by
  unfold load
  split
  · exact yields_ok.2 (escapeFree_literal rfl)
  · split
    · exact yields_ok.2 (h _ rfl)
    · exact yields_error

theorem fails_load (h : ∀ p ∈ path, EscapeFree p.text) : Fails (load fs path) fun e => EscapeFree e.message := by
  unfold load
  split
  · exact fails_ok
  · split
    · exact fails_ok
    · exact fails_error.2 ((escapeFree_literal rfl : EscapeFree "Failed to read template ").append (h _ rfl))

theorem fails_render {t : PromptTemplate} (h : EscapeFree t.name) (c : PromptContext) :
    Fails (t.render c) fun e => EscapeFree e.message := by
  unfold PromptTemplate.render
  split
  · exact fails_error.2 ((escapeFree_literal rfl : EscapeFree "Failed to parse template ").append h)
  · split
    · exact fails_ok
    · exact fails_error.2 ((escapeFree_literal rfl : EscapeFree "Failed to render template ").append h)

end PromptTemplate

namespace Pack

open CommandLine

variable {w : World} {g : GlobalOptions} {a : PackArguments} {p : Plan} {v : Walker} {s : PackSettings}

/-! ## Plans -/

/-- The globs and the paths of the plan are free of escapes. -/
structure Plan.Plain (p : Plan) : Prop where
  excludes : ∀ glob ∈ p.excludes, EscapeFree glob
  template : ∀ q ∈ p.settings.template, EscapeFree q.text
  output : ∀ q ∈ p.settings.delivery.output, EscapeFree q.text

theorem plain_plan (hw : w.Plain) (ha : a.Plain) : Yields (plan w g a) Plan.Plain := by
  unfold plan
  refine hw.config.bind fun c hc => ((hw.excludeGlobs _ _).mapError _).bind fun globs hglobs => yields_pure.2 ?_
  refine ⟨?_, fun q hq => ?_, ha.output⟩
  · simp only [List.forall_mem_append]
    exact ⟨⟨hglobs, hc.excludes⟩, ha.excludes⟩
  · rcases Option.or_eq_some_iff.1 hq with hq | ⟨-, hq⟩
    · exact ha.template q hq
    · obtain ⟨text, htext, rfl⟩ := Option.map_eq_some_iff.1 hq
      exact hc.template text htext

theorem fails_plan (w : World) (g : GlobalOptions) (a : PackArguments) :
    Fails (plan w g a) Failure.Plain := by
  have hexcludes : Failure.Plain .excludes := escapeFree_literal rfl
  unfold plan
  exact (World.fails_config w).bind fun c _ => (fails_mapError fun _ => hexcludes).bind fun _ _ => fails_pure

/-! ## Stages that tell no text of their own -/

theorem fails_walker (p : Plan) (a : PackArguments) : Fails (walker p a) Failure.Plain := by
  have hexclude : Failure.Plain .excludeGlob := escapeFree_literal rfl
  have hinclude : Failure.Plain .includeGlob := escapeFree_literal rfl
  unfold walker
  exact (fails_mapError fun _ => hexclude).bind fun base _ =>
    (fails_mapError fun _ => hinclude).bind fun _ _ => fails_pure

theorem fails_branches (spec : Option String) : Fails (branches spec) Failure.Plain := by
  have hpair : Failure.Plain .branchPair := escapeFree_literal rfl
  unfold branches
  split
  · exact fails_ok
  · split
    · exact fails_ok
    · exact fails_error.2 hpair

/-! ## Roots -/

/-- What the roots contribute is free of escapes. -/
structure Gathered.Plain (got : Gathered) : Prop where
  trees : ∀ t ∈ got.trees, EscapeFree t
  files : ∀ f ∈ got.files, f.Plain
  omissions : got.omissions.Plain
  first : ∀ root ∈ got.first, EscapeFree root.text

theorem plain_outliner? (s : PackSettings) : ∀ f ∈ s.outliner?, f.Plain := by
  unfold PackSettings.outliner?
  split
  · simpa using Outline.plain_compressPath
  · simp

theorem Gathered.Plain.add {got : Gathered} (h : got.Plain) (hw : w.Plain) (hide : Bool) (path : Path) :
    Yields (got.add w v s hide path) Gathered.Plain := by
  unfold Gathered.add
  refine (hw.locate path).bind fun root hroot => yields_pure.2 ?_
  obtain ⟨hpacked, homissions⟩ :
      (PackedRoot.pack v w.files w.home root s.format hide s.outliner? got.omissions).1.Plain ∧
        (PackedRoot.pack v w.files w.home root s.format hide s.outliner? got.omissions).2.Plain :=
    PackedRoot.plain_pack hw.files hroot (plain_outliner? s) h.omissions
  have hcolon : EscapeFree ":\n" := escapeFree_literal rfl
  refine ⟨?_, List.forall_mem_append.2 ⟨h.files, hpacked.files⟩, homissions, fun r hr => ?_⟩
  · rw [List.forall_mem_append, List.forall_mem_singleton]
    exact ⟨h.trees, (hroot.append hcolon).append hpacked.tree⟩
  · rcases Option.or_eq_some_iff.1 hr with hr | ⟨-, hr⟩
    · exact h.first r hr
    · cases hr
      exact hroot

theorem plain_gather (hw : w.Plain) : Yields (gather w v s a) Gathered.Plain := by
  have hnothing : Gathered.Plain {} := ⟨by simp, by simp, ⟨by simp, by simp⟩, by simp⟩
  exact yields_foldlM hnothing fun got path _ hgot => hgot.add hw _ path

theorem escapeFree_of_mem_roots (ha : a.Plain) {root : Path} (h : root ∈ a.roots) : EscapeFree root.text := by
  unfold PackArguments.roots at h
  split at h
  · obtain rfl := List.mem_singleton.1 h
    exact escapeFree_literal rfl
  · exact ha.paths root h

theorem fails_gather (ha : a.Plain) : Fails (gather w v s a) Failure.Plain :=
  fails_foldlM fun _ _ hpath =>
    (World.fails_locate w (escapeFree_of_mem_roots ha hpath)).bind fun _ _ => fails_pure

/-! ## Changes -/

theorem escapeFree_revision (e : RevisionError) : Failure.Plain (.revision e) := by
  cases e <;> exact escapeFree_literal rfl

theorem fails_mapError_revision {α : Type} (x : Except RevisionError α) :
    Fails (x.mapError .revision) Failure.Plain := by
  exact fails_mapError fun e => escapeFree_revision e

theorem fails_sectionOf (pair : Option BranchPair) (ask : String → String → Except RevisionError String) :
    Fails (sectionOf pair ask) Failure.Plain := by
  unfold sectionOf
  split
  · exact fails_ok
  · exact fails_mapError_revision _

theorem escapeFree_sectionOf (pair : Option BranchPair) {ask : String → String → Except RevisionError String}
    (h : ∀ base tip, Yields (ask base tip) EscapeFree) : Yields (sectionOf pair ask) EscapeFree := by
  unfold sectionOf
  split
  · exact yields_ok.2 escapeFree_empty
  · exact (h _ _).mapError _

/-- What a repository says of its changes is free of escapes. -/
structure Changes.Plain (c : Changes) : Prop where
  diff : EscapeFree c.diff
  diffBranch : EscapeFree c.diffBranch
  logBranch : EscapeFree c.logBranch

theorem plain_changes (hw : w.Plain) (a : PackArguments) (repo : Path) (diffPair logPair : Option BranchPair) :
    Yields (changes w a repo diffPair logPair) Changes.Plain := by
  have hdiff : Yields (diffOf w a.diff repo) EscapeFree := by
    unfold diffOf
    split
    · exact (Repositories.escapeFree_diff hw.repositories hw.files).mapError _
    · exact yields_ok.2 escapeFree_empty
  unfold changes
  refine hdiff.bind fun diff hdiff => ?_
  refine (escapeFree_sectionOf diffPair fun _ _ => Repositories.escapeFree_diffBetween hw.repositories).bind ?_
  refine fun diffBranch hdiffBranch => ?_
  refine (escapeFree_sectionOf logPair fun _ _ => Repositories.escapeFree_logBetween hw.repositories).bind ?_
  exact fun logBranch hlogBranch => yields_pure.2 ⟨hdiff, hdiffBranch, hlogBranch⟩

theorem fails_changes (w : World) (a : PackArguments) (repo : Path) (diffPair logPair : Option BranchPair) :
    Fails (changes w a repo diffPair logPair) Failure.Plain := by
  have hdiff : Fails (diffOf w a.diff repo) Failure.Plain := by
    unfold diffOf
    split
    · exact fails_mapError_revision _
    · exact fails_ok
  unfold changes
  exact hdiff.bind fun _ _ => (fails_sectionOf _ _).bind fun _ _ => (fails_sectionOf _ _).bind fun _ _ => fails_pure

/-! ## Prompts -/

/-- The template of a pack, where it can be read, spells no escapes. -/
def PlainTemplate (w : World) (p : Plan) : Prop :=
  Yields (PromptTemplate.load w.files p.settings.template) PromptTemplate.Plain

/-- What the prompt is rendered from is free of escapes, and so is what is left out. -/
structure Material.Plain (m : Material) : Prop where
  template : m.template.Plain
  name : EscapeFree m.template.name
  context : m.context.Plain
  omissions : m.omissions.Plain

theorem plain_collect (hw : w.Plain) (hp : p.Plain) (htemplate : PlainTemplate w p) :
    Yields (collect w p a) Material.Plain := by
  have hload : Yields (PromptTemplate.load w.files p.settings.template) fun t => t.Plain ∧ EscapeFree t.name :=
    fun t ht => ⟨htemplate t ht, PromptTemplate.escapeFree_name_load hp.template t ht⟩
  have hany {α : Type} (x : Except Failure α) : Yields x fun _ => True := fun _ _ => trivial
  unfold collect
  refine (hany _).bind fun v _ => (hload.mapError _).bind fun t ht => (hany _).bind fun diffPair _ => ?_
  refine (hany _).bind fun logPair _ => (plain_gather hw).bind fun got hgot => ?_
  refine (plain_changes hw a _ diffPair logPair).bind fun found hfound => yields_pure.2 ?_
  have hroot : EscapeFree (got.first.getD ⟨""⟩).text := by
    cases hfirst : got.first with
    | none => exact escapeFree_empty
    | some root => exact hgot.first root hfirst
  have hgap : EscapeFree "\n\n" := escapeFree_literal rfl
  exact ⟨ht.1, ht.2, ⟨hroot, escapeFree_intercalate hgap hgot.trees, hgot.files, hfound.diff, hfound.diffBranch,
    hfound.logBranch⟩, hgot.omissions⟩

theorem fails_collect (hp : p.Plain) (ha : a.Plain) : Fails (collect w p a) Failure.Plain := by
  have hload : Fails ((PromptTemplate.load w.files p.settings.template).mapError .prompt) Failure.Plain :=
    (PromptTemplate.fails_load hp.template).mapError fun _ he => he
  unfold collect
  refine (fails_walker p a).bind fun v _ => hload.bind fun t _ => ?_
  refine (fails_branches _).bind fun diffPair _ => (fails_branches _).bind fun logPair _ => ?_
  exact (fails_gather ha).bind fun got _ => (fails_changes w a _ diffPair logPair).bind fun _ _ => fails_pure

theorem plain_prepare (hw : w.Plain) (hp : p.Plain) (htemplate : PlainTemplate w p) :
    Yields (prepare w p a) fun d => d.Plain ∧ d.omissions.Plain := by
  unfold prepare
  refine (plain_collect hw hp htemplate).bind fun m hm => ?_
  refine ((hm.template.render hm.context).mapError _).bind fun prompt hprompt => yields_pure.2 ?_
  exact ⟨⟨hprompt, hm.context.files⟩, hm.omissions⟩

theorem fails_prepare (hw : w.Plain) (hp : p.Plain) (ha : a.Plain) (htemplate : PlainTemplate w p) :
    Fails (prepare w p a) Failure.Plain := by
  unfold prepare
  refine (fails_collect hp ha).bind fun m hm => ?_
  have hname := (plain_collect hw hp htemplate m hm).name
  have hrender : Fails ((m.template.render m.context).mapError .prompt) Failure.Plain :=
    (PromptTemplate.fails_render hname m.context).mapError fun _ he => he
  exact hrender.bind fun _ _ => fails_pure

/-! ## Notes -/

theorem escapeFree_excludeNotes (hplain : g.noColor = true) {globs : List String}
    (h : ∀ glob ∈ globs, EscapeFree glob) : EscapeFree (excludeNotes g globs) := by
  have htitle : EscapeFree "Active exclude patterns:" := escapeFree_literal rfl
  have hindent : EscapeFree "  " := escapeFree_literal rfl
  refine (Delivery.escapeFree_statusNote hplain htitle).append (escapeFree_join fun line hline => ?_)
  obtain ⟨glob, hglob, rfl⟩ := List.mem_map.1 hline
  rw [if_pos hplain]
  exact (hindent.append (h glob hglob)).append escapeFree_newline

theorem escapeFree_omissionNotes (hplain : g.noColor = true) {o : Omissions} (h : o.Plain) :
    EscapeFree (omissionNotes g o) := by
  have hexcluded : EscapeFree "Excluded " := escapeFree_literal rfl
  have hfiles : EscapeFree " files in " := escapeFree_literal rfl
  have hdirs : EscapeFree " directories" := escapeFree_literal rfl
  have hindent : EscapeFree "  " := escapeFree_literal rfl
  have hcolon : EscapeFree ": " := escapeFree_literal rfl
  have hnumber := escapeFree_toString
  unfold omissionNotes
  split
  · exact escapeFree_empty
  · refine .append (.append (Delivery.escapeFree_statusNote hplain ?_) (escapeFree_join ?_)) (escapeFree_join ?_)
    · exact (((hexcluded.append (hnumber _)).append hfiles).append (hnumber _)).append hdirs
    · intro line hline
      obtain ⟨⟨ext, n⟩, hext, rfl⟩ := List.mem_map.1 hline
      exact (((hindent.append (h.extensions _ hext)).append hcolon).append (hnumber n)).append escapeFree_newline
    · intro line hline
      obtain ⟨f, hf, rfl⟩ := List.mem_map.1 hline
      exact (hindent.append (h.files f hf)).append escapeFree_newline

/-! ## Packs -/

/-- A dry run of a pack that gets as far as its prompt, is not quiet and prints no document. -/
def SaysDryRun (w : World) (g : GlobalOptions) (a : PackArguments) : Prop :=
  g.dryRun = true ∧ g.quiet = false ∧ a.json = false ∧ ∃ p d, plan w g a = .ok p ∧ prepare w p a = .ok d

theorem printsDocument_iff (hplan : plan w g a = .ok p) :
    Delivery.PrintsDocument (counter? w p.settings a) p.settings.delivery ↔ a.json = true := by
  obtain ⟨config, globs, -, -, rfl⟩ := plan_eq_ok_iff.1 hplan
  unfold Delivery.PrintsDocument counter? PackSettings.needsTokens
  constructor
  · exact fun h => h.2
  · intro hjson
    have hjson : (PackSettings.resolve a config g.verbose).delivery.json = true := hjson
    simp [hjson]

/-- Without colours a pack prints an escape exactly where it says in a dry run what would be delivered. -/
theorem run_plain_iff (hw : w.Plain) (ha : a.Plain) (htemplate : Yields (plan w g a) (PlainTemplate w))
    (hplain : g.noColor = true) : (run w g a).Plain ↔ ¬ SaysDryRun w g a := by
  unfold run
  cases hplan : plan w g a with
  | error e =>
    refine iff_of_true ⟨escapeFree_empty, escapeFree_empty, ?_⟩ (by simp [SaysDryRun, hplan])
    exact fails_error.2 (fails_plan w g a e hplan)
  | ok p =>
    have hp := plain_plan hw ha p hplan
    have ht := htemplate p hplan
    have hnotes : EscapeFree (if g.verbose then excludeNotes g p.excludes else "") := by
      split
      · exact escapeFree_excludeNotes hplain hp.excludes
      · exact escapeFree_empty
    dsimp only
    cases hprepare : prepare w p a with
    | error e =>
      refine iff_of_true ⟨escapeFree_empty, hnotes, ?_⟩ (by simp [SaysDryRun, hplan, hprepare])
      exact fails_error.2 (fails_prepare hw hp ha ht e hprepare)
    | ok d =>
      obtain ⟨hd, ho⟩ := plain_prepare hw hp ht d hprepare
      have hsummary : EscapeFree (if g.verbose then omissionNotes g d.omissions else "") := by
        split
        · exact escapeFree_omissionNotes hplain ho
        · exact escapeFree_empty
      dsimp only
      rw [Outcome.plain_notes_iff (hnotes.append hsummary),
        Delivery.deliver_plain_iff hd hplain hw.clipboard hp.output, Delivery.TellsOnly, printsDocument_iff hplan]
      simp [SaysDryRun, hplan, hprepare]

end Pack

end PromptPack
