import Mathlib
import PromptPack.Command.Pack
import PromptPack.Proofs.Delivery.Effects
import PromptPack.Proofs.Packing.Accounts
import PromptPack.Proofs.Walk.Globs
/-!
# Packs that fail

A pack either fails while its prompt is being made, and then it leaves nothing behind, or it delivers the prompt
(`run_cases`). Everything that can go wrong with what it is given, from a malformed pair of branches to a template
that cannot be rendered, goes wrong before the delivery (`undelivered_of_fault`).
-/

namespace PromptPack

/-! ## Results in turn -/

theorem bind_eq_ok_iff {ε α β : Type} {x : Except ε α} {f : α → Except ε β} {b : β} :
    x >>= f = .ok b ↔ ∃ a, x = .ok a ∧ f a = .ok b := by
  cases x <;> simp [bind, Except.bind]

theorem mapError_eq_ok_iff {ε ε' α : Type} {x : Except ε α} {f : ε → ε'} {a : α} :
    x.mapError f = .ok a ↔ x = .ok a := by
  cases x <;> simp [Except.mapError]

namespace Pack

open CommandLine PackedRoot

variable {w : World} {g : GlobalOptions} {a : PackArguments}

/-! ## The stages -/

theorem plan_eq_ok_iff {p : Plan} : plan w g a = .ok p ↔
    ∃ config globs, w.config = .ok config ∧ w.excludeGlobs a.patternFile a.noDefaultExcludes = .ok globs ∧
      p = ⟨PackSettings.resolve a config g.verbose, globs ++ config.excludes ++ a.excludes⟩ := by
  unfold plan
  simp only [bind_eq_ok_iff, mapError_eq_ok_iff, pure, Except.pure, Except.ok.injEq, exists_and_left, eq_comm (b := p)]

theorem output_of_plan {p : Plan} (h : plan w g a = .ok p) : p.settings.delivery.output = a.output := by
  obtain ⟨config, globs, -, -, rfl⟩ := plan_eq_ok_iff.1 h
  rfl

theorem parses_of_walker {p : Plan} {v : Walker} (h : walker p a = .ok v) :
    (∀ glob ∈ p.excludes, ∃ q, Glob.parse glob = .ok q) ∧ ∀ glob ∈ a.includes, ∃ q, Glob.parse glob = .ok q := by
  unfold walker at h
  simp only [bind_eq_ok_iff, mapError_eq_ok_iff] at h
  obtain ⟨base, hbase, kept, hkept, -⟩ := h
  refine ⟨fun glob hglob => ?_, fun glob hglob => ?_⟩
  · exact exists_compileGlobs_iff.1 ⟨_, (Walker.compiled_of_ofExcludes hbase).1⟩ glob (List.mem_append_left _ hglob)
  · unfold Walker.withIncludes at hkept
    rw [if_neg (by simpa using List.ne_nil_of_mem hglob)] at hkept
    cases hcompiled : compileGlobs a.includes with
    | error e =>
      rw [hcompiled] at hkept
      cases hkept
    | ok patterns => exact exists_compileGlobs_iff.1 ⟨_, hcompiled⟩ glob hglob

theorem branches_eq_ok_iff {spec : Option String} {pair : Option BranchPair} : branches spec = .ok pair ↔
    pair = spec.bind BranchPair.parse? ∧ ∀ s, spec = some s → BranchPair.parse? s ≠ none := by
  cases spec with
  | none => simp [branches, eq_comm]
  | some s => cases hpair : BranchPair.parse? s <;> simp [branches, hpair, eq_comm]

theorem add_eq_ok_iff {got got' : Gathered} {v : Walker} {s : PackSettings} {hide : Bool} {path : Path} :
    got.add w v s hide path = .ok got' ↔ ∃ root, w.files.canonical? path = some root ∧
      let (packed, omissions) := PackedRoot.pack v w.files w.home root s.format hide s.outliner? got.omissions
      got' = ⟨got.trees ++ [root.text ++ ":\n" ++ packed.tree], got.files ++ packed.files, omissions,
        got.first.or (some root)⟩ := by
  unfold Gathered.add World.locate
  cases w.files.canonical? path with
  | none => simp [bind, Except.bind]
  | some root => simp [bind, Except.bind, pure, Except.pure, eq_comm]

/-- What is gathered once roots are packed one behind the other. -/
def Gathered.addAll (got : Gathered) (w : World) (v : Walker) (s : PackSettings) (hide : Bool) (roots : List Path) :
    Gathered :=
  let (packed, omissions) := packAll v w.files w.home s.format hide s.outliner? roots got.omissions
  ⟨got.trees ++ List.zipWith (fun root packed => root.text ++ ":\n" ++ packed.tree) roots packed,
    got.files ++ packed.flatMap (·.files), omissions, got.first.or roots.head?⟩

theorem foldlM_add_eq_ok_iff {got got' : Gathered} {v : Walker} {s : PackSettings} {hide : Bool} {paths : List Path} :
    paths.foldlM (fun got path => got.add w v s hide path) got = .ok got' ↔
      ∃ roots, List.Forall₂ (fun path root => w.files.canonical? path = some root) paths roots ∧
        got' = got.addAll w v s hide roots := by
  induction paths generalizing got with
  | nil => simp [pure, Except.pure, Gathered.addAll, packAll, eq_comm]
  | cons path rest ih =>
    simp only [List.foldlM_cons, bind_eq_ok_iff, add_eq_ok_iff, ih]
    constructor
    · rintro ⟨_, ⟨root, hroot, rfl⟩, roots, hroots, rfl⟩
      refine ⟨root :: roots, .cons hroot hroots, ?_⟩
      simp [Gathered.addAll, packAll]
    · rintro ⟨_ | ⟨root, roots⟩, hroots, rfl⟩
      · cases hroots
      · rw [List.forall₂_cons] at hroots
        refine ⟨_, ⟨root, hroots.1, rfl⟩, roots, hroots.2, ?_⟩
        simp [Gathered.addAll, packAll]

/-- The roots of a pack are found one and all, and packed one behind the other. -/
theorem gather_eq_ok_iff {v : Walker} {s : PackSettings} {got : Gathered} : gather w v s a = .ok got ↔
    ∃ roots, List.Forall₂ (fun path root => w.files.canonical? path = some root) a.roots roots ∧
      got = Gathered.addAll {} w v s a.excludeFromTree roots :=
  foldlM_add_eq_ok_iff

/-- The directory whose repository is asked. -/
def repository (w : World) (a : PackArguments) : Path :=
  repositoryPath w ((a.roots.head?.bind w.files.canonical?).getD ⟨""⟩)

theorem repository_eq_of_gather {v : Walker} {s : PackSettings} {got : Gathered} (h : gather w v s a = .ok got) :
    repositoryPath w (got.first.getD ⟨""⟩) = repository w a := by
  obtain ⟨roots, hroots, rfl⟩ := gather_eq_ok_iff.1 h
  unfold repository
  generalize a.roots = paths at hroots ⊢
  cases hroots with
  | nil => rfl
  | cons hroot _ => simp [Gathered.addAll, hroot]

theorem sectionOf_eq_ok_iff {pair : Option BranchPair} {ask : String → String → Except RevisionError String}
    {text : String} : sectionOf pair ask = .ok text ↔
      pair = none ∧ text = "" ∨ ∃ b, pair = some b ∧ ask b.base b.tip = .ok text := by
  cases pair <;> simp [sectionOf, mapError_eq_ok_iff, eq_comm]

/-- What the repository was asked was answered. -/
theorem answers_of_changes {repo : Path} {diffPair logPair : Option BranchPair} {found : Changes}
    (h : changes w a repo diffPair logPair = .ok found) :
    (a.diff = true → ∃ text, w.repositories.diff w.files repo = .ok text) ∧
      (∀ b, diffPair = some b → ∃ text, w.repositories.diffBetween w.files repo b.base b.tip = .ok text) ∧
      ∀ b, logPair = some b → ∃ text, w.repositories.logBetween w.files repo b.base b.tip = .ok text := by
  unfold changes at h
  simp only [bind_eq_ok_iff, sectionOf_eq_ok_iff] at h
  obtain ⟨diff, hdiff, diffBranch, hdiffBranch, logBranch, hlogBranch, -⟩ := h
  refine ⟨fun hwanted => ?_, ?_, ?_⟩
  · rw [diffOf, if_pos hwanted, mapError_eq_ok_iff] at hdiff
    exact ⟨diff, hdiff⟩
  · rintro b rfl
    exact ⟨diffBranch, by simpa using hdiffBranch⟩
  · rintro b rfl
    exact ⟨logBranch, by simpa using hlogBranch⟩

theorem collect_eq_ok_iff {p : Plan} {m : Material} : collect w p a = .ok m ↔
    ∃ v template diffPair logPair got found, walker p a = .ok v ∧
      PromptTemplate.load w.files p.settings.template = .ok template ∧
      branches a.diffBranches = .ok diffPair ∧ branches a.logBranches = .ok logPair ∧
      gather w v p.settings a = .ok got ∧ changes w a (repository w a) diffPair logPair = .ok found ∧
      m = ⟨template, ⟨(got.first.getD ⟨""⟩).text, String.intercalate "\n\n" got.trees, got.files, found.diff,
        found.diffBranch, found.logBranch⟩, got.omissions⟩ := by
  unfold collect
  simp only [bind_eq_ok_iff, mapError_eq_ok_iff, pure, Except.pure, Except.ok.injEq, eq_comm (b := m)]
  constructor
  · rintro ⟨v, hv, template, htemplate, diffPair, hdiff, logPair, hlog, got, hgot, found, hfound, hm⟩
    rw [repository_eq_of_gather hgot] at hfound
    exact ⟨v, template, diffPair, logPair, got, found, hv, htemplate, hdiff, hlog, hgot, hfound, hm⟩
  · rintro ⟨v, template, diffPair, logPair, got, found, hv, htemplate, hdiff, hlog, hgot, hfound, hm⟩
    rw [← repository_eq_of_gather hgot] at hfound
    exact ⟨v, hv, template, htemplate, diffPair, hdiff, logPair, hlog, got, hgot, found, hfound, hm⟩

theorem prepare_eq_ok_iff {p : Plan} {d : Delivery} : prepare w p a = .ok d ↔
    ∃ m prompt, collect w p a = .ok m ∧ m.template.render m.context = .ok prompt ∧
      d = ⟨prompt, m.context.files, m.omissions⟩ := by
  unfold prepare
  simp only [bind_eq_ok_iff, mapError_eq_ok_iff, pure, Except.pure, Except.ok.injEq, exists_and_left, eq_comm (b := d)]

/-! ## The run -/

/-- The outcome of a run that failed and left nothing behind but notes. -/
def Undelivered (r : Outcome) (fs : FileSystem) : Prop :=
  (∃ e, r.result = .error e) ∧ r.out = "" ∧ r.files = fs ∧ r.copied = none

/-- A pack fails and leaves nothing behind, or its prompt is prepared and delivered. -/
theorem run_cases (w : World) (g : GlobalOptions) (a : PackArguments) : Undelivered (run w g a) w.files ∨
    ∃ p d notes, plan w g a = .ok p ∧ prepare w p a = .ok d ∧
      let r := d.deliver (counter? w p.settings a) w.clipboard p.settings.delivery g w.files
      run w g a = { r with err := notes ++ r.err } := by
  unfold run
  cases hplan : plan w g a with
  | error e => exact .inl ⟨⟨e, rfl⟩, rfl, rfl, rfl⟩
  | ok p =>
    dsimp only
    cases hprepare : prepare w p a with
    | error e => exact .inl ⟨⟨e, rfl⟩, rfl, rfl, rfl⟩
    | ok d => exact .inr ⟨p, d, _, rfl, hprepare, rfl⟩

/-- What can go wrong before a prompt is delivered. -/
inductive Fault (w : World) (g : GlobalOptions) (a : PackArguments) : Prop
  | configuration {e} (h : w.config = .error e)
  /-- The pattern file of the command line, or one of the user's own. -/
  | patterns {e} (h : w.excludeGlobs a.patternFile a.noDefaultExcludes = .error e)
  | patternFile {file} (h : a.patternFile = some file) (unreadable : w.files.readText? file = none)
  | excludeGlob {p glob e} (planned : plan w g a = .ok p) (h : glob ∈ p.excludes) (bad : Glob.parse glob = .error e)
  | includeGlob {glob e} (h : glob ∈ a.includes) (bad : Glob.parse glob = .error e)
  | template {p file} (planned : plan w g a = .ok p) (h : p.settings.template = some file)
    (unreadable : w.files.readText? file = none)
  | branches {spec} (h : a.diffBranches = some spec ∨ a.logBranches = some spec) (bad : BranchPair.parse? spec = none)
  | root {path} (h : path ∈ a.roots) (missing : w.files.canonical? path = none)
  | diff {e} (h : a.diff = true) (failed : w.repositories.diff w.files (repository w a) = .error e)
  | diffBranches {spec pair e} (h : a.diffBranches = some spec) (named : BranchPair.parse? spec = some pair)
    (failed : w.repositories.diffBetween w.files (repository w a) pair.base pair.tip = .error e)
  | logBranches {spec pair e} (h : a.logBranches = some spec) (named : BranchPair.parse? spec = some pair)
    (failed : w.repositories.logBetween w.files (repository w a) pair.base pair.tip = .error e)
  | rendering {p m e} (planned : plan w g a = .ok p) (collected : collect w p a = .ok m)
    (failed : m.template.render m.context = .error e)

/-- A prompt that was prepared met no fault on the way. -/
theorem not_fault_of_prepare {p : Plan} {d : Delivery} (hplan : plan w g a = .ok p) (hprepare : prepare w p a = .ok d) :
    ¬ Fault w g a := by
  obtain ⟨config, globs, hconfig, hglobs, hp⟩ := plan_eq_ok_iff.1 hplan
  obtain ⟨m, prompt, hcollect, hrender, -⟩ := prepare_eq_ok_iff.1 hprepare
  obtain ⟨v, template, diffPair, logPair, got, found, hwalker, htemplate, hdiff, hlog, hgather, hchanges, -⟩ :=
    collect_eq_ok_iff.1 hcollect
  obtain ⟨hexcludes, hincludes⟩ := parses_of_walker hwalker
  obtain ⟨roots, hroots, -⟩ := gather_eq_ok_iff.1 hgather
  obtain ⟨rfl, hdiffNamed⟩ := branches_eq_ok_iff.1 hdiff
  obtain ⟨rfl, hlogNamed⟩ := branches_eq_ok_iff.1 hlog
  obtain ⟨hasked, hdiffAsked, hlogAsked⟩ := answers_of_changes hchanges
  -- Each fault is in the way of a stage that went well.
  intro fault
  cases fault with
  | configuration h => simp [h] at hconfig
  | patterns h => simp [h] at hglobs
  | patternFile h unreadable => simp [World.excludeGlobs, Exclusion.resolve, Exclusion.readGlobs, h, unreadable] at hglobs
  | excludeGlob planned h bad =>
    obtain rfl := Except.ok.inj (hplan.symm.trans planned)
    obtain ⟨q, hq⟩ := hexcludes _ h
    simp [bad] at hq
  | includeGlob h bad =>
    obtain ⟨q, hq⟩ := hincludes _ h
    simp [bad] at hq
  | template planned h unreadable =>
    obtain rfl := Except.ok.inj (hplan.symm.trans planned)
    simp [PromptTemplate.load, h, unreadable] at htemplate
  | branches h bad =>
    rcases h with h | h
    · exact hdiffNamed _ h bad
    · exact hlogNamed _ h bad
  | root h missing =>
    have hfound : ∀ path ∈ a.roots, (w.files.canonical? path).isSome = true :=
      ((List.forall₂_and_left _ _).1 (hroots.imp fun _ _ hroot => ⟨by rw [hroot]; rfl, hroot⟩)).1
    simpa [missing] using hfound _ h
  | diff h failed =>
    obtain ⟨text, htext⟩ := hasked h
    simp [failed] at htext
  | diffBranches h named failed =>
    obtain ⟨text, htext⟩ := hdiffAsked _ (by rw [h, Option.bind_some, named])
    simp [failed] at htext
  | logBranches h named failed =>
    obtain ⟨text, htext⟩ := hlogAsked _ (by rw [h, Option.bind_some, named])
    simp [failed] at htext
  | rendering planned collected failed =>
    obtain rfl := Except.ok.inj (hplan.symm.trans planned)
    obtain rfl := Except.ok.inj (hcollect.symm.trans collected)
    simp [failed] at hrender

theorem undelivered_of_fault (h : Fault w g a) : Undelivered (run w g a) w.files := by
  rcases run_cases w g a with hundelivered | ⟨p, d, notes, hplan, hprepare, -⟩
  · exact hundelivered
  · exact absurd h (not_fault_of_prepare hplan hprepare)

end Pack

end PromptPack
