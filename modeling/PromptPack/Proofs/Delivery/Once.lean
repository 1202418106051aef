import PromptPack.Proofs.Command.Pack
import PromptPack.Proofs.Prompt.Builtin
/-!
# A prompt is delivered once

Without the clipboard a prompt has one way out: the document on standard output, the output file, or standard output
as it is (`Delivery.deliveredOnce`). A pack has a counter wherever something is wanted that needs one, so that each
option of the command line is heeded (`Pack.heeded`).
-/

namespace PromptPack

open FileSystem CommandLine

variable {fs fs' : FileSystem} {p : Path}

/-! ## The output file -/

/-- The path leads to a file that holds the text. Elsewhere directories may stand where nothing stood before. -/
def HoldsText (fs fs' : FileSystem) (p : Path) (text : String) : Prop :=
  ∃ loc, fs'.place p = some ⟨loc, some (.file text.toUTF8)⟩ ∧
    ∀ other ≠ loc, fs'.lookup other = fs.lookup other ∨ fs.lookup other = none ∧ fs'.lookup other = some .dir

theorem holdsText_of_writeOutput {text : String} (h : writeOutput fs p text = (fs', .ok ())) : HoldsText fs fs' p text := by
  have hmade := makeParents_dirsMade fs p
  unfold writeOutput at h
  split at h
  · cases h
  · rename_i between heq
    rw [heq] at hmade
    split at h
    · rename_i hwrite
      cases h
      obtain ⟨loc, hplace, hkept⟩ := place_of_writeFile? hwrite
      refine ⟨loc, hplace, fun other hother => ?_⟩
      rw [hkept other hother]
      exact (hmade.lookup other).imp_right fun h => ⟨h.1, h.2.1⟩
    · cases h

/-! ## One way out -/

namespace Delivery

variable (d : Delivery) (counter : Option TokenCounter) (clipboard : Clipboard) (o : DeliveryOptions)
  (g : GlobalOptions) (fs : FileSystem)

/-- No text gets into the clipboard. -/
def WithoutClipboard (clipboard : Clipboard) (o : DeliveryOptions) : Prop :=
  o.noClipboard = true ∨ ∃ reason, clipboard = .broken reason

/-- A document is printed. -/
def PrintsDocument (counter : Option TokenCounter) (o : DeliveryOptions) : Prop := counter.isSome = true ∧ o.json = true

/-- The prompt got out one way: inside the document, to the output file or as it is, and not at all in a dry run. -/
structure DeliveredOnce (r : Outcome) : Prop where
  notCopied : r.copied = none
  document : ∀ c, counter = some c → o.json = true →
    r.result = .ok () ∧ r.out = PromptPack.document c d.prompt d.files d.omissions ++ "\n" ∧ r.files = fs
  dry : ¬ PrintsDocument counter o → g.dryRun = true → r.result = .ok () ∧ r.out = "" ∧ r.files = fs
  written : ¬ PrintsDocument counter o → g.dryRun = false → ∀ p, o.output = some p → r.out = "" ∧
    writeOutput fs p d.prompt = (r.files, r.result) ∧ (r.result = .ok () → HoldsText fs r.files p d.prompt) ∧
    ∀ e, r.result = .error e → IsWriteFailure p e
  printed : ¬ PrintsDocument counter o → g.dryRun = false → o.output = none →
    r.result = .ok () ∧ r.out = d.prompt ∧ r.files = fs

variable {d counter clipboard o g fs}

theorem copied_copyPrompt (h : WithoutClipboard clipboard o) : (d.copyPrompt clipboard o g).1 = none := by
  unfold copyPrompt
  rcases h with h | ⟨reason, rfl⟩
  · rw [if_pos h]
  · split <;> rfl

theorem copied_handOver (h : WithoutClipboard clipboard o) : (d.handOver clipboard o g fs).copied = none := by
  have hcopied : (d.copyPrompt clipboard o g).1 = none := copied_copyPrompt h
  unfold handOver
  cases o.output with
  | none => exact hcopied
  | some p => rcases hwrite : writeOutput fs p d.prompt with ⟨fs', _ | _⟩ <;> simp [hwrite, hcopied]

theorem handOver_printed (h : WithoutClipboard clipboard o) (houtput : o.output = none) :
    (d.handOver clipboard o g fs).result = .ok () ∧ (d.handOver clipboard o g fs).out = d.prompt ∧
      (d.handOver clipboard o g fs).files = fs := by
  have hcopied : (d.copyPrompt clipboard o g).1 = none := copied_copyPrompt h
  simp [handOver, houtput, hcopied]

theorem handOver_written (d : Delivery) (clipboard : Clipboard) (g : GlobalOptions) (fs : FileSystem)
    (houtput : o.output = some p) : (d.handOver clipboard o g fs).out = "" ∧
    writeOutput fs p d.prompt = ((d.handOver clipboard o g fs).files, (d.handOver clipboard o g fs).result) := by
  unfold handOver
  rcases hwrite : writeOutput fs p d.prompt with ⟨fs', _ | _⟩ <;> simp [houtput, hwrite]

/-- Without the clipboard and without a document a prompt goes to the output file or is printed, and in a dry run it
stays. -/
theorem handOverOrTell_deliveredOnce (h : WithoutClipboard clipboard o) (hprints : ¬ PrintsDocument counter o) :
    DeliveredOnce d counter o g fs (d.handOverOrTell clipboard o g fs) := by
  have hnone : ∀ c, counter = some c → o.json ≠ true := fun c hc hjson => hprints ⟨by rw [hc]; rfl, hjson⟩
  unfold handOverOrTell
  split
  · rename_i hdry
    exact {
      notCopied := rfl
      document c hc hjson := absurd hjson (hnone c hc)
      dry _ _ := ⟨rfl, rfl, rfl⟩
      written _ hwet := by simp [hdry] at hwet
      printed _ hwet := by simp [hdry] at hwet }
  · rename_i hdry
    exact {
      notCopied := copied_handOver h
      document c hc hjson := absurd hjson (hnone c hc)
      dry _ hdry' := absurd hdry' hdry
      written _ _ p houtput := by
        obtain ⟨hout, hwrite⟩ := handOver_written d clipboard g fs houtput
        refine ⟨hout, hwrite, fun hok => ?_, fun e he => ?_⟩
        · exact holdsText_of_writeOutput (hwrite.trans (by rw [hok]))
        · exact (writeOutput_error (hwrite.trans (by rw [he]))).2
      printed _ _ houtput := handOver_printed h houtput }

theorem deliveredOnce (h : WithoutClipboard clipboard o) :
    DeliveredOnce d counter o g fs (d.deliver counter clipboard o g fs) := by
  cases counter with
  | none => exact handOverOrTell_deliveredOnce h (by simp [PrintsDocument])
  | some c =>
    unfold deliver
    dsimp only
    split
    · rename_i hjson
      exact {
        notCopied := rfl
        document c' hc _ := by
          cases hc
          exact ⟨rfl, rfl, rfl⟩
        dry hprints := absurd ⟨rfl, hjson⟩ hprints
        written hprints := absurd ⟨rfl, hjson⟩ hprints
        printed hprints := absurd ⟨rfl, hjson⟩ hprints }
    · rename_i hjson
      -- What is said with the counter goes to standard error and changes nothing else.
      have honce : DeliveredOnce d (some c) o g fs (d.handOverOrTell clipboard o g fs) :=
        handOverOrTell_deliveredOnce h fun hprints => hjson hprints.2
      exact ⟨honce.notCopied, honce.document, honce.dry, honce.written, honce.printed⟩

end Delivery

/-! ## Every option is heeded -/

/-- The first text has the second in it. -/
def Says (text part : String) : Prop := ∃ before after, text = before ++ part ++ after

theorem Says.refl (text : String) : Says text text := ⟨"", "", by simp⟩

theorem Says.append_left {text part : String} (h : Says text part) (more : String) : Says (more ++ text) part := by
  obtain ⟨before, after, rfl⟩ := h
  exact ⟨more ++ before, after, by simp only [String.append_assoc]⟩

theorem Says.append_right {text part : String} (h : Says text part) (more : String) : Says (text ++ more) part := by
  obtain ⟨before, after, rfl⟩ := h
  exact ⟨before, after ++ more, by simp only [String.append_assoc]⟩

namespace Delivery

/-- With a counter standard error begins with what is counted. -/
theorem exists_err_deliver (d : Delivery) (c : TokenCounter) (clipboard : Clipboard) (o : DeliveryOptions) (g : GlobalOptions)
    (fs : FileSystem) : ∃ rest, (d.deliver (some c) clipboard o g fs).err = d.countNotes c o g ++ rest := by
  unfold deliver
  dsimp only
  split
  · exact ⟨"", by simp⟩
  · exact ⟨_, rfl⟩

/-- The line with the number of tokens. -/
def tokenLine (d : Delivery) (c : TokenCounter) (g : GlobalOptions) : String :=
  statusNote g .info (Text.grouped (c.count d.prompt) ++ " Tokens (Approximate)")

theorem countNotes_tokens {d : Delivery} {c : TokenCounter} {o : DeliveryOptions} {g : GlobalOptions}
    (h : o.showTokens = true) : Says (d.countNotes c o g) (d.tokenLine c g) := by
  rw [countNotes, if_pos h]
  exact (Says.refl _).append_right _

theorem countNotes_report {d : Delivery} {c : TokenCounter} {o : DeliveryOptions} {g : GlobalOptions}
    (h : o.report = true) : Says (d.countNotes c o g) (report c d.files) := by
  rw [countNotes, if_pos h]
  exact ((Says.refl _).append_left _).append_left _

end Delivery

namespace Pack

variable {w : World} {g : GlobalOptions} {a : PackArguments}

/-- Something is wanted that tokens are counted for. -/
def WantsTokens (s : PackSettings) : Prop :=
  s.delivery.json = true ∨ s.delivery.report = true ∨ s.delivery.showTokens = true

/-- A pack has a counter exactly where one is needed. -/
theorem exists_counter_iff (w : World) (s : PackSettings) (a : PackArguments) :
    (∃ c, counter? w s a = some c) ↔ WantsTokens s := by
  have hneeds : s.needsTokens = true ↔ WantsTokens s := by
    simp only [PackSettings.needsTokens, WantsTokens, Bool.or_eq_true]
    tauto
  rw [← hneeds, counter?]
  split <;> simp_all

/-- What was asked of a pack on its command line is there: the document, the report and the number of tokens. -/
structure Heeded (g : GlobalOptions) (a : PackArguments) (d : Delivery) (c : TokenCounter) (r : Outcome) : Prop where
  document : a.json = true → r.out = PromptPack.document c d.prompt d.files d.omissions ++ "\n"
  report : a.report = true ∨ g.verbose = true → Says r.err (PromptPack.report c d.files)
  tokens : a.noTokens = false → Says r.err (d.tokenLine c g)

theorem run_of_prepare {p : Plan} {d : Delivery} (hplan : plan w g a = .ok p) (hprepare : prepare w p a = .ok d) :
    ∃ notes, let r := d.deliver (counter? w p.settings a) w.clipboard p.settings.delivery g w.files
      run w g a = { r with err := notes ++ r.err } := by
  unfold run
  simp only [hplan, hprepare]
  exact ⟨_, rfl⟩

/-- A pack that prepares its prompt delivers it with a counter wherever one is needed. -/
theorem heeded {p : Plan} {d : Delivery} (hplan : plan w g a = .ok p) (hprepare : prepare w p a = .ok d)
    (hwants : WantsTokens p.settings) : ∃ c, counter? w p.settings a = some c ∧ Heeded g a d c (run w g a) := by
  obtain ⟨config, globs, -, -, hp⟩ := plan_eq_ok_iff.1 hplan
  have hsettings : p.settings = PackSettings.resolve a config g.verbose := by rw [hp]
  obtain ⟨notes, hrun⟩ := run_of_prepare hplan hprepare
  obtain ⟨c, hc⟩ := (exists_counter_iff w p.settings a).2 hwants
  obtain ⟨rest, herr⟩ := d.exists_err_deliver c w.clipboard p.settings.delivery g w.files
  have hsays {part : String} (h : Says (d.countNotes c p.settings.delivery g) part) : Says (run w g a).err part := by
    rw [hrun, hc]
    dsimp only
    rw [herr]
    exact (h.append_right rest).append_left notes
  refine ⟨c, hc, fun hjson => ?_, fun hreport => ?_, fun htokens => ?_⟩
  · have hjson' : p.settings.delivery.json = true := by rw [hsettings]; exact hjson
    rw [hrun, hc]
    simp [Delivery.deliver, hjson']
  · exact hsays (Delivery.countNotes_report (by rw [hsettings]; simpa [PackSettings.resolve] using hreport))
  · exact hsays (Delivery.countNotes_tokens (by rw [hsettings]; simpa [PackSettings.resolve] using htokens))

/-- Where no text gets into the clipboard, a prompt is delivered once, and standard output carries it or the document
and nothing else. Whatever settings a pack resolves to, it has a counter exactly where something is wanted that needs
one. With that counter it delivers the prompt that it prepared, so what was asked for is there. -/
theorem prompt_delivered_once :
    (∀ (d : Delivery) (counter : Option TokenCounter) (clipboard : Clipboard) (o : DeliveryOptions) (g : GlobalOptions)
      (fs : FileSystem), Delivery.WithoutClipboard clipboard o →
        Delivery.DeliveredOnce d counter o g fs (d.deliver counter clipboard o g fs)) ∧
    (∀ (w : World) (a : PackArguments) (config : Config) (verbose : Bool),
      let s := PackSettings.resolve a config verbose
      (∃ c, counter? w s a = some c) ↔ WantsTokens s) ∧
    ∀ (w : World) (g : GlobalOptions) (a : PackArguments) (p : Plan) (d : Delivery),
      plan w g a = .ok p → prepare w p a = .ok d →
        (∃ config, p.settings = PackSettings.resolve a config g.verbose) ∧
        (∃ notes, let r := d.deliver (counter? w p.settings a) w.clipboard p.settings.delivery g w.files
          run w g a = { r with err := notes ++ r.err }) ∧
        (WantsTokens p.settings → ∃ c, counter? w p.settings a = some c ∧ Heeded g a d c (run w g a)) := by
  refine ⟨fun _ _ _ _ _ _ => Delivery.deliveredOnce, fun w a config verbose => exists_counter_iff w _ a, ?_⟩
  intro w g a p d hplan hprepare
  obtain ⟨config, globs, -, -, hp⟩ := plan_eq_ok_iff.1 hplan
  exact ⟨⟨config, by rw [hp]⟩, run_of_prepare hplan hprepare, heeded hplan hprepare⟩

/-! ## An empty project -/

/-- A pack with the built-in template that asks for no changes is prepared once its roots are there. -/
theorem exists_prepare {p : Plan} {v : Walker} {roots : List Path} (hwalker : walker p a = .ok v)
    (hroots : List.Forall₂ (fun path root => w.files.canonical? path = some root) a.roots roots)
    (htemplate : p.settings.template = none) (hdiff : a.diff = false) (hdiffBranches : a.diffBranches = none)
    (hlogBranches : a.logBranches = none) : ∃ d, prepare w p a = .ok d := by
  have hload : PromptTemplate.load w.files p.settings.template = .ok PromptTemplate.builtin := by rw [htemplate]; rfl
  have hnone : branches none = .ok none := rfl
  have hchanges : changes w a (repository w a) none none = .ok ⟨"", "", ""⟩ := by
    simp [changes, diffOf, hdiff, sectionOf, bind, Except.bind, pure, Except.pure]
  have hparse : Template.parse? PromptTemplate.builtin.source = some PromptTemplate.builtinNodes :=
    PromptTemplate.parse?_builtinSource
  have hrender (c : PromptContext) : PromptTemplate.builtin.render c = .ok c.plainText := by
    rw [PromptTemplate.render, hparse]
    simp only [PromptTemplate.render_builtinNodes]
  exact ⟨_, prepare_eq_ok_iff.2 ⟨_, _, collect_eq_ok_iff.2 ⟨v, _, none, none, _, _, hwalker, hload, hdiffBranches ▸ hnone,
    hlogBranches ▸ hnone, gather_eq_ok_iff.2 ⟨roots, hroots, rfl⟩, hchanges, rfl⟩, hrender _, rfl⟩⟩

end Pack

/-- No path leads to a file where there are no items. -/
theorem FileSystem.isFile_of_empty (h : fs.items = []) (p : Path) : fs.isFile p = false := by
  have hlookup (loc : Location) (bytes : ByteArray) : fs.lookup loc ≠ some (.file bytes) := by
    unfold lookup
    split <;> simp [h]
  unfold isFile item?
  cases hplace : fs.place p with
  | none => rfl
  | some found =>
    rw [Option.bind_some]
    split
    · rename_i bytes hitem
      exact absurd ((lookup_of_place hplace).trans hitem) (hlookup _ _)
    · rfl

namespace Pack

theorem config_of_empty {w : World} (h : w.files.items = []) (henv : w.environment = []) : w.config = .ok {} := by
  have hfile := isFile_of_empty h
  have hlocate (p : Path) : Config.locate? w.files p = none := by
    rw [Config.locate?, if_neg (by simp [hfile])]
    exact List.find?_eq_none.2 (by simp [hfile])
  have hlayer (p : Path) : Config.fileLayer w.files p = .ok [] := by rw [Config.fileLayer, hlocate]
  have hmerged : Config.ofLayer (Config.merge ([[], []] ++ [Config.environmentLayer []])) = .ok {} := rfl
  rw [World.config, World.configPaths, Config.load, henv]
  simp only [List.mapM_cons, List.mapM_nil, hlayer]
  exact congrArg (Except.mapError _) hmerged

theorem excludeGlobs_of_empty {w : World} (h : w.files.items = []) : w.excludeGlobs none true = .ok [] := by
  have hfile := isFile_of_empty h
  have hnone (dir : Path) (loc : Location) : Exclusion.patternFiles w.files dir loc = [] := by
    simp [Exclusion.patternFiles, h]
  have hdirectory (dir : Path) : Exclusion.readDirectory w.files dir = .ok [] := by
    unfold Exclusion.readDirectory
    split
    · simp [hnone]
      rfl
    · rfl
  rw [World.excludeGlobs, Exclusion.resolve]
  simp [hfile, hdirectory]
  rfl

/-- An empty project packed to a document in spite of an output file: the document is printed, and no file is written. -/
theorem document_of_empty_project :
    let w : World :=
      { files := { items := [], cwd := [] }, home := ⟨"/"⟩, encoder := fun _ _ => [], scripts := fun _ => "" }
    let a : PackArguments := { json := true, noDefaultExcludes := true, output := some ⟨"out.md"⟩ }
    ∃ p d c, plan w {} a = .ok p ∧ prepare w p a = .ok d ∧ Delivery.WithoutClipboard w.clipboard p.settings.delivery ∧
      WantsTokens p.settings ∧ (run w {} a).out = document c d.prompt d.files d.omissions ++ "\n" ∧
      (d.deliver (some c) w.clipboard p.settings.delivery {} w.files).files = w.files := by
  intro w a
  let p : Plan := ⟨PackSettings.resolve a {} false, []⟩
  have hplan : plan w {} a = .ok p := plan_eq_ok_iff.2 ⟨_, _, config_of_empty rfl rfl, excludeGlobs_of_empty rfl, rfl⟩
  have hroot : w.files.canonical? ⟨"."⟩ = some ⟨"/"⟩ := by cbv
  obtain ⟨v, hwalker⟩ : ∃ v, walker p a = .ok v := ⟨_, rfl⟩
  obtain ⟨d, hprepare⟩ := exists_prepare hwalker (.cons hroot .nil) rfl rfl rfl rfl
  have hclipboard : Delivery.WithoutClipboard w.clipboard p.settings.delivery := .inr ⟨_, rfl⟩
  have hwants : WantsTokens p.settings := .inl rfl
  obtain ⟨hdelivered, -, hpack⟩ := prompt_delivered_once
  obtain ⟨-, -, hheeded⟩ := hpack w {} a p d hplan hprepare
  obtain ⟨c, -, hdocument, -, -⟩ := hheeded hwants
  exact ⟨p, d, c, hplan, hprepare, hclipboard, hwants, hdocument rfl,
    ((hdelivered d (some c) w.clipboard p.settings.delivery {} w.files hclipboard).document c rfl rfl).2.2⟩

end Pack

end PromptPack
