import PromptPack.Command.Run
import PromptPack.Proofs.EscapeFree.Pack
/-!
# Runs without escapes

Without colours a run in a plain world prints no escape, whatever the command and however it ends, but for two notes:
what a dry run of a pack or of a tree says it would do is in colour all the same
(`Invocation.no_escapes_iff`).
-/

namespace PromptPack

open CommandLine

variable {w : World} {g : GlobalOptions}

theorem World.plain_failed {e : Failure} (w : World) (h : e.Plain) : (w.failed e).Plain :=
  ⟨escapeFree_empty, escapeFree_empty, fails_error.2 h⟩

theorem World.plain_printed_iff {out : String} (w : World) : (w.printed out).Plain ↔ EscapeFree out :=
  ⟨fun h => h.out, fun h => ⟨h, escapeFree_empty, fails_ok⟩⟩

/-! ## Outlines -/

namespace Outline

theorem escapeFree_lowerAscii {s : String} (h : EscapeFree s) : EscapeFree (Text.lowerAscii s) := by
  have hlower (c : Char) (hc : c.toLower = escapeMark) : c = escapeMark := by
    unfold Char.toLower at hc
    split at hc
    · rename_i hupper
      have hcode := congrArg (fun c => c.val.toNat) hc
      have hlow : 65 ≤ c.toNat := UInt32.le_iff_toNat_le.1 hupper.1
      have hhigh : c.toNat ≤ 90 := UInt32.le_iff_toNat_le.1 hupper.2
      simp [escapeMark] at hcode
      omega
    · exact hc
  rw [Text.lowerAscii, escapeFree_ofList, List.mem_map]
  rintro ⟨c, hc, hmark⟩
  exact h (hlower c hmark ▸ hc)

theorem fails_ofName {name : String} (h : EscapeFree name) :
    Fails (Language.ofName name) fun e => EscapeFree e.message := by
  unfold Language.ofName
  split
  · exact fails_ok
  · exact fails_error.2 ((escapeFree_literal rfl : EscapeFree "unsupported language: ").append h)

theorem fails_identify {p : Path} (h : EscapeFree p.text) :
    Fails (Language.identify p) fun e => EscapeFree e.message := by
  have hext : EscapeFree (Text.lowerAscii (p.extension?.getD "")) := by
    refine escapeFree_lowerAscii ?_
    cases hext : p.extension? with
    | none => exact escapeFree_empty
    | some ext => exact Path.escapeFree_extension h hext
  unfold Language.identify
  dsimp only
  split
  · exact fails_ok
  · refine fails_error.2 ((escapeFree_literal rfl : EscapeFree "unsupported file extension: ").append ?_)
    split
    · exact escapeFree_empty
    · exact (escapeFree_literal rfl : EscapeFree ".").append hext

end Outline

namespace Compress

open Outline

theorem escapeFree_outline (hw : w.Plain) (forced : Option Language) (p : Path) :
    Yields (outline w forced p) EscapeFree := by
  have hread : Yields (w.files.readContent p) fun c => EscapeFree c.text := fun c hc => hw.files.of_readContent hc
  unfold outline
  refine (hread.mapError _).bind fun content hcontent => ?_
  have houtline (language : Language) :
      Yields ((compress language content.text).mapError fun _ => Failure.uncompressed p) EscapeFree := by
    have hcompress : Yields (compress language content.text) EscapeFree := fun _ => escapeFree_compress hcontent
    exact hcompress.mapError _
  have hany (x : Except Failure Language) : Yields x fun _ => True := fun _ _ => trivial
  split
  · exact (hany _).bind fun language _ => houtline language
  · exact (hany _).bind fun language _ => houtline language

theorem fails_outline {p : Path} (w : World) (forced : Option Language) (hp : EscapeFree p.text) :
    Fails (outline w forced p) Failure.Plain := by
  have hread : Failure.Plain (.unreadable p) :=
    (escapeFree_literal rfl : EscapeFree "Failed to read ").append hp
  have houtline : Failure.Plain (.uncompressed p) :=
    (escapeFree_literal rfl : EscapeFree "Failed to compress ").append hp
  have hidentify : Fails ((Language.identify p).mapError .outline) Failure.Plain :=
    (fails_identify hp).mapError fun _ he => he
  unfold outline
  refine (fails_mapError fun _ => hread).bind fun content _ => ?_
  split
  · exact fails_ok.bind fun language _ => fails_mapError fun _ => houtline
  · exact hidentify.bind fun language _ => fails_mapError fun _ => houtline

theorem escapeFree_header {p : Path} (place : Nat) (hp : EscapeFree p.text) : EscapeFree (header place p) := by
  have hfirst : EscapeFree (if place == 0 then "" else "\n") := by split <;> exact escapeFree_literal rfl
  have harrow : EscapeFree "==> " := escapeFree_literal rfl
  have hend : EscapeFree " <==\n" := escapeFree_literal rfl
  exact ((hfirst.append harrow).append hp).append hend

theorem plain_printFrom (hw : w.Plain) (forced : Option Language) (many : Bool) {files : List Path}
    (h : ∀ p ∈ files, EscapeFree p.text) (place : Nat) :
    EscapeFree (printFrom w forced many place files).1 ∧
      Fails (printFrom w forced many place files).2 Failure.Plain := by
  induction files generalizing place with
  | nil => exact ⟨escapeFree_empty, fails_ok⟩
  | cons p rest ih =>
    rw [List.forall_mem_cons] at h
    unfold printFrom
    split
    · rename_i e he
      exact ⟨escapeFree_empty, fails_error.2 (fails_outline w forced h.1 e he)⟩
    · rename_i text htext
      obtain ⟨hmore, hresult⟩ := ih h.2 (place + 1)
      refine ⟨(EscapeFree.append ?_ (escapeFree_outline hw forced p text htext)).append hmore, hresult⟩
      split
      · exact escapeFree_header place h.1
      · exact escapeFree_empty

theorem escapeFree_of_mem_expand (hw : w.Plain) {v : Walker} {forced : Bool} {input p : Path}
    (hinput : EscapeFree input.text) (hp : p ∈ expand w v forced input) : EscapeFree p.text := by
  unfold expand at hp
  split at hp
  · obtain ⟨e, he, rfl⟩ := List.mem_map.1 (List.mem_filter.1 hp).1
    exact (Walker.plain_of_mem_walk hw.files hinput (List.mem_filter.1 he).1).path
  · obtain rfl := List.mem_singleton.1 hp
    exact hinput

theorem fails_forcedLanguage {name : Option String} (h : ∀ s ∈ name, EscapeFree s) :
    Fails (forcedLanguage name) Failure.Plain := by
  unfold forcedLanguage
  split
  · exact fails_ok
  · exact ((fails_ofName (h _ rfl)).map some).mapError fun _ he => he

theorem run_plain (hw : w.Plain) {a : CompressArguments} (ha : a.Plain) (g : GlobalOptions) : (run w g a).Plain := by
  have hwalker : Fails (Walker.ofExcludes Glob.builtin) fun e => EscapeFree e.message :=
    Walker.fails_ofExcludes fun _ => Glob.escapeFree_of_mem_builtin
  unfold run
  -- The built-in globs are not to be compiled here.
  generalize Walker.ofExcludes Glob.builtin = base at hwalker ⊢
  cases hforced : forcedLanguage a.language with
  | error e => exact w.plain_failed (fails_forcedLanguage ha.language e hforced)
  | ok forced =>
    cases base with
    | error e => exact w.plain_failed (hwalker e rfl)
    | ok v =>
      have hfiles : ∀ p ∈ a.files.flatMap (expand w v forced.isSome), EscapeFree p.text := by
        intro p hp
        obtain ⟨input, hinput, hp⟩ := List.mem_flatMap.1 hp
        exact escapeFree_of_mem_expand hw (ha.files input hinput) hp
      dsimp only
      generalize a.files.flatMap (expand w v forced.isSome) = files at hfiles
      obtain ⟨hout, hresult⟩ := plain_printFrom hw forced (1 < files.length) hfiles 0
      refine ⟨?_, escapeFree_empty, hresult⟩
      dsimp only
      split
      · exact escapeFree_empty
      · exact hout

end Compress

/-! ## Trees -/

namespace Tree

variable {a : TreeArguments}

theorem fails_walker (hw : w.Plain) (ha : a.Plain) : Fails (walker w a) Failure.Plain := by
  have hglobs : Fails ((w.excludeGlobs a.patternFile a.noDefaultExcludes).mapError .patternFile) Failure.Plain :=
    (hw.fails_excludeGlobs ha.patternFile _).mapError fun _ he => he
  unfold walker
  refine (World.fails_config w).bind fun c hc => hglobs.bind fun globs hok => ?_
  have hall : ∀ glob ∈ globs ++ c.excludes ++ a.excludes, EscapeFree glob := by
    simp only [List.forall_mem_append]
    refine ⟨⟨?_, (hw.config c hc).excludes⟩, ha.excludes⟩
    exact ((hw.excludeGlobs a.patternFile a.noDefaultExcludes).mapError _) globs hok
  have hbase : Fails ((Walker.ofExcludes (globs ++ c.excludes ++ a.excludes)).mapError .glob) Failure.Plain :=
    (Walker.fails_ofExcludes hall).mapError fun _ he => he
  have honly (base : Walker) : Fails ((base.withIncludes a.includes).mapError .glob) Failure.Plain :=
    (base.fails_withIncludes ha.includes).mapError fun _ he => he
  exact hbase.bind fun base _ => (honly base).bind fun _ _ => fails_pure

/-- What would be scanned is told in colour. -/
theorem not_escapeFree_dryText (a : TreeArguments) (globs : List String) : ¬ EscapeFree (dryText a globs) := by
  intro h
  simp only [dryText, escapeFree_append] at h
  exact Console.not_escapeFree_apply .yellow _ h.1.1.1.1.1

theorem escapeFree_drawing (hw : w.Plain) (v : Walker) (a : TreeArguments) {root : Path}
    (hroot : EscapeFree root.text) : EscapeFree (drawing w v a root) := by
  unfold drawing
  split
  · exact Listing.escapeFree_draw hroot (fun e he => Walker.plain_of_mem_walk hw.files hroot he) _
  · exact Listing.escapeFree_drawFile hroot

/-- A dry run of a tree that has its patterns and is not quiet. -/
def SaysDryRun (w : World) (g : GlobalOptions) (a : TreeArguments) : Prop :=
  g.dryRun = true ∧ g.quiet = false ∧ ∃ found, walker w a = .ok found

/-- A tree is drawn without escapes; what a dry run would scan is not told without one. -/
theorem run_plain_iff (hw : w.Plain) (ha : a.Plain) : (run w g a).Plain ↔ ¬ SaysDryRun w g a := by
  unfold run
  cases hwalker : walker w a with
  | error e => exact iff_of_true (w.plain_failed (fails_walker hw ha e hwalker)) (by simp [SaysDryRun, hwalker])
  | ok found =>
    dsimp only
    split
    · rename_i hdry
      rw [World.plain_printed_iff]
      cases hquiet : g.quiet with
      | true => exact iff_of_true escapeFree_empty (by simp [SaysDryRun, hquiet])
      | false => exact iff_of_false (not_escapeFree_dryText a _) (by simp [SaysDryRun, hdry, hquiet, hwalker])
    · rename_i hwet
      refine iff_of_true ?_ fun h => hwet h.1
      split
      · rename_i e he
        exact w.plain_failed (World.fails_locate w ha.path e he)
      · rename_i root hroot
        rw [World.plain_printed_iff]
        split
        · exact escapeFree_empty
        · exact (escapeFree_drawing hw _ a (hw.locate a.path root hroot)).append (escapeFree_literal rfl)

end Tree

/-! ## The other commands -/

theorem Excludes.run_plain (hw : w.Plain) {a : ExcludesArguments} (ha : a.Plain) (g : GlobalOptions) :
    (run w g a).Plain := by
  have hglobs : Yields (globs w a) fun globs => ∀ glob ∈ globs, EscapeFree glob := by
    unfold globs
    exact hw.config.bind fun c hc => ((hw.excludeGlobs _ _).mapError _).bind fun globs hglobs =>
      yields_pure.2 (List.forall_mem_append.2 ⟨hglobs, hc.excludes⟩)
  have hfails : Fails (globs w a) Failure.Plain := by
    have hread : Fails ((w.excludeGlobs a.patternFile a.noDefaultExcludes).mapError .patternFile) Failure.Plain :=
      (hw.fails_excludeGlobs ha.patternFile _).mapError fun _ he => he
    unfold globs
    exact (World.fails_config w).bind fun c _ => hread.bind fun _ _ => fails_pure
  unfold run
  split
  · exact w.plain_printed_iff.2 Glob.escapeFree_builtinText
  · split
    · rename_i e he
      exact w.plain_failed (hfails e he)
    · rename_i found hfound
      rw [World.plain_printed_iff]
      split
      · exact escapeFree_empty
      · refine escapeFree_join fun line hline => ?_
        obtain ⟨glob, hglob, rfl⟩ := List.mem_map.1 hline
        exact (hglobs found hfound glob hglob).append (escapeFree_literal rfl)

theorem fails_makeParents {fs : FileSystem} {p : Path} (hp : EscapeFree p.text) :
    Fails (makeParents fs p).2 Failure.Plain := by
  intro e he
  obtain ⟨dir, hdir, rfl⟩ := makeParents_error (Prod.ext rfl he)
  exact Failure.plain_unmade (Path.escapeFree_parent hp hdir)

theorem Init.run_plain (hw : w.Plain) {a : InitArguments} (ha : a.Plain) (g : GlobalOptions) : (run w g a).Plain := by
  have htarget : EscapeFree (target w a).text := by
    unfold target
    split
    · exact hw.userFile
    · exact Path.escapeFree_join ha.path (escapeFree_literal rfl)
  have hsay {message : String} (h : EscapeFree message) :
      EscapeFree (if g.quiet then "" else message ++ (target w a).text ++ "\n") := by
    split
    · exact escapeFree_empty
    · exact (h.append htarget).append (escapeFree_literal rfl)
  have hexists : Failure.Plain (.configExists (target w a)) :=
    ((escapeFree_literal rfl : EscapeFree "Config file already exists at ").append htarget).append
      (escapeFree_literal rfl : EscapeFree ". Use --force to overwrite.")
  have hwrite : Fails (write w.files (target w a)).2 Failure.Plain := by
    have hparents : Fails (makeParents w.files (target w a)).2 Failure.Plain := fails_makeParents htarget
    unfold write
    split
    · rename_i e heq
      rw [heq] at hparents
      exact hparents
    · split
      · exact fails_ok
      · exact fails_error.2 (escapeFree_literal rfl : EscapeFree "Failed to write config file")
  unfold run
  dsimp only
  split
  · exact w.plain_failed hexists
  · split
    · -- A dry run only says what it would do.
      exact w.plain_printed_iff.2 (hsay (escapeFree_literal rfl))
    · split
      · rename_i fs e heq
        rw [heq] at hwrite
        exact ⟨escapeFree_empty, escapeFree_empty, hwrite⟩
      · exact ⟨hsay (escapeFree_literal rfl), escapeFree_empty, fails_ok⟩

theorem Completions.run_plain (hw : w.Plain) {a : CompletionsArguments} (ha : a.Plain) : (run w a).Plain := by
  have hfile (shell : Shell) : EscapeFree (fileName shell) := by cases shell <;> decide +kernel
  unfold run
  split
  · exact w.plain_printed_iff.2 (hw.scripts a.shell)
  · split
    · exact w.plain_failed (escapeFree_literal rfl : EscapeFree (Failure.message .nowhereToComplete))
    · rename_i dir hdir
      have hdir := ha.outDir dir hdir
      unfold write
      split
      · exact ⟨escapeFree_empty, escapeFree_empty, fails_error.2 (Failure.plain_unmade hdir)⟩
      · dsimp only
        split
        · refine ⟨escapeFree_empty, ?_, fails_ok⟩
          exact ((escapeFree_literal rfl : EscapeFree "Wrote completion to ").append
            (Path.escapeFree_join hdir (hfile a.shell))).append (escapeFree_literal rfl)
        · refine ⟨escapeFree_empty, escapeFree_empty, fails_error.2 ?_⟩
          exact (escapeFree_literal rfl : EscapeFree (Failure.message .completionUnwritten))

/-! ## Command lines -/

namespace CommandLine

/-- A dry run that tells in colour what it would do, as only those of a pack and of a tree can. -/
def Invocation.SaysDryRun (w : World) (i : Invocation) : Prop :=
  match i.command with
  | .pack a => Pack.SaysDryRun w i.options a
  | .tree a => Tree.SaysDryRun w i.options a
  | _ => False

/-- The template of a pack spells no escapes. Other commands render none. -/
def Invocation.PlainTemplate (w : World) (i : Invocation) : Prop :=
  ∀ a, i.command = .pack a → Yields (Pack.plan w i.options a) (Pack.PlainTemplate w)

theorem Invocation.run_plain_iff {i : Invocation} (hw : w.Plain) (hi : i.Plain) (htemplate : i.PlainTemplate w)
    (hplain : i.options.noColor = true) : (i.run w).Plain ↔ ¬ i.SaysDryRun w := by
  obtain ⟨options, command⟩ := i
  cases command with
  | pack a => exact Pack.run_plain_iff hw hi (htemplate a rfl) hplain
  | compress a => exact iff_of_true (Compress.run_plain hw hi options) id
  | tree a => exact Tree.run_plain_iff hw hi
  | excludes a => exact iff_of_true (Excludes.run_plain hw hi options) id
  | template =>
    refine iff_of_true (w.plain_printed_iff.2 ?_) id
    split
    · exact escapeFree_empty
    · exact PromptTemplate.escapeFree_builtinSource
  | init a => exact iff_of_true (Init.run_plain hw hi options) id
  | completions a => exact iff_of_true (Completions.run_plain hw hi) id

/-- A world without files, in which the clipboard is out of reach. -/
def emptyWorld : World where
  files := { items := [], cwd := [] }
  home := ⟨"/"⟩
  encoder := fun _ _ => []
  scripts := fun _ => "complete"

theorem plain_emptyWorld : emptyWorld.Plain where
  files := ⟨by simp [emptyWorld], by simp [emptyWorld]⟩
  home := escapeFree_literal rfl
  config := by
    rw [Pack.config_of_empty rfl rfl, yields_ok]
    exact ⟨by simp, escapeFree_literal rfl, by simp⟩
  repositories := by simp [emptyWorld]
  clipboard := by
    rintro _ ⟨⟩
    exact escapeFree_literal rfl
  scripts := fun _ => escapeFree_literal rfl

end CommandLine

end PromptPack
