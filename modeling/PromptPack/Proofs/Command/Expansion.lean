import PromptPack.Command.Compress
import PromptPack.Proofs.FileSystem.Below
import PromptPack.Proofs.Walk.Kept
import PromptPack.Proofs.Walk.Placed
/-!
# Directories stand for the files below them

The files that a walk finds are no directories. So expanding the inputs of a run a second time changes nothing, and to
ask for the outlines of a directory is to ask for those of its files one by one (`run_directories`). The files that a
directory stands for are chosen by their language, so none of them is unknown when its turn comes.
-/

namespace PromptPack

/-- A walk that follows no links finds no directories among its files. -/
theorem Walker.isDir_of_mem_walkFiles {w : Walker} {fs : FileSystem} {home root p : Path} (tree : fs.IsTree)
    (hlinks : w.followLinks = false) (hroot : fs.isDir root = true) (h : p ∈ w.walkFiles fs home root) :
    fs.isDir p = false := by
  obtain ⟨loc, hplace⟩ := FileSystem.exists_place_of_isDir hroot
  obtain ⟨e, he, hfile, -, rfl⟩ := mem_walkFiles.1 h
  obtain ⟨names, hplaced⟩ := placed_of_mem_walk tree hplace he
  obtain ⟨bytes, hbytes⟩ := hplaced.file hlinks hfile
  rw [hplaced.path, List.nil_append]
  exact tree.isDir_join_ofNames hplace hplaced.nonempty hbytes

namespace Compress

open CommandLine Outline

variable {w : World} {walker : Walker} {forced : Option Language} {files inputs : List Path} {p input : Path}

/-! ## Expanding twice -/

theorem expand_of_isDir_eq_false (forced : Bool) (h : w.files.isDir p = false) : expand w walker forced p = [p] := by
  rw [expand, h, if_neg Bool.false_ne_true]

theorem isDir_of_mem_expand (tree : w.files.IsTree) (hlinks : walker.followLinks = false) {forced : Bool}
    (h : p ∈ expand w walker forced input) : w.files.isDir p = false := by
  unfold expand at h
  split at h
  · rename_i hdir
    exact Walker.isDir_of_mem_walkFiles tree hlinks hdir (List.mem_filter.1 h).1
  · rename_i hfile
    rw [List.mem_singleton.1 h]
    simpa using hfile

theorem flatMap_expand_flatMap_expand (tree : w.files.IsTree) (hlinks : walker.followLinks = false) (forced : Bool)
    (inputs : List Path) :
    (inputs.flatMap (expand w walker forced)).flatMap (expand w walker forced) =
      inputs.flatMap (expand w walker forced) := by
  have hsingle : ∀ p ∈ inputs.flatMap (expand w walker forced), expand w walker forced p = [p] := by
    intro p hp
    obtain ⟨input, -, hp⟩ := List.mem_flatMap.1 hp
    exact expand_of_isDir_eq_false forced (isDir_of_mem_expand tree hlinks hp)
  rw [List.flatMap_congr hsingle, List.flatMap_singleton']

/-! ## What is printed -/

theorem printFrom_eq {text : Path → String} (h : ∀ p ∈ files, outline w forced p = .ok (text p)) (many : Bool)
    (place : Nat) :
    printFrom w forced many place files =
      (String.join (files.mapIdx fun i p => (if many then header (place + i) p else "") ++ text p), .ok ()) := by
  induction files generalizing place with
  | nil => rfl
  | cons p rest ih =>
    rw [List.forall_mem_cons] at h
    rw [printFrom, h.1]
    dsimp only
    have hshift (i : Nat) : place + 1 + i = place + (i + 1) := by omega
    rw [ih h.2, List.mapIdx_cons, String.join_cons]
    simp only [hshift, Nat.add_zero]

/-! ## Where a failure comes from -/

theorem isSome_forcedLanguage {name : Option String} (h : forcedLanguage name = .ok forced) :
    forced.isSome = name.isSome := by
  cases name with
  | none =>
    cases h
    rfl
  | some name =>
    rw [forcedLanguage] at h
    cases hname : Language.ofName name with
    | error e =>
      rw [hname] at h
      cases h
    | ok language =>
      rw [hname] at h
      cases h
      rfl

/-- A name that is no language's is another complaint than an extension that is none's. -/
theorem forcedLanguage_ne_unsupportedExtension (name : Option String) (shown : String) :
    forcedLanguage name ≠ .error (.outline (.unsupportedExtension shown)) := by
  intro h
  cases name with
  | none => cases h
  | some name =>
    rw [forcedLanguage, Language.ofName] at h
    split at h <;> cases h

/-- A run complains about a language only where one is looked for. -/
theorem identify_of_outline_eq_error {e : OutlineError} (h : outline w forced p = .error (.outline e)) :
    forced = none ∧ Language.identify p = .error e := by
  cases hcontent : w.files.readContent p with
  | error unread => simp [outline, hcontent, Except.mapError, bind, Except.bind] at h
  | ok content =>
    cases forced with
    | some language =>
      -- What goes wrong in a language that was given is told of the file, not of the language.
      cases hcompress : compress language content.text <;>
        simp [outline, hcontent, hcompress, Except.mapError, bind, Except.bind] at h
    | none =>
      refine ⟨rfl, ?_⟩
      cases hlanguage : Language.identify p with
      | error unknown =>
        simp only [outline, hcontent, hlanguage, Except.mapError, bind, Except.bind, Except.error.injEq,
          Failure.outline.injEq] at h
        rw [h]
      | ok language =>
        cases hcompress : compress language content.text <;>
          simp [outline, hcontent, hlanguage, hcompress, Except.mapError, bind, Except.bind] at h

theorem exists_outline_eq_error {many : Bool} {place : Nat} {e : Failure}
    (h : (printFrom w forced many place files).2 = .error e) : ∃ p ∈ files, outline w forced p = .error e := by
  induction files generalizing place with
  | nil => cases h
  | cons p rest ih =>
    rw [printFrom] at h
    cases houtline : outline w forced p with
    | error e' =>
      rw [houtline] at h
      cases h
      exact ⟨p, List.mem_cons_self, houtline⟩
    | ok text =>
      rw [houtline] at h
      obtain ⟨q, hq, hfails⟩ := ih h
      exact ⟨q, List.mem_cons_of_mem p hq, hfails⟩

theorem hasLanguage_eq_false {e : OutlineError} (h : Language.identify p = .error e) : hasLanguage p = false := by
  rw [hasLanguage, h]
  rfl

/-- With no language given, an input with a file whose language is unknown is that file. -/
theorem eq_of_mem_expand {e : OutlineError} (hp : p ∈ expand w walker false input)
    (h : Language.identify p = .error e) : p = input ∧ w.files.isDir input = false := by
  unfold expand at hp
  split at hp
  · have hlanguage := (List.mem_filter.1 hp).2
    simp [hasLanguage_eq_false h] at hlanguage
  · rename_i hfile
    exact ⟨List.mem_singleton.1 hp, by simpa using hfile⟩

/-! ## Runs over directories -/

theorem run_eq_of_forcedLanguage (hwalker : Walker.ofExcludes Glob.builtin = .ok walker) (g : GlobalOptions)
    (inputs : List Path) {name : Option String} (hforced : forcedLanguage name = .ok forced) :
    run w g ⟨inputs, name⟩ =
      let (out, result) := printFiles w forced (inputs.flatMap (expand w walker name.isSome))
      { result := result, out := if g.quiet then "" else out, files := w.files } := by
  rw [run, hforced, hwalker, ← isSome_forcedLanguage hforced]

/-- What a run finds to have no language is an input itself: what is found below a directory has one. -/
theorem unknown_of_run_eq_error (hwalker : Walker.ofExcludes Glob.builtin = .ok walker) {g : GlobalOptions}
    {name : Option String} {shown : String}
    (h : (run w g ⟨inputs, name⟩).result = .error (.outline (.unsupportedExtension shown))) :
    name = none ∧ ∃ p ∈ inputs, w.files.isDir p = false ∧
      Language.identify p = .error (.unsupportedExtension shown) := by
  cases hforced : forcedLanguage name with
  | error e =>
    simp only [run, hforced] at h
    cases h
    exact absurd hforced (forcedLanguage_ne_unsupportedExtension name shown)
  | ok forced =>
    rw [run_eq_of_forcedLanguage hwalker g inputs hforced] at h
    obtain ⟨p, hp, houtline⟩ := exists_outline_eq_error h
    obtain ⟨rfl, hlanguage⟩ := identify_of_outline_eq_error houtline
    have hnone := isSome_forcedLanguage hforced
    obtain ⟨input, hinput, hp⟩ := List.mem_flatMap.1 hp
    rw [← hnone] at hp
    obtain ⟨rfl, hfile⟩ := eq_of_mem_expand hp hlanguage
    exact ⟨by simpa using hnone.symm, p, hinput, hfile, hlanguage⟩

/-- A run over directories is the run over the files below them that have a language, or over all of them when a
language is given. It prints their outlines one after the other, under headers if there are several. None of these files
is ever found to have no language: only a file that was asked for is. -/
theorem run_directories (w : World) (tree : w.files.IsTree) (g : GlobalOptions) (a : CompressArguments) :
    ∃ walker, Walker.ofExcludes Glob.builtin = .ok walker ∧
      let found (dir : Path) : List Path :=
        (walker.walkFiles w.files w.home dir).filter fun p => a.language.isSome || hasLanguage p
      let files := a.files.flatMap fun input => if w.files.isDir input then found input else [input]
      run w g { a with files := files } = run w g a ∧
        (∀ forced, forcedLanguage a.language = .ok forced → ∀ text : Path → String,
          (∀ p ∈ files, outline w forced p = .ok (text p)) → (run w g a).result = .ok () ∧
            (run w g a).out = if g.quiet then "" else
              String.join (files.mapIdx fun i p => (if 1 < files.length then header i p else "") ++ text p)) ∧
        (a.language = none → ∀ dir ∈ a.files, w.files.isDir dir = true → ∀ p ∈ found dir, ∀ shown,
          outline w none p ≠ .error (.outline (.unsupportedExtension shown))) ∧
        ∀ shown, (run w g a).result = .error (.outline (.unsupportedExtension shown)) →
          a.language = none ∧ ∃ p ∈ a.files, w.files.isDir p = false ∧
            Language.identify p = .error (.unsupportedExtension shown) := by
  obtain ⟨inputs, name⟩ := a
  obtain ⟨walker, hwalker⟩ := Walker.exists_ofExcludes_of_plain fun _ => Glob.plain_of_mem_builtin
  refine ⟨walker, hwalker, ?_⟩
  intro found files
  have hfiles : files = inputs.flatMap (expand w walker name.isSome) := rfl
  refine ⟨?_, ?_, ?_, ?_⟩
  · cases hforced : forcedLanguage name with
    | error e => simp only [run, hforced]
    | ok forced =>
      rw [run_eq_of_forcedLanguage hwalker g files hforced, run_eq_of_forcedLanguage hwalker g inputs hforced, hfiles,
        flatMap_expand_flatMap_expand tree (Walker.followLinks_of_ofExcludes hwalker)]
  · intro forced hforced text htext
    rw [hfiles] at htext ⊢
    simp [run_eq_of_forcedLanguage hwalker g inputs hforced, printFiles, printFrom_eq htext]
  · rintro rfl dir - - p hp shown hshown
    have hlanguage := (List.mem_filter.1 hp).2
    rw [hasLanguage_eq_false (identify_of_outline_eq_error hshown).2] at hlanguage
    cases hlanguage
  · exact fun shown hshown => unknown_of_run_eq_error hwalker hshown

/-- A world with a generated source in a directory of its own. -/
def generatedWorld : World where
  files := Walker.generated
  home := ⟨"/"⟩
  encoder := fun _ _ => []
  scripts := fun _ => ""

theorem isDir_generatedWorld : generatedWorld.files.isDir ⟨"gen"⟩ = true := by cbv

theorem run_directories_over_gen :
    generatedWorld.files.IsTree ∧ generatedWorld.files.isDir ⟨"gen"⟩ = true ∧
      ∃ walker, Walker.ofExcludes Glob.builtin = .ok walker ∧
        let found := (walker.walkFiles generatedWorld.files generatedWorld.home ⟨"gen"⟩).filter hasLanguage
        run generatedWorld {} ⟨found, none⟩ = run generatedWorld {} ⟨[⟨"gen"⟩], none⟩ := by
  refine ⟨Walker.generated_isTree, isDir_generatedWorld, ?_⟩
  obtain ⟨walker, hwalker, hrun, -⟩ := run_directories generatedWorld Walker.generated_isTree {} ⟨[⟨"gen"⟩], none⟩
  refine ⟨walker, hwalker, ?_⟩
  simpa only [List.flatMap_singleton, if_pos isDir_generatedWorld, Option.isSome_none, Bool.false_or] using hrun

end Compress

end PromptPack
