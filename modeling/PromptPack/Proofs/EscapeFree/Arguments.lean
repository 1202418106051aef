import PromptPack.CommandLine.Invocation
import PromptPack.Proofs.EscapeFree.Text
import PromptPack.Proofs.Yields
/-!
# Arguments without escapes

A grammar hands on to settings what it cuts out of words. Where every option and operand makes plain settings of plain
ones, a whole command line without escapes is read as plain settings (`Grammar.Keeps.read`), and so the arguments of
every command are free of escapes where the words are (`Invocation.plain_parse`).
-/

namespace PromptPack.CommandLine

variable {σ τ : Type} {P : σ → Prop}

/-! ## What grammars keep -/

/-- The change of settings by a value keeps a property, where the value is free of escapes. -/
def KeptByValue (P : σ → Prop) (apply : σ → String → Option σ) : Prop :=
  ∀ s v, P s → EscapeFree v → ∀ s' ∈ apply s v, P s'

/-- What an option does to settings keeps a property, where its values are free of escapes. -/
def Action.Keeps (P : σ → Prop) : Action σ → Prop
  | .switch apply => ∀ s, P s → P (apply s)
  | .value apply => KeptByValue P apply
  | .values apply => ∀ s vs, P s → (∀ v ∈ vs, EscapeFree v) → P (apply s vs)
  | .help => True
  | .version => True

/-- All options and operands keep a property of settings. -/
structure Grammar.Keeps (P : σ → Prop) (g : Grammar σ) : Prop where
  options : ∀ rule ∈ g.options, rule.action.Keeps P
  operand : ∀ rule ∈ g.operand, KeptByValue P rule.apply

/-- What was not taken in yet is to keep the property, and its values are free of escapes. -/
def Pending.Keeps (P : σ → Prop) : Pending σ → Prop
  | .nothing => True
  | .option rule value => rule.action.Keeps P ∧ ∀ v ∈ value, EscapeFree v
  | .operands rule values => KeptByValue P rule.apply ∧ ∀ v ∈ values, EscapeFree v

/-- The settings read so far have the property, and what is pending keeps it. -/
structure Reading.Keeps (P : σ → Prop) (r : Reading σ) : Prop where
  settings : P r.settings
  pending : r.pending.Keeps P

namespace Reading

variable {g : Grammar σ} {r : Reading σ} {rule : OptionRule σ} {v : String}

theorem Keeps.once (h : r.Keeps P) (rule : OptionRule σ) : Yields (r.once rule) (Keeps P) := by
  unfold Reading.once
  split
  · exact yields_error
  · exact yields_ok.2 ⟨h.settings, h.pending⟩

theorem Keeps.orInvalid (h : r.Keeps P) {settings : Option σ} (hsettings : ∀ s ∈ settings, P s) :
    Yields (r.orInvalid settings) (Keeps P) := by
  unfold Reading.orInvalid
  split
  · exact yields_ok.2 ⟨hsettings _ rfl, h.pending⟩
  · exact yields_error

theorem Keeps.take (h : r.Keeps P) (hrule : rule.action.Keeps P) (hv : EscapeFree v) :
    Yields (r.take rule v) (Keeps P) := by
  unfold Reading.take
  split <;> rename_i heq <;> rw [heq] at hrule
  · exact (h.once rule).bind fun r hr => yields_pure.2 ⟨hrule _ hr.settings, hr.pending⟩
  · exact (h.once rule).bind fun r hr => hr.orInvalid (hrule _ v hr.settings hv)
  · exact yields_ok.2 ⟨hrule _ _ h.settings fun _ => escapeFree_of_mem_splitAt hv, h.pending⟩
  · exact yields_error
  · exact yields_error

theorem Keeps.takeOperands {rule : OperandRule σ} (h : r.Keeps P) (hrule : KeptByValue P rule.apply)
    {values : List String} (hvalues : ∀ v ∈ values, EscapeFree v) : Yields (r.takeOperands rule values) (Keeps P) := by
  induction values generalizing r with
  | nil => exact yields_ok.2 h
  | cons v rest ih =>
    rw [List.forall_mem_cons] at hvalues
    exact (h.orInvalid (hrule _ v h.settings hvalues.1)).bind fun r hr => ih hr hvalues.2

theorem Keeps.settle (h : r.Keeps P) : Yields r.settle (Keeps P) := by
  have hpending := h.pending
  have hdone : Keeps P { r with pending := .nothing } := ⟨h.settings, trivial⟩
  unfold Reading.settle
  split <;> rename_i heq <;> rw [heq] at hpending
  · exact yields_ok.2 h
  · exact yields_error
  · exact hdone.take hpending.1 (hpending.2 _ rfl)
  · exact hdone.takeOperands hpending.1 hpending.2

theorem Keeps.option (h : r.Keeps P) (hrule : rule.action.Keeps P) {attached : Option String}
    (hattached : ∀ v ∈ attached, EscapeFree v) : Yields (r.option rule attached) (Keeps P) := by
  unfold Reading.option
  dsimp only
  split
  · exact h.settle.bind fun r hr => hr.take hrule (hattached _ rfl)
  · exact h.settle.bind fun r hr => yields_pure.2 ⟨hr.settings, hrule, by simp⟩
  · exact yields_error
  · exact h.settle.bind fun r hr => hr.take hrule escapeFree_empty

theorem Keeps.longOption (hg : g.Keeps P) (h : r.Keeps P) {word : List Char} (hword : escapeMark ∉ word) :
    Yields (r.longOption g word) (Keeps P) := by
  have hvalue : escapeMark ∉ word.dropWhile (· != '=') := fun hmark =>
    hword ((List.dropWhile_sublist _).subset hmark)
  unfold Reading.longOption
  dsimp only
  split
  · rename_i rule hrule
    refine h.option (hg.options rule (List.mem_of_find?_eq_some hrule)) ?_
    split
    · rename_i value heq
      rw [heq] at hvalue
      simpa using List.not_mem_of_not_mem_cons hvalue
    · simp
  · exact yields_error

/-- The letters behind one that wants a value are its value. -/
theorem Keeps.lastOption (h : r.Keeps P) (hrule : rule.action.Keeps P) {rest : List Char} (hrest : escapeMark ∉ rest) :
    Yields (match rest with
      | [] => r.option rule none
      | '=' :: value => r.option rule (some (String.ofList value))
      | value => r.option rule (some (String.ofList value))) (Keeps P) := by
  split
  · exact h.option hrule (by simp)
  · exact h.option hrule (by simpa using List.not_mem_of_not_mem_cons hrest)
  · exact h.option hrule (by simpa using hrest)

theorem Keeps.shortOptions (hg : g.Keeps P) (h : r.Keeps P) {letters : List Char} (hletters : escapeMark ∉ letters) :
    Yields (r.shortOptions g letters) (Keeps P) := by
  induction letters generalizing r with
  | nil => exact yields_ok.2 h
  | cons c rest ih =>
    have hrest := List.not_mem_of_not_mem_cons hletters
    unfold Reading.shortOptions
    split
    · exact yields_error
    · rename_i rule hrule
      have hrule := hg.options rule (List.mem_of_find?_eq_some hrule)
      dsimp only
      -- The three kinds of options: two take a value.
      split
      · exact h.lastOption hrule hrest
      · exact h.lastOption hrule hrest
      · exact (h.option hrule (by simp)).bind fun r hr => ih hr hrest

theorem Keeps.operand (hg : g.Keeps P) (h : r.Keeps P) (hv : EscapeFree v) : Yields (r.operand g v) (Keeps P) := by
  unfold Reading.operand
  split
  · exact yields_error
  · rename_i rule hrule
    have hrule := hg.operand rule hrule
    have hone : ∀ w ∈ [v], EscapeFree w := by simpa using hv
    split
    · split
      · rename_i pending rule values heq
        have hpending := h.pending
        rw [heq] at hpending
        exact yields_ok.2 ⟨h.settings, hpending.1, List.forall_mem_append.2 ⟨hpending.2, hone⟩⟩
      · exact h.settle.bind fun r hr => yields_pure.2 ⟨hr.settings, hrule, hone⟩
    · split
      · exact h.settle.bind fun r hr => yields_pure.2 ⟨hr.settings, hrule, hone⟩
      · exact yields_error

theorem Keeps.word (hg : g.Keeps P) (h : r.Keeps P) (hv : EscapeFree v) : Yields (r.word g v) (Keeps P) := by
  unfold Reading.word
  split
  · exact h.operand hg hv
  · split <;> rename_i heq
    · exact yields_ok.2 ⟨h.settings, h.pending⟩
    · rw [EscapeFree, heq] at hv
      exact h.longOption hg (List.not_mem_of_not_mem_cons (List.not_mem_of_not_mem_cons hv))
    · rw [EscapeFree, heq] at hv
      exact h.shortOptions hg (List.not_mem_of_not_mem_cons hv)
    · split
      · rename_i rule hpending
        have hrule := h.pending
        rw [hpending] at hrule
        exact yields_ok.2 ⟨h.settings, hrule.1, by simpa using hv⟩
      · exact h.operand hg hv

end Reading

/-- A command line without escapes is read as settings that have a property, where the grammar keeps it. -/
theorem Grammar.Keeps.read {g : Grammar σ} (hg : g.Keeps P) {start : σ} (hstart : P start) {words : List String}
    (hwords : ∀ w ∈ words, EscapeFree w) : Yields (g.read start words) P := by
  unfold Grammar.read
  have hfirst : Reading.Keeps P { settings := start } := ⟨hstart, trivial⟩
  refine (yields_foldlM hfirst fun r w hw hr => hr.word hg (hwords w hw)).bind fun r hr => hr.settle.bind fun r hr => ?_
  dsimp only
  split
  · exact yields_error
  · exact yields_pure.2 hr.settings

/-- Options on settings of their own keep what the other settings have. -/
theorem Grammar.Keeps.withOptions {g : Grammar σ} (hg : g.Keeps P) (options : List (OptionRule τ)) :
    (g.withOptions options).Keeps fun s : σ × τ => P s.1 where
  options := by
    -- An option acts on one half of the settings and leaves the other alone.
    refine List.forall_mem_append.2 ⟨?_, ?_⟩
    · rw [List.forall_mem_map]
      intro rule hrule
      have hkept := hg.options rule hrule
      unfold OptionRule.onFirst
      dsimp only
      split <;> rename_i heq <;> rw [heq] at hkept
      · exact fun s hs => hkept s.1 hs
      · intro s v hs hv s' hs'
        obtain ⟨first, hfirst, rfl⟩ := Option.map_eq_some_iff.1 hs'
        exact hkept s.1 v hs hv first hfirst
      · exact fun s vs hs hvs => hkept s.1 vs hs hvs
      · trivial
      · trivial
    · rw [List.forall_mem_map]
      intro rule hrule
      unfold OptionRule.onSecond
      dsimp only
      split
      · exact fun s hs => hs
      · intro s v hs hv s' hs'
        obtain ⟨second, -, rfl⟩ := Option.map_eq_some_iff.1 hs'
        exact hs
      · exact fun s vs hs hvs => hs
      · trivial
      · trivial
  operand := by
    intro rule hrule s v hs hv s' hs'
    obtain ⟨first, hfirst, rfl⟩ := Option.map_eq_some_iff.1 hrule
    obtain ⟨own, hown, rfl⟩ := Option.map_eq_some_iff.1 hs'
    exact hg.operand first hfirst s.1 v hs hv own hown

/-! ## The arguments of the commands -/

theorem escapeFree_of_path? {v : String} {p : Path} (hv : EscapeFree v) (h : path? v = some p) : EscapeFree p.text := by
  unfold path? at h
  split at h
  · cases h
  · cases h
    exact hv

/-- A value that is a path. -/
theorem keptByValue_path {make : σ → Path → σ} (h : ∀ s p, P s → EscapeFree p.text → P (make s p)) :
    KeptByValue P fun s v => (path? v).map fun p => make s p := by
  intro s v hs hv s' hs'
  obtain ⟨p, hp, rfl⟩ := Option.map_eq_some_iff.1 hs'
  exact h s p hs (escapeFree_of_path? hv hp)

/-- All that a pack is given as a text is free of escapes. -/
structure PackArguments.Plain (a : PackArguments) : Prop where
  paths : ∀ p ∈ a.paths, EscapeFree p.text
  includes : ∀ glob ∈ a.includes, EscapeFree glob
  excludes : ∀ glob ∈ a.excludes, EscapeFree glob
  patternFile : ∀ p ∈ a.patternFile, EscapeFree p.text
  diffBranches : ∀ s ∈ a.diffBranches, EscapeFree s
  logBranches : ∀ s ∈ a.logBranches, EscapeFree s
  template : ∀ p ∈ a.template, EscapeFree p.text
  encoding : ∀ s ∈ a.encoding, EscapeFree s
  output : ∀ p ∈ a.output, EscapeFree p.text

theorem packGrammar_keeps : packGrammar.Keeps PackArguments.Plain where
  options := by
    simp only [packGrammar, List.forall_mem_cons]
    refine ⟨fun a vs h hvs => { h with includes := List.forall_mem_append.2 ⟨h.includes, hvs⟩ },
      fun a vs h hvs => { h with excludes := List.forall_mem_append.2 ⟨h.excludes, hvs⟩ },
      fun a h => { h with }, fun a h => { h with },
      keptByValue_path fun a p h hp => { h with patternFile := by simpa using hp },
      fun a h => { h with }, fun a h => { h with }, fun a h => { h with }, fun a h => { h with },
      fun a h => { h with }, fun a h => { h with }, fun a h => { h with }, fun a h => { h with }, ?_, ?_,
      keptByValue_path fun a p h hp => { h with template := by simpa using hp }, ?_,
      fun a h => { h with }, fun a h => { h with }, fun a h => { h with },
      keptByValue_path fun a p h hp => { h with output := by simpa using hp },
      fun a h => { h with }, fun a h => { h with }, trivial, by simp⟩
    · rintro a v h hv _ ⟨⟩
      exact { h with diffBranches := by simpa using hv }
    · rintro a v h hv _ ⟨⟩
      exact { h with logBranches := by simpa using hv }
    · rintro a v h hv _ ⟨⟩
      exact { h with encoding := by simpa using hv }
  operand := by
    rintro _ ⟨⟩
    exact keptByValue_path fun a p h hp => { h with paths := List.forall_mem_append.2 ⟨h.paths, by simpa using hp⟩ }

/-- The files and the language that outlines are asked for are free of escapes. -/
structure CompressArguments.Plain (a : CompressArguments) : Prop where
  files : ∀ p ∈ a.files, EscapeFree p.text
  language : ∀ s ∈ a.language, EscapeFree s

theorem compressGrammar_keeps : compressGrammar.Keeps CompressArguments.Plain where
  options := by
    simp only [compressGrammar, List.forall_mem_cons]
    refine ⟨?_, trivial, by simp⟩
    rintro a v h hv _ ⟨⟩
    exact { h with language := by simpa using hv }
  operand := by
    rintro _ ⟨⟩
    exact keptByValue_path fun a p h hp => { h with files := List.forall_mem_append.2 ⟨h.files, by simpa using hp⟩ }

/-- All that a tree is given as a text is free of escapes. -/
structure TreeArguments.Plain (a : TreeArguments) : Prop where
  path : EscapeFree a.path.text
  includes : ∀ glob ∈ a.includes, EscapeFree glob
  excludes : ∀ glob ∈ a.excludes, EscapeFree glob
  patternFile : ∀ p ∈ a.patternFile, EscapeFree p.text

theorem treeGrammar_keeps : treeGrammar.Keeps TreeArguments.Plain where
  options := by
    simp only [treeGrammar, List.forall_mem_cons]
    exact ⟨fun a vs h hvs => { h with includes := List.forall_mem_append.2 ⟨h.includes, hvs⟩ },
      fun a vs h hvs => { h with excludes := List.forall_mem_append.2 ⟨h.excludes, hvs⟩ },
      fun a h => { h with },
      keptByValue_path fun a p h hp => { h with patternFile := by simpa using hp },
      fun a h => { h with }, fun a h => { h with }, fun a h => { h with }, trivial, by simp⟩
  operand := by
    rintro _ ⟨⟩
    exact keptByValue_path fun a p h hp => { h with path := hp }

/-- The pattern file to show is free of escapes. -/
structure ExcludesArguments.Plain (a : ExcludesArguments) : Prop where
  patternFile : ∀ p ∈ a.patternFile, EscapeFree p.text

theorem excludesGrammar_keeps : excludesGrammar.Keeps ExcludesArguments.Plain where
  options := by
    simp only [excludesGrammar, List.forall_mem_cons]
    exact ⟨fun a h => { h with }, keptByValue_path fun a p h hp => { patternFile := by simpa using hp },
      fun a h => { h with }, trivial, by simp⟩
  operand := by simp [excludesGrammar]

theorem templateGrammar_keeps : templateGrammar.Keeps fun _ => True where
  options := by
    simp only [templateGrammar, List.forall_mem_cons]
    exact ⟨trivial, by simp⟩
  operand := by simp [templateGrammar]

/-- The directory to start in is free of escapes. -/
structure InitArguments.Plain (a : InitArguments) : Prop where
  path : EscapeFree a.path.text

theorem initGrammar_keeps : initGrammar.Keeps InitArguments.Plain where
  options := by
    simp only [initGrammar, List.forall_mem_cons]
    exact ⟨fun a h => { h with }, fun a h => { h with }, trivial, by simp⟩
  operand := by
    rintro _ ⟨⟩
    exact keptByValue_path fun a p h hp => ⟨hp⟩

/-- The directory for scripts is free of escapes. -/
structure CompletionsArguments.Plain (a : CompletionsArguments) : Prop where
  outDir : ∀ p ∈ a.outDir, EscapeFree p.text

theorem completionsGrammar_keeps : completionsGrammar.Keeps CompletionsArguments.Plain where
  options := by
    simp only [completionsGrammar, List.forall_mem_cons]
    exact ⟨keptByValue_path fun a p h hp => { outDir := by simpa using hp }, fun a h => { h with }, trivial, by simp⟩
  operand := by
    rintro _ ⟨⟩ a v h hv _ hs'
    obtain ⟨shell, -, rfl⟩ := Option.map_eq_some_iff.1 hs'
    exact { h with }

/-! ## Invocations -/

/-- The arguments of the command are free of escapes. -/
def Command.Plain : Command → Prop
  | .pack a => a.Plain
  | .compress a => a.Plain
  | .tree a => a.Plain
  | .excludes a => a.Plain
  | .template => True
  | .init a => a.Plain
  | .completions a => a.Plain

def Invocation.Plain (i : Invocation) : Prop := i.command.Plain

variable {words : List String}

theorem plain_readWith {g : Grammar σ} {start : σ} {make : σ → Command} (hg : g.Keeps P) (hstart : P start)
    (hmake : ∀ s, P s → (make s).Plain) (hwords : ∀ w ∈ words, EscapeFree w) (before : GlobalOptions) :
    Yields (readWith g start make words before) Invocation.Plain :=
  ((hg.withOptions globalRules).read hstart hwords).bind fun s hs => yields_pure.2 (hmake s.1 hs)

theorem plain_commandNamed? {name : String} {read : List String → GlobalOptions → Except UsageError Invocation}
    (h : commandNamed? name = some read) (hwords : ∀ w ∈ words, EscapeFree w) (before : GlobalOptions) :
    Yields (read words before) Invocation.Plain := by
  have hhere : EscapeFree "." := escapeFree_literal rfl
  unfold commandNamed? at h
  split at h <;> cases h
  · exact plain_readWith packGrammar_keeps (by constructor <;> simp) (fun _ => id) hwords before
  · exact plain_readWith compressGrammar_keeps (by constructor <;> simp) (fun _ => id) hwords before
  · exact plain_readWith treeGrammar_keeps ⟨hhere, by simp, by simp, by simp⟩ (fun _ => id) hwords before
  · exact plain_readWith excludesGrammar_keeps ⟨by simp⟩ (fun _ => id) hwords before
  · exact plain_readWith templateGrammar_keeps trivial (fun _ => id) hwords before
  · exact plain_readWith initGrammar_keeps ⟨hhere⟩ (fun _ => id) hwords before
  · exact plain_readWith completionsGrammar_keeps ⟨by simp⟩ (fun _ => id) hwords before

theorem plain_readFrom (r : Reading GlobalOptions) (hwords : ∀ w ∈ words, EscapeFree w) :
    Yields (readFrom r words) Invocation.Plain := by
  induction words generalizing r with
  | nil => exact yields_error
  | cons w rest ih =>
    rw [List.forall_mem_cons] at hwords
    unfold readFrom
    split
    · exact yields_error
    · split
      · have hword : Yields (r.word rootGrammar w) fun _ => True := fun _ _ => trivial
        exact hword.bind fun r' _ => ih r' hwords.2
      · split
        · unfold readHelp
          split <;> exact yields_error
        · split
          · rename_i read hread
            exact plain_commandNamed? hread hwords.2 r.settings
          · exact yields_error

/-- The arguments that are read from words without escapes are free of escapes. -/
theorem Invocation.plain_parse (hwords : ∀ w ∈ words, EscapeFree w) :
    Yields (Invocation.parse words) Invocation.Plain :=
  plain_readFrom _ hwords

end PromptPack.CommandLine
