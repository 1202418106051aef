import Mathlib.Data.List.Nodup
import PromptPack.Proofs.Config.Stated
import PromptPack.Proofs.FileSystem.Below
import PromptPack.Proofs.Yields
/-!
# The last word on each setting

Each setting is what the environment says about it, else what the last file says that speaks of it, else its default
(`load_last_word_iff`), whatever is said about the other settings. The one exception are variables whose text is to be
a list but reads as a truth value or a number.
-/

namespace PromptPack.Config

variable {fs : FileSystem} {layer fields : Layer} {key : String} {d : Data} {b : Bool} {said vars : List Stated}

/-! ## The settings in the end -/

/-- What is said last about a setting, by the environment or else by the files. -/
def lastWord {α : Type} (said vars : List Stated) (f : Stated → Option α) : Option α :=
  (vars.reverse.findSome? f).or (said.reverse.findSome? f)

/-- The settings after the last word on each of them, or with their defaults. -/
def settled (said vars : List Stated) : Config where
  excludes := (lastWord said vars (·.excludes)).getD []
  encoding := (lastWord said vars (·.encoding)).getD "o200k"
  compress := (lastWord said vars (·.compress)).getD false
  lineNumbers := (lastWord said vars (·.lineNumbers)).getD false
  noCodeblock := (lastWord said vars (·.noCodeblock)).getD false
  relativePaths := (lastWord said vars (·.relativePaths)).getD false
  followSymlinks := (lastWord said vars (·.followSymlinks)).getD false
  template := lastWord said vars (·.template)
  noClipboard := (lastWord said vars (·.noClipboard)).getD false

/-! ## Reading what is said last -/

theorem lastWord_map {β : Type} {f : Stated → Option β} {mk : β → Data} (h : ∀ s, Stated.entry s key = (f s).map mk) :
    lastWord said vars (·.entry key) = (lastWord said vars f).map mk := by
  have hfind (l : List Stated) : l.findSome? (·.entry key) = (l.findSome? f).map mk := by
    rw [List.map_findSome?]
    congr 1
    funext s
    exact h s
  rw [lastWord, lastWord, hfind, hfind, Option.map_or]

/-- What layers as one have under each name reads as what is said last. -/
def Settles (layer : Layer) (said vars : List Stated) : Prop :=
  ∀ key, Option.Rel ReadsAs ((layer.find? (·.1 == key)).map (·.2)) (lastWord said vars (·.entry key))

theorem Settles.field_eq {α β : Type} {read : Data → Option α} {f : Stated → Option β} {mk : β → Data} {v : β → α}
    (h : Settles layer said vars) (dflt : α) (hentry : ∀ s, Stated.entry s key = (f s).map mk)
    (hread : ∀ d a, ReadsAs d (mk a) → read d = some (v a)) :
    field layer key read dflt = .ok (((lastWord said vars f).map v).getD dflt) := by
  have hkey := h key
  rw [lastWord_map hentry] at hkey
  unfold field
  cases hfound : layer.find? (·.1 == key) with
  | none =>
    rw [hfound] at hkey
    cases hword : lastWord said vars f with
    | none => rfl
    | some a => rw [hword] at hkey; cases hkey
  | some entry =>
    rw [hfound] at hkey
    cases hword : lastWord said vars f with
    | none => rw [hword] at hkey; cases hkey
    | some a =>
      rw [hword] at hkey
      cases hkey with
      | some hreads => simp [hread _ _ hreads]

theorem field_eq_error {α : Type} {read : Data → Option α} (h : (layer.find? (·.1 == key)).map (·.2) = some d)
    (hread : read d = none) (dflt : α) : field layer key read dflt = .error .illTyped := by
  obtain ⟨entry, hfound, rfl⟩ := Option.map_eq_some_iff.1 h
  simp only [field, hfound, hread]

theorem readsAs_bool (h : ReadsAs d (.bool b)) : asBool? d = some b := by
  rcases h with rfl | ⟨b', hb, hread⟩
  · rfl
  · cases hb
    exact hread

theorem readsAs_text {t : String} (h : ReadsAs d (.text t)) : d = .text t := by
  rcases h with rfl | ⟨b, hb, -⟩
  · rfl
  · cases hb

theorem asTexts?_ofTexts (texts : List String) : asTexts? (.ofTexts texts) = some texts := by
  have hread : ∀ text, asText? (.text text) = some text := fun _ => rfl
  exact mapM_map_eq_some hread texts

theorem readsAs_ofTexts {texts : List String} (h : ReadsAs d (.ofTexts texts)) : asTexts? d = some texts := by
  rcases h with rfl | ⟨b, hb, -⟩
  · exact asTexts?_ofTexts texts
  · cases hb

/-- The configuration of layers that settle the settings. -/
theorem Settles.ofLayer_eq (h : Settles layer said vars) : ofLayer layer = .ok (settled said vars) := by
  have hflag (key : String) (f : Stated → Option Bool) (hentry : ∀ s, Stated.entry s key = (f s).map .bool) :
      field layer key asBool? false = .ok ((lastWord said vars f).getD false) := by
    simpa using h.field_eq (v := id) false hentry fun d b => readsAs_bool
  have hexcludes : field layer "excludes" asTexts? [] = .ok ((lastWord said vars (·.excludes)).getD []) := by
    simpa using h.field_eq (v := id) [] (fun _ => rfl) fun d texts => readsAs_ofTexts
  have hencoding : field layer "encoding" asText? "o200k" = .ok ((lastWord said vars (·.encoding)).getD "o200k") := by
    simpa using h.field_eq (v := id) "o200k" (fun _ => rfl) fun d t hd => readsAs_text hd ▸ rfl
  have htemplate (read : Data → Option (Option String)) (hread : ∀ text, read (.text text) = some (some text)) :
      field layer "template" read none = .ok (lastWord said vars (·.template)) := by
    have hfield : field layer "template" read none =
        .ok (((lastWord said vars (·.template)).map some).getD none) :=
      h.field_eq none (fun _ => rfl) fun d t hd => readsAs_text hd ▸ hread t
    rw [hfield]
    cases lastWord said vars (·.template) <;> rfl
  simp only [ofLayer, hexcludes, hencoding, hflag "compress" (·.compress) fun _ => rfl,
    hflag "line_numbers" (·.lineNumbers) fun _ => rfl, hflag "no_codeblock" (·.noCodeblock) fun _ => rfl,
    hflag "relative_paths" (·.relativePaths) fun _ => rfl, hflag "follow_symlinks" (·.followSymlinks) fun _ => rfl,
    hflag "no_clipboard" (·.noClipboard) fun _ => rfl]
  rw [htemplate _ fun _ => rfl]
  rfl

/-! ## Loading -/

/-- Files are read one after the other. -/
theorem exists_layers {paths : List Path} (h : List.Forall₂ (FileSays fs) paths said)
    (alone : ∀ p ∈ paths, IsAlone fs p) :
    ∃ layers, paths.mapM (fileLayer fs) = .ok layers ∧ List.Forall₂ Amounts layers said := by
  simp only [mapM_eq_ok_iff]
  induction h with
  | nil => exact ⟨[], .nil, .nil⟩
  | cons hfile _ ih =>
    rw [List.forall_mem_cons] at alone
    obtain ⟨fields, hfields, hamounts⟩ := hfile.exists_fileLayer alone.1
    obtain ⟨layers, hlayers, hall⟩ := ih alone.2
    exact ⟨fields :: layers, .cons hfields hlayers, .cons hamounts hall⟩

theorem load_eq_of_mapM {paths : List Path} {layers : List Layer} (h : paths.mapM (fileLayer fs) = .ok layers)
    (env : List (String × String)) :
    load fs paths env = ofLayer (merge (layers ++ [environmentLayer env])) := by
  rw [load, h]
  rfl

theorem exists_says_of_mem {env : List (String × String)} (h : List.Forall₂ VariableSays env vars) :
    ∀ v ∈ env, ∃ s, VariableSays v s := by
  induction h with
  | nil => exact nofun
  | cons hv _ ih => exact List.forall_mem_cons.2 ⟨⟨_, hv⟩, ih⟩

/-- A text for globs that reads as a truth value or a number is what stands for them in the end. -/
theorem last?_environmentLayer_excludes {env : List (String × String)} (hdistinct : (env.map (·.1)).Nodup)
    (hvars : ∀ v ∈ env, ∃ s, VariableSays v s) {value : String} (h : ("INGEST_EXCLUDES", value) ∈ env) :
    last? (environmentLayer env) "excludes" = some (variableValue "excludes" value) := by
  refine last?_eq_some (List.mem_filterMap.2 ⟨_, h, setting?_excludes value⟩) fun d hd => ?_
  obtain ⟨v, hv, hsetting⟩ := List.mem_filterMap.1 hd
  obtain ⟨s, hs⟩ := hvars v hv
  obtain ⟨-, rfl, hname⟩ := hs.mem_names hsetting
  have hsame := List.inj_on_of_nodup_map hdistinct hv h (hname rfl)
  rw [hsame]

/-- Every setting is what the environment says about it, else what the last file says that speaks of it, else its
default, exactly when no variable gives globs in a text that reads as a truth value or a number; with such a text there
are no settings. -/
theorem load_last_word_iff {paths : List Path} {env : List (String × String)} (alone : ∀ p ∈ paths, IsAlone fs p)
    (hfiles : List.Forall₂ (FileSays fs) paths said) (hdistinct : (env.map (·.1)).Nodup)
    (hvars : List.Forall₂ VariableSays env vars) :
    (load fs paths env = .ok (settled said vars) ↔
      ∀ value, ("INGEST_EXCLUDES", value) ∈ env → ¬ ReadsAsScalar value) ∧
      ((∃ value, ("INGEST_EXCLUDES", value) ∈ env ∧ ReadsAsScalar value) →
        load fs paths env = .error .illTyped) := by
  obtain ⟨layers, hlayers, hamounts⟩ := exists_layers hfiles alone
  have hstated := exists_says_of_mem hvars
  rw [load_eq_of_mapM hlayers]
  have hplain : ∀ entry ∈ (layers ++ [environmentLayer env]).flatten, IsPlain entry := by
    rw [List.flatten_append, List.flatten_singleton]
    exact List.forall_mem_append.2 ⟨(amounts_flatten hamounts).1, isPlain_of_mem_environmentLayer hstated⟩
  have hfails : (∃ value, ("INGEST_EXCLUDES", value) ∈ env ∧ ReadsAsScalar value) →
      ofLayer (merge (layers ++ [environmentLayer env])) = .error .illTyped := by
    rintro ⟨value, hvalue, hscalar⟩
    have hlast := find?_merge hplain "excludes"
    rw [List.flatten_append, List.flatten_singleton, last?_append,
      last?_environmentLayer_excludes hdistinct hstated hvalue, Option.some_or] at hlast
    rw [ofLayer, field_eq_error hlast (asTexts?_variableValue hscalar "excludes")]
    rfl
  have hsettled : (∀ value, ("INGEST_EXCLUDES", value) ∈ env → ¬ ReadsAsScalar value) →
      ofLayer (merge (layers ++ [environmentLayer env])) = .ok (settled said vars) := by
    intro hglobs
    refine Settles.ofLayer_eq fun key => ?_
    rw [find?_merge hplain key, List.flatten_append, List.flatten_singleton, last?_append,
      environmentLayer_eq_flatten]
    exact rel_or ((amounts_flatten (forall₂_amounts hvars hglobs)).2 key) ((amounts_flatten hamounts).2 key)
  refine ⟨⟨fun hload value hvalue hscalar => ?_, hsettled⟩, hfails⟩
  exact absurd (hload.symm.trans (hfails ⟨value, hvalue, hscalar⟩)) nofun

/-- A directory with the settings of a user and those of a project. -/
def twoFiles : FileSystem where
  items := [(["user.toml"], .file (String.toUTF8 "compress = true\nno_clipboard = true\n")),
    (["ingest.toml"], .file (String.toUTF8 "compress = false\n"))]
  cwd := []

theorem twoFiles_isTree : twoFiles.IsTree := by decide

theorem place_twoFiles : twoFiles.place ⟨"."⟩ = some ⟨[], some .dir⟩ := by cbv

theorem readBytes?_twoFiles (name : String) {text : String} (h : twoFiles.lookup [name] = some (.file text.toUTF8)) :
    twoFiles.readBytes? (Path.join ⟨"."⟩ ⟨name⟩) = some text.toUTF8 := by
  rw [Path.join_ofNames_singleton, FileSystem.readBytes?,
    twoFiles_isTree.place_join_ofNames place_twoFiles (List.cons_ne_nil name []) h]
  rfl

/-- Whether the fields are these truth values. -/
def isFlags : Layer → List (String × Bool) → Bool
  | [], [] => true
  | (key, .bool b) :: fields, (name, flag) :: flags => key == name && b == flag && isFlags fields flags
  | _, _ => false

theorem eq_of_isFlags {flags : List (String × Bool)} (h : isFlags fields flags = true) :
    fields = flags.map fun (key, b) => (key, .bool b) := by
  fun_induction isFlags fields flags with
  | case1 => rfl
  | case2 key b fields name flag flags ih =>
    simp only [Bool.and_eq_true, beq_iff_eq] at h
    obtain ⟨⟨rfl, rfl⟩, hrest⟩ := h
    rw [List.map_cons, ← ih hrest]
  | case3 => cases h

/-- Whether a document is a record of these truth values. -/
def recordsFlags : Option Data → List (String × Bool) → Bool
  | some (.record fields), flags => isFlags fields flags
  | _, _ => false

theorem eq_of_recordsFlags {document : Option Data} {flags : List (String × Bool)}
    (h : recordsFlags document flags = true) :
    document = some (.record (flags.map fun (key, b) => (key, .bool b))) := by
  unfold recordsFlags at h
  split at h
  · rw [eq_of_isFlags h]
  · cases h

/-- The user's file compresses and turns the clipboard off. -/
theorem user_file_stated : FileSays twoFiles (Path.join ⟨"."⟩ ⟨"user.toml"⟩)
    { compress := some true, noClipboard := some true } := by
  have hflags : recordsFlags (Toml.parse? (withoutMark "compress = true\nno_clipboard = true\n"))
      [("compress", true), ("no_clipboard", true)] = true := by cbv
  exact .of_text (by decide) (readBytes?_twoFiles "user.toml" rfl) (eq_of_recordsFlags hflags)
    (says_iff.2 (by simp [names, Stated.entry]))

/-- The project's file does not compress. -/
theorem project_file_stated : FileSays twoFiles (Path.join ⟨"."⟩ ⟨"ingest.toml"⟩) { compress := some false } := by
  have hflags : recordsFlags (Toml.parse? (withoutMark "compress = false\n")) [("compress", false)] = true := by
    cbv
  exact .of_text (by decide) (readBytes?_twoFiles "ingest.toml" rfl) (eq_of_recordsFlags hflags)
    (says_iff.2 (by simp [names, Stated.entry]))

theorem absent_isAlone : twoFiles.isFile (Path.join ⟨"."⟩ ⟨"absent.toml"⟩) = false ∧
    IsAlone twoFiles (Path.join ⟨"."⟩ ⟨"absent.toml"⟩) := by
  have hmissing (name : String) (hname : Path.IsName name) (hnone : twoFiles.lookup [name] = none) :
      twoFiles.isFile (Path.join ⟨"."⟩ ⟨name⟩) = false :=
    FileSystem.isFile_join_eq_false place_twoFiles hname hnone
  refine ⟨hmissing _ (by decide) rfl, fun _ kind e he => ?_⟩
  have hjoin : ∀ kind ∈ FileKind.all, ∀ e ∈ kind.extensions,
      (⟨(Path.join ⟨"."⟩ ⟨"absent.toml"⟩).text ++ "." ++ e⟩ : Path) = Path.join ⟨"."⟩ ⟨"absent.toml." ++ e⟩ ∧
        (twoFiles.lookup ["absent.toml." ++ e]).isNone ∧ Path.IsName ("absent.toml." ++ e) := by decide
  obtain ⟨hpath, hnone, hname⟩ := hjoin kind (by cases kind <;> decide) e he
  rw [hpath]
  exact hmissing _ hname (Option.isNone_iff_eq_none.1 hnone)

/-- Two files, one that is missing between them, and variables of which one is for another program. -/
theorem two_files_and_variables :
    let paths : List Path := ["user.toml", "absent.toml", "ingest.toml"].map fun name => Path.join ⟨"."⟩ ⟨name⟩
    let said : List Stated := [{ compress := some true, noClipboard := some true }, {}, { compress := some false }]
    let env := [("INGEST_LINE_NUMBERS", "Yes"), ("PATH", "/bin"), ("INGEST_EXCLUDES", "a,b")]
    let vars : List Stated := [{ lineNumbers := some true }, {}, { excludes := some ["a", "b"] }]
    (∀ p ∈ paths, IsAlone twoFiles p) ∧ List.Forall₂ (FileSays twoFiles) paths said ∧ (env.map (·.1)).Nodup ∧
      List.Forall₂ VariableSays env vars ∧ (∀ value, ("INGEST_EXCLUDES", value) ∈ env → ¬ ReadsAsScalar value) ∧
      load twoFiles paths env = .ok { excludes := ["a", "b"], lineNumbers := true, noClipboard := true } := by
  intro paths said env vars
  have halone : ∀ p ∈ paths, IsAlone twoFiles p := by
    have hthere (name : String) {text : String} (h : twoFiles.lookup [name] = some (.file text.toUTF8)) :
        IsAlone twoFiles (Path.join ⟨"."⟩ ⟨name⟩) := fun hmissing =>
      absurd ((FileSystem.isFile_of_readBytes? (readBytes?_twoFiles name h)).symm.trans hmissing) nofun
    simp only [paths, List.map_cons, List.map_nil, List.forall_mem_cons, List.not_mem_nil, false_implies, implies_true,
      and_true]
    exact ⟨hthere "user.toml" rfl, absent_isAlone.2, hthere "ingest.toml" rfl⟩
  have hfiles : List.Forall₂ (FileSays twoFiles) paths said :=
    .cons user_file_stated (.cons (.missing absent_isAlone.1) (.cons project_file_stated .nil))
  have hvars : List.Forall₂ VariableSays env vars := by
    have hstated : Says [("line_numbers", .bool true)] { lineNumbers := some true } :=
      says_iff.2 (by simp [names, Stated.entry])
    exact .cons (.flag (by cbv) hstated (by cbv)) <| .cons (.foreign (by decide)) <|
      .cons (.excludes (by simp) (by simp) (by decide)) .nil
  have hglobs : ∀ value, ("INGEST_EXCLUDES", value) ∈ env → ¬ ReadsAsScalar value := by
    intro value hvalue
    obtain rfl : value = "a,b" := by simpa [env] using hvalue
    unfold ReadsAsScalar
    decide +kernel
  have hdistinct : (env.map (·.1)).Nodup := by decide
  exact ⟨halone, hfiles, hdistinct, hvars, hglobs, (load_last_word_iff halone hfiles hdistinct hvars).1.2 hglobs⟩

/-- A glob of digits alone is taken for a number, and there are no settings. -/
theorem glob_of_digits_is_no_list :
    VariableSays ("INGEST_EXCLUDES", "42") { excludes := some ["42"] } ∧
      settled [] [{ excludes := some ["42"] }] = { excludes := ["42"] } ∧
      load ⟨[], [], []⟩ [] [("INGEST_EXCLUDES", "42")] = .error .illTyped :=
  ⟨.excludes (by simp) (by simp) rfl, rfl, by cbv⟩

end PromptPack.Config
