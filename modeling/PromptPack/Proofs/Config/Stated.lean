import Mathlib.Data.List.Induction
import Mathlib.Data.List.TakeDrop
import PromptPack.Config
import PromptPack.Proofs.FileSystem.Tree
import PromptPack.Proofs.Text.Bytes
import PromptPack.Proofs.Text.Pieces
/-!
# What sources state

A file of settings and a variable of the environment each state values for some settings. The layers that are read say
about each setting as one what was said last (`find?_merge`), and the text of a variable stands for a truth value, a
number or globs. So the layer of a source amounts to what the source states (`FileSays.exists_fileLayer`,
`VariableSays.amounts`), and layers one after the other to what is stated last about each setting (`amounts_flatten`).
-/

namespace PromptPack.Config

/-! ## Keys that are set one after the other -/

section

variable {layer : Layer} {key name : String} {d : Data} {entries : List (String × Data)}

/-- What a layer says about a key, the last time that it speaks of it. -/
def last? (layer : Layer) (key : String) : Option Data := (layer.reverse.find? (·.1 == key)).map (·.2)

theorem last?_append (layer later : Layer) (key : String) :
    last? (layer ++ later) key = (last? later key).or (last? layer key) := by
  rw [last?, List.reverse_append, List.find?_append, Option.map_or, last?, last?]

theorem last?_singleton (entry : String × Data) (key : String) :
    last? [entry] key = if entry.1 = key then some entry.2 else none := by
  by_cases h : entry.1 = key <;> simp [last?, h]

theorem last?_eq_some (h : (key, d) ∈ layer) (hunique : ∀ d', (key, d') ∈ layer → d' = d) : last? layer key = some d := by
  unfold last?
  cases hfound : layer.reverse.find? (·.1 == key) with
  | none => exact absurd (List.find?_eq_none.1 hfound _ (List.mem_reverse.2 h)) (by simp)
  | some entry =>
    obtain rfl : entry.1 = key := by simpa using List.find?_some hfound
    exact congrArg some (hunique _ (List.mem_reverse.1 (List.mem_of_find?_eq_some hfound)))

theorem last?_eq_none (h : ∀ d, (key, d) ∉ layer) : last? layer key = none := by
  rw [last?, Option.map_eq_none_iff, List.find?_eq_none]
  rintro ⟨name, d⟩ hentry hname
  obtain rfl : name = key := by simpa using hname
  exact h d (List.mem_reverse.1 hentry)

/-- A statement that is about a setting as a whole and puts something in the place of what was there. -/
structure IsPlain (entry : String × Data) : Prop where
  key : keyPath entry.1 = (entry.1, [])
  value : ∀ fields, entry.2 ≠ .record fields

theorem overlay_of_ne_record (h : ∀ fields, d ≠ .record fields) (before : Data) : overlay before d = d := by
  rw [overlay]
  exact fun _ _ _ hnew => h _ hnew

/-- Setting a key changes what is found for it, and for no other one. -/
theorem find?_set (h : IsPlain (key, d)) (layer : Layer) (name : String) :
    ((set layer key d).find? (·.1 == name)).map (·.2) =
      if key = name then some d else (layer.find? (·.1 == name)).map (·.2) := by
  simp only [set, h.key, placed, overlay_of_ne_record h.value]
  by_cases hname : key = name
  · simp [hname]
  · rw [List.find?_cons_of_neg (by simpa using hname), List.find?_filter, if_neg hname]
    congr 2
    funext entry
    by_cases hentry : entry.1 = name <;> simp [hentry, Ne.symm hname]

/-- Keys that are set one after the other: the last one counts. -/
theorem find?_foldl_set (h : ∀ entry ∈ entries, IsPlain entry) (name : String) :
    ((entries.foldl (fun whole (key, d) => set whole key d) []).find? (·.1 == name)).map (·.2) =
      last? entries name := by
  induction entries using List.reverseRecOn with
  | nil => rfl
  | append_singleton front entry ih =>
    rw [List.forall_mem_append, List.forall_mem_singleton] at h
    rw [List.foldl_append, List.foldl_cons, List.foldl_nil, find?_set h.2, ih h.1, last?_append, last?_singleton]
    split <;> rfl

theorem find?_merge {layers : List Layer} (h : ∀ entry ∈ layers.flatten, IsPlain entry) (name : String) :
    ((merge layers).find? (·.1 == name)).map (·.2) = last? layers.flatten name :=
  find?_foldl_set h name

end

section

variable {key value : String} {b : Bool} {c l : Char} {cs ls : List Char}

/-! ## Letters -/

theorem toNat_toLower (c : Char) :
    c.toLower.toNat = c.toNat ∨ 65 ≤ c.toNat ∧ c.toNat ≤ 90 ∧ c.toLower.toNat = c.toNat + 32 := by
  unfold Char.toLower
  split
  · rename_i h
    obtain ⟨hlow, hhigh⟩ : 65 ≤ c.toNat ∧ c.toNat ≤ 90 :=
      ⟨UInt32.le_iff_toNat_le.1 h.1, UInt32.le_iff_toNat_le.1 h.2⟩
    refine .inr ⟨hlow, hhigh, ?_⟩
    have hsmall : c.toNat + 32 < 2 ^ 32 := by omega
    exact (UInt32.toNat_add _ _).trans (Nat.mod_eq_of_lt hsmall)
  · exact .inl rfl

theorem eq_of_toLower_eq (hl : l.toNat < 65) (h : c.toLower = l) : c = l := by
  rcases toNat_toLower c with hsame | ⟨hlow, -, hmoved⟩
  · rw [← Char.toNat_inj, ← hsame, h]
  · rw [h] at hmoved
    omega

theorem le_toNat_of_toLower_eq (hl : 97 ≤ l.toNat) (h : c.toLower = l) : 65 ≤ c.toNat := by
  rcases toNat_toLower c with hsame | ⟨hlow, -, -⟩
  · rw [h] at hsame
    omega
  · exact hlow

theorem isDigit_eq_false (h : 65 ≤ c.toNat) : c.isDigit = false := by
  rw [Char.isDigit, Bool.and_eq_false_iff, decide_eq_false_iff_not, decide_eq_false_iff_not]
  exact .inr fun hdigit => absurd (UInt32.le_iff_toNat_le.1 hdigit) (Nat.not_le.2 (Nat.lt_of_lt_of_le (by decide) h))

theorem spanSign_of_le (h : 65 ≤ c.toNat) : Decimal.spanSign (c :: cs) = (false, c :: cs) := by
  unfold Decimal.spanSign
  split
  · rename_i heq
    cases heq
    exact absurd h (by decide)
  · rename_i heq
    cases heq
    exact absurd h (by decide)
  · rfl

/-! ## Texts that are no numbers -/

theorem wordOfText?_of_letter (hvalue : value.toList = c :: cs) (hc : 65 ≤ c.toNat) :
    Decimal.wordOfText? value = none := by
  simp [Decimal.wordOfText?, hvalue, spanSign_of_le hc, isDigit_eq_false hc]

/-- A word is no decimal, apart from those for what is not finite. -/
theorem ofText?_of_letter (hvalue : value.toList = c :: cs) (hc : 65 ≤ c.toNat)
    (hword : value.toLower ∉ ["inf", "infinity", "nan"]) : Decimal.ofText? value = none := by
  have hpoint : c ≠ '.' := by
    rintro rfl
    exact absurd hc (by decide)
  have hspan : Decimal.spanDigits (c :: cs) = ([], c :: cs) := by
    rw [Decimal.spanDigits, List.span_eq_takeWhile_dropWhile]
    simp [isDigit_eq_false hc]
  have hlower : (String.ofList (c :: cs)).toLower = value.toLower := by
    rw [← hvalue, String.ofList_toList]
  unfold Decimal.ofText?
  simp only [hvalue, spanSign_of_le hc, hspan]
  split
  · rename_i heq
    exact absurd (List.cons.inj heq).1 hpoint
  · simp only [List.isEmpty_nil, Bool.and_self, if_true, hlower]
    split
    · exact absurd ‹_› fun h => hword (by simp [h])
    · exact absurd ‹_› fun h => hword (by simp [h])
    · exact absurd ‹_› fun h => hword (by simp [h])
    · rfl

/-! ## Truth values and globs -/

/-- The text of a variable is taken for a truth value or a number. -/
def ReadsAsScalar (value : String) : Prop :=
  value.toLower = "true" ∨ value.toLower = "false" ∨ (Decimal.wordOfText? value).isSome ∨
    (Decimal.ofText? value).isSome

theorem variableValue_of_not_readsAsScalar (h : ¬ ReadsAsScalar value) (key : String) :
    variableValue key value = if key == "excludes" then .ofTexts (Text.splitAt ',' value) else .text value := by
  simp only [ReadsAsScalar, not_or, Bool.not_eq_true, Option.isSome_eq_false_iff, Option.isNone_iff_eq_none] at h
  obtain ⟨htrue, hfalse, hword, hreal⟩ := h
  simp only [variableValue, hword, hreal]

theorem variableValue_ne_record (key value : String) (fields : List (String × Data)) :
    variableValue key value ≠ .record fields := by
  unfold variableValue
  split
  · exact nofun
  · exact nofun
  · split
    · exact nofun
    · split
      · exact nofun
      · split <;> exact nofun

/-- What reads as a truth value or a number is no list. -/
theorem asTexts?_variableValue (h : ReadsAsScalar value) (key : String) :
    asTexts? (variableValue key value) = none := by
  unfold variableValue
  split
  · rfl
  · rfl
  · rename_i htrue hfalse
    cases hword : Decimal.wordOfText? value with
    | some n => rfl
    | none =>
      cases hreal : Decimal.ofText? value with
      | some x => rfl
      | none => exact absurd h (by simpa [ReadsAsScalar, hword, hreal] using ⟨htrue, hfalse⟩)

theorem eq_of_toLower_eq_digit (hl : l.toNat < 65) (h : value.toLower = String.ofList [l]) :
    value = String.ofList [l] := by
  have hlist : value.toList.map Char.toLower = [l] := by
    rw [← String.toList_map]
    exact (congrArg String.toList h).trans String.toList_ofList
  obtain ⟨c, hvalue, hc⟩ := List.map_eq_singleton_iff.1 hlist
  rw [← String.toList_inj, hvalue, eq_of_toLower_eq hl hc, String.toList_ofList]

/-- Words for truth values are no numbers. -/
theorem not_readsAsScalar_of_word (hl : 97 ≤ l.toNat) (h : value.toLower = String.ofList (l :: ls))
    (hword : value.toLower ∉ ["true", "false", "inf", "infinity", "nan"]) : ¬ ReadsAsScalar value := by
  have hlist : value.toList.map Char.toLower = l :: ls := by
    rw [← String.toList_map]
    exact (congrArg String.toList h).trans String.toList_ofList
  obtain ⟨c, cs, hvalue, hc, -⟩ := List.map_eq_cons_iff.1 hlist
  have hletter := le_toNat_of_toLower_eq hl hc
  rintro (htrue | hfalse | hnumber | hreal)
  · exact hword (by simp [htrue])
  · exact hword (by simp [hfalse])
  · rw [wordOfText?_of_letter hvalue hletter] at hnumber
    cases hnumber
  · rw [ofText?_of_letter hvalue hletter fun h => hword (by simp_all)] at hreal
    cases hreal

/-- A text for a truth value stands for it in a variable as well. -/
theorem asBool?_variableValue (hkey : key ≠ "excludes") (h : asBool? (.text value) = some b) :
    asBool? (variableValue key value) = some b := by
  have hword {l : Char} {ls : List Char} (hl : 97 ≤ l.toNat) (hlower : value.toLower = String.ofList (l :: ls))
      (hnone : value.toLower ∉ ["true", "false", "inf", "infinity", "nan"]) :
      asBool? (variableValue key value) = some b := by
    rw [variableValue_of_not_readsAsScalar (not_readsAsScalar_of_word hl hlower hnone), if_neg (by simpa using hkey), h]
  have hvalue := h
  unfold asBool? at hvalue
  simp only at hvalue
  split at hvalue
  case h_1 hlower =>
    obtain rfl := eq_of_toLower_eq_digit (l := '1') (by decide) hlower
    have hone : Decimal.wordOfText? (String.ofList ['1']) = some 1 := by decide
    rw [variableValue, hlower, hone, ← hvalue]
    rfl
  case h_5 hlower =>
    obtain rfl := eq_of_toLower_eq_digit (l := '0') (by decide) hlower
    have hzero : Decimal.wordOfText? (String.ofList ['0']) = some 0 := by decide
    rw [variableValue, hlower, hzero, ← hvalue]
    rfl
  case h_2 hlower | h_6 hlower =>
    rw [variableValue, hlower, ← hvalue]
    rfl
  case h_3 hlower => exact hword (l := 'o') (by decide) hlower (by simp [hlower])
  case h_4 hlower => exact hword (l := 'y') (by decide) hlower (by simp [hlower])
  case h_7 hlower => exact hword (l := 'o') (by decide) hlower (by simp [hlower])
  case h_8 hlower => exact hword (l := 'n') (by decide) hlower (by simp [hlower])
  case h_9 => cases hvalue

end

variable {fs : FileSystem} {layer fields : Layer} {key name value : String} {d : Data} {p : Path} {b : Bool}

/-! ## What sources say -/

/-- What a source says about each setting, if it speaks of it. -/
structure Stated where
  excludes : Option (List String) := none
  encoding : Option String := none
  compress : Option Bool := none
  lineNumbers : Option Bool := none
  noCodeblock : Option Bool := none
  relativePaths : Option Bool := none
  followSymlinks : Option Bool := none
  template : Option String := none
  noClipboard : Option Bool := none

variable {s : Stated} {said vars : List Stated}

/-- The value that stands under the name of a setting. -/
def Stated.entry (s : Stated) : String → Option Data
  | "excludes" => s.excludes.map .ofTexts
  | "encoding" => s.encoding.map .text
  | "compress" => s.compress.map .bool
  | "line_numbers" => s.lineNumbers.map .bool
  | "no_codeblock" => s.noCodeblock.map .bool
  | "relative_paths" => s.relativePaths.map .bool
  | "follow_symlinks" => s.followSymlinks.map .bool
  | "template" => s.template.map .text
  | "no_clipboard" => s.noClipboard.map .bool
  | _ => none

/-- The fields are what is stated, under the names of the settings and with values of their kinds. -/
def Says (fields : Layer) (s : Stated) : Prop := ∀ key d, (key, d) ∈ fields ↔ s.entry key = some d

/-- What the file states that a path names; a missing one states nothing. -/
inductive FileSays (fs : FileSystem) (p : Path) : Stated → Prop
  | file {bytes : ByteArray} {fields : Layer} {s : Stated} (hextension : p.extension? = some "toml")
    (hread : fs.readBytes? p = some bytes)
    (hdocument : Toml.parse? (withoutMark (Text.decodeLossy bytes)) = some (.record fields))
    (hstated : Says fields s) : FileSays fs p s
  | missing (hmissing : fs.isFile p = false) : FileSays fs p {}

/-- When the file is missing, there is none either at the path with a further extension, which would be read in its
place. -/
def IsAlone (fs : FileSystem) (p : Path) : Prop :=
  fs.isFile p = false → ∀ kind : FileKind, ∀ e ∈ kind.extensions, fs.isFile ⟨p.text ++ "." ++ e⟩ = false

/-- What a variable of the environment states: a truth value for a setting of that kind, globs between commas, or
nothing when it is not for this program. -/
inductive VariableSays : String × String → Stated → Prop
  | flag {name key value : String} {b : Bool} {s : Stated} (hname : name = "INGEST_" ++ key.toUpper)
    (hstated : Says [(key, .bool b)] s) (hvalue : asBool? (.text value) = some b) : VariableSays (name, value) s
  | excludes {value : String} {globs : List String} (hne : globs ≠ []) (hcomma : ∀ glob ∈ globs, ',' ∉ glob.toList)
    (hvalue : value = ",".intercalate globs) : VariableSays ("INGEST_EXCLUDES", value) { excludes := some globs }
  | foreign {name value : String} (hforeign : ¬ variableStart.toList <+: name.toList.map Char.toLower) :
    VariableSays (name, value) {}

/-! ## Names and values -/

/-- The names of the settings. -/
def names : List String :=
  ["excludes", "encoding", "compress", "line_numbers", "no_codeblock", "relative_paths", "follow_symlinks", "template",
    "no_clipboard"]

theorem Stated.mem_names_of_entry (h : s.entry key = some d) : key ∈ names := by
  unfold Stated.entry at h
  split at h <;> first | decide | cases h

theorem Stated.ne_record_of_entry (h : s.entry key = some d) (fields : Layer) : d ≠ .record fields := by
  rintro rfl
  unfold Stated.entry at h
  split at h <;> simp [Data.ofTexts] at h

theorem Stated.entry_empty (key : String) : Stated.entry {} key = none := by
  unfold Stated.entry
  split <;> rfl

/-- A name has no steps in it, and it is what is left of the variable named after it. -/
theorem keyPath_and_variable_of_mem_names : ∀ key ∈ names, keyPath key = (key, []) ∧
    Text.dropStart? variableStart.toList (("INGEST_" ++ key.toUpper).toList.map Char.toLower) = some key.toList ∧
      String.ofList (dotted key.toList) = key := by
  decide +kernel

theorem setting?_of_mem_names (h : key ∈ names) (value : String) :
    setting? ("INGEST_" ++ key.toUpper) value = some (key, variableValue key value) := by
  obtain ⟨-, hdrop, hdotted⟩ := keyPath_and_variable_of_mem_names key h
  rw [setting?, hdrop, Option.map_some, hdotted]

/-- It is enough to look at the fields and at the names. -/
theorem says_iff : Says fields s ↔ (∀ entry ∈ fields, s.entry entry.1 = some entry.2) ∧
    ∀ key ∈ names, ∀ d, s.entry key = some d → (key, d) ∈ fields := by
  constructor
  · exact fun h => ⟨fun entry => (h entry.1 entry.2).1, fun key _ d => (h key d).2⟩
  · rintro ⟨hfields, hnames⟩ key d
    exact ⟨hfields (key, d), fun hentry => hnames key (Stated.mem_names_of_entry hentry) d hentry⟩

theorem Says.isPlain (h : Says fields s) : ∀ entry ∈ fields, IsPlain entry := by
  rintro ⟨key, d⟩ hentry
  have hsaid := (h key d).1 hentry
  exact ⟨(keyPath_and_variable_of_mem_names key (Stated.mem_names_of_entry hsaid)).1, Stated.ne_record_of_entry hsaid⟩

theorem Says.last?_eq (h : Says fields s) (key : String) : last? fields key = s.entry key := by
  cases hsaid : s.entry key with
  | none => exact last?_eq_none fun d hmem => absurd (hsaid.symm.trans ((h key d).1 hmem)) nofun
  | some d =>
    exact last?_eq_some ((h key d).2 hsaid) fun d' hmem => Option.some.inj (((h key d').1 hmem).symm.trans hsaid)

/-! ## What layers amount to -/

/-- The value reads as one that states the same. -/
def ReadsAs (d d' : Data) : Prop := d = d' ∨ ∃ b, d' = .bool b ∧ asBool? d = some b

/-- The layer has plain statements, and the last one about each setting reads as what is stated. -/
structure Amounts (layer : Layer) (s : Stated) : Prop where
  plain : ∀ entry ∈ layer, IsPlain entry
  last (key : String) : Option.Rel ReadsAs (last? layer key) (s.entry key)

theorem Says.amounts (h : Says fields s) : Amounts fields s where
  plain := h.isPlain
  last key := by
    rw [h.last?_eq key]
    cases s.entry key with
    | none => exact .none
    | some d => exact .some (.inl rfl)

theorem says_nil : Says [] {} := fun key d => by simp [Stated.entry_empty]

/-- A file that holds a text needs no replacement of bytes. -/
theorem FileSays.of_text {text : String} (hextension : p.extension? = some "toml")
    (hread : fs.readBytes? p = some text.toUTF8) (hdocument : Toml.parse? (withoutMark text) = some (.record fields))
    (hstated : Says fields s) : FileSays fs p s :=
  .file hextension hread (by rwa [Text.decodeLossy_toUTF8]) hstated

theorem FileSays.exists_fileLayer (h : FileSays fs p s) (alone : IsAlone fs p) :
    ∃ fields, fileLayer fs p = .ok fields ∧ Amounts fields s := by
  cases h with
  | @file bytes fields _ hextension hread hdocument hstated =>
    have hlocate : locate? fs p = some (p, .toml) := by
      rw [locate?, if_pos (FileSystem.isFile_of_readBytes? hread), hextension]
      rfl
    refine ⟨fields, ?_, hstated.amounts⟩
    simp only [fileLayer, hlocate, hread, FileKind.parse?, hdocument]
  | missing hmissing =>
    have hnone : locate? fs p = none := by
      rw [locate?, if_neg (by simp [hmissing]), List.find?_eq_none]
      intro candidate hcandidate
      obtain ⟨kind, -, hkind⟩ := List.mem_flatMap.1 hcandidate
      obtain ⟨e, he, rfl⟩ := List.mem_map.1 hkind
      simp [alone hmissing kind e he]
    exact ⟨[], by rw [fileLayer, hnone], says_nil.amounts⟩

theorem rel_or {α β : Type} {r : α → β → Prop} {a a' : Option α} {b b' : Option β} (h : Option.Rel r a b)
    (h' : Option.Rel r a' b') : Option.Rel r (a.or a') (b.or b') := by
  cases h with
  | none => exact h'
  | some hab => exact .some hab

/-- Layers one after the other amount to what is said last. -/
theorem amounts_flatten {layers : List Layer} (h : List.Forall₂ Amounts layers said) :
    (∀ entry ∈ layers.flatten, IsPlain entry) ∧
      ∀ key, Option.Rel ReadsAs (last? layers.flatten key) (said.reverse.findSome? (·.entry key)) := by
  induction h with
  | nil => exact ⟨by simp, fun key => .none⟩
  | @cons layer s layers said hlayer _ ih =>
    refine ⟨?_, fun key => ?_⟩
    · rw [List.flatten_cons]
      exact List.forall_mem_append.2 ⟨hlayer.plain, ih.1⟩
    · rw [List.flatten_cons, last?_append, List.reverse_cons, List.findSome?_append]
      refine rel_or (ih.2 key) ?_
      rw [List.findSome?_singleton]
      exact hlayer.last key

theorem environmentLayer_eq_flatten (env : List (String × String)) :
    environmentLayer env = (env.map fun v => environmentLayer [v]).flatten := by
  induction env with
  | nil => rfl
  | cons v env ih =>
    rw [List.map_cons, List.flatten_cons, ← ih]
    exact List.filterMap_append (l := [v])

theorem environmentLayer_singleton (name value : String) :
    environmentLayer [(name, value)] = (setting? name value).toList := by
  cases h : setting? name value <;> simp [environmentLayer, h]

theorem setting?_of_foreign (h : ¬ variableStart.toList <+: name.toList.map Char.toLower) (value : String) :
    setting? name value = none := by
  have hdrop : Text.dropStart? variableStart.toList (name.toList.map Char.toLower) = none :=
    Option.eq_none_iff_forall_ne_some.2 fun rest hrest => h ⟨rest, (Text.dropStart?_eq_some_iff.1 hrest).symm⟩
  rw [setting?, hdrop, Option.map_none]

theorem setting?_excludes (value : String) :
    setting? "INGEST_EXCLUDES" value = some ("excludes", variableValue "excludes" value) := by
  have hname : "INGEST_EXCLUDES" = "INGEST_" ++ "excludes".toUpper := by simp [String.toUpper, ← String.toList_inj]
  rw [hname, setting?_of_mem_names (by decide)]

theorem Says.flag_ne_excludes (h : Says [(key, .bool b)] s) : key ≠ "excludes" := by
  rintro rfl
  have hentry : s.entry "excludes" = some (.bool b) := (h _ _).1 List.mem_cons_self
  simp [Stated.entry, Data.ofTexts] at hentry

/-- What a variable says is about a setting, and only one variable is about globs. -/
theorem VariableSays.mem_names {v : String × String} (h : VariableSays v s) (hsetting : setting? v.1 v.2 = some (key, d)) :
    key ∈ names ∧ d = variableValue key v.2 ∧ (key = "excludes" → v.1 = "INGEST_EXCLUDES") := by
  cases h with
  | @flag _ name value b _ hvariable hstated hvalue =>
    subst hvariable
    have hname := Stated.mem_names_of_entry ((hstated name _).1 List.mem_cons_self)
    rw [setting?_of_mem_names hname] at hsetting
    cases hsetting
    exact ⟨hname, rfl, fun heq => absurd heq hstated.flag_ne_excludes⟩
  | excludes =>
    rw [setting?_excludes] at hsetting
    cases hsetting
    exact ⟨by decide, rfl, fun _ => rfl⟩
  | foreign hforeign =>
    rw [setting?_of_foreign hforeign] at hsetting
    cases hsetting

theorem isPlain_of_mem_environmentLayer {env : List (String × String)} (h : ∀ v ∈ env, ∃ s, VariableSays v s) :
    ∀ entry ∈ environmentLayer env, IsPlain entry := by
  rintro ⟨key, d⟩ hentry
  obtain ⟨v, hv, hsetting⟩ := List.mem_filterMap.1 hentry
  obtain ⟨s, hs⟩ := h v hv
  obtain ⟨hkey, rfl, -⟩ := hs.mem_names hsetting
  exact ⟨(keyPath_and_variable_of_mem_names key hkey).1, variableValue_ne_record _ _⟩

theorem VariableSays.amounts {v : String × String} (h : VariableSays v s)
    (hscalar : v.1 = "INGEST_EXCLUDES" → ¬ ReadsAsScalar v.2) : Amounts (environmentLayer [v]) s where
  plain := isPlain_of_mem_environmentLayer (List.forall_mem_singleton.2 ⟨s, h⟩)
  last name := by
    cases h with
    | @flag _ key value b _ hname hstated hvalue =>
      subst hname
      have hkey := Stated.mem_names_of_entry ((hstated key _).1 List.mem_cons_self)
      rw [environmentLayer_singleton, setting?_of_mem_names hkey, Option.toList_some, last?_singleton,
        ← hstated.last?_eq name, last?_singleton]
      split
      · exact .some (.inr ⟨b, rfl, asBool?_variableValue hstated.flag_ne_excludes hvalue⟩)
      · exact .none
    | @excludes value globs hne hcomma hvalue =>
      have hsplit : Text.splitAt ',' value = globs := hvalue ▸ Text.splitAt_intercalate hne hcomma
      rw [environmentLayer_singleton, setting?_excludes, Option.toList_some, last?_singleton,
        variableValue_of_not_readsAsScalar (hscalar rfl), hsplit]
      by_cases hname : "excludes" = name
      · subst hname
        exact .some (.inl rfl)
      · rw [if_neg hname]
        unfold Stated.entry
        split <;> first | exact absurd rfl hname | exact .none
    | foreign hforeign =>
      rw [environmentLayer_singleton, setting?_of_foreign hforeign]
      exact says_nil.amounts.last name

theorem forall₂_amounts {env : List (String × String)} (h : List.Forall₂ VariableSays env vars)
    (hglobs : ∀ value, ("INGEST_EXCLUDES", value) ∈ env → ¬ ReadsAsScalar value) :
    List.Forall₂ Amounts (env.map fun v => environmentLayer [v]) vars := by
  induction h with
  | nil => exact .nil
  | @cons v s env vars hv _ ih =>
    refine .cons (hv.amounts fun hname => ?_) (ih fun value hvalue => hglobs value (List.mem_cons_of_mem v hvalue))
    exact hglobs v.2 (List.mem_cons.2 (.inl (Prod.ext hname.symm rfl)))

end PromptPack.Config
