import Mathlib.Data.List.Induction
import PromptPack.Exclusion
import PromptPack.Proofs.FileSystem.Below
import PromptPack.Proofs.Glob.Lines
import PromptPack.Proofs.Yields
import PromptPack.Proofs.Path.Order
import PromptPack.Proofs.Text.Bytes
/-!
# Which sources of globs count

A pattern file that is given stands alone, then the user's default list does, then the built-in list is followed by the
user's other lists. These are the regular files at any depth below the user's directory whose extension says so, each
once and in the order of paths (`listsBelow_patternFiles`). In each case there is one list of files to read, and the
result is what they spell, or an error as soon as one of them cannot be read (`sources_by_precedence_iff`). Below a lone
dash no list is looked for.
-/

namespace PromptPack.Exclusion

/-! ## The pattern files below a directory -/

section

variable {fs : FileSystem} {dir p : Path} {loc : Location} {names : List String} {files files' : List Path}

/-- The names lead from the location down to a regular file with the extension of pattern files. -/
structure IsPatternFile (fs : FileSystem) (loc : Location) (names : List String) : Prop where
  file : ∃ bytes, fs.lookup (loc ++ names) = some (.file bytes)
  extension : ∃ name, names.getLast? = some name ∧ Path.extensionOf? name = some "glob"

theorem IsPatternFile.ne_nil (h : IsPatternFile fs loc names) : names ≠ [] := by
  rintro rfl
  obtain ⟨name, hname, -⟩ := h.extension
  cases hname

theorem IsPatternFile.isName (h : IsPatternFile fs loc names) (tree : fs.IsTree) : ∀ n ∈ names, Path.IsName n := by
  obtain ⟨bytes, hfile⟩ := h.file
  exact tree.isName_below hfile

/-- The paths of the pattern files below a directory, each once and in the order of paths. -/
structure ListsBelow (fs : FileSystem) (dir : Path) (loc : Location) (files : List Path) : Prop where
  mem : ∀ p, p ∈ files ↔ ∃ names, IsPatternFile fs loc names ∧ p = dir.join (.ofNames names)
  ascending : files.Pairwise fun p q => Path.compareComponents p.components q.components = .lt

/-- There is one way to list the pattern files of a directory. -/
theorem ListsBelow.unique (h : ListsBelow fs dir loc files) (h' : ListsBelow fs dir loc files') : files = files' := by
  have hdistinct {files : List Path} (h : ListsBelow fs dir loc files) : files.Nodup := by
    refine h.ascending.imp fun {p q} hlt heq => ?_
    subst heq
    exact absurd (hlt.symm.trans Std.ReflCmp.compare_self) (by decide)
  have hperm : files.Perm files' := by
    rw [List.perm_ext_iff_of_nodup (hdistinct h) (hdistinct h')]
    exact fun p => (h.mem p).trans (h'.mem p).symm
  refine hperm.eq_of_pairwise (fun p q _ _ hpq hqp => ?_) h.ascending h'.ascending
  rw [Std.OrientedCmp.gt_of_lt hpq] at hqp
  cases hqp

/-! ## Finding them -/

theorem isBelow_iff {l : Location} : isBelow loc l = true ↔ ∃ names, names ≠ [] ∧ l = loc ++ names := by
  rw [isBelow, Bool.and_eq_true, beq_iff_eq, bne_iff_ne]
  constructor
  · rintro ⟨htake, hne⟩
    refine ⟨l.drop loc.length, fun hnil => hne ?_, ?_⟩
    · rw [← List.take_append_drop loc.length l, htake, hnil, List.append_nil]
    · conv => lhs; rw [← List.take_append_drop loc.length l, htake]
  · rintro ⟨names, hne, rfl⟩
    exact ⟨List.take_left, by simpa using hne⟩

/-- Joining names one after the other is joining the path that they make. -/
theorem foldl_join_eq (dir : Path) (hne : names ≠ []) (h : ∀ n ∈ names, Path.IsName n) :
    names.foldl (fun p n => p.join ⟨n⟩) dir = dir.join (.ofNames names) := by
  induction names using List.reverseRecOn with
  | nil => exact absurd rfl hne
  | append_singleton front name ih =>
    rw [List.forall_mem_append, List.forall_mem_singleton] at h
    rw [List.foldl_append, List.foldl_cons, List.foldl_nil]
    by_cases hfront : front = []
    · subst hfront
      exact Path.join_ofNames_singleton dir name
    · rw [ih hfront h.1, Path.join_ofNames_join dir hfront h.1 h.2]

theorem extension?_join_ofNames (hdir : dir.text ≠ "") (hne : names ≠ []) (h : ∀ n ∈ names, Path.IsName n) :
    (dir.join (.ofNames names)).extension? = names.getLast?.bind Path.extensionOf? := by
  rw [Path.extension?, Path.fileName?, Path.components_join_ofNames hdir hne h, List.getLast?_append,
    List.getLast?_map, List.getLast?_eq_some_getLast hne]
  rfl

/-- An item of a tree is a pattern file below the directory exactly when names lead to it that make its path. -/
theorem patternFile?_eq_some_iff (tree : fs.IsTree) (hdir : dir.text ≠ "") {l : Location} {item : Item}
    (hitem : (l, item) ∈ fs.items) : patternFile? dir loc (l, item) = some p ↔
      ∃ names, l = loc ++ names ∧ IsPatternFile fs loc names ∧ p = dir.join (.ofNames names) := by
  have hlookup := tree.lookup_of_mem_items hitem
  constructor
  · intro h
    cases item with
    | file bytes =>
      simp only [patternFile?, Option.ite_none_right_eq_some, isBelow_iff, beq_iff_eq, Option.some.injEq] at h
      obtain ⟨⟨names, hne, rfl⟩, hextension, rfl⟩ := h
      have hnames := tree.isName_below hlookup
      rw [List.drop_left, foldl_join_eq dir hne hnames] at hextension ⊢
      rw [extension?_join_ofNames hdir hne hnames, Option.bind_eq_some_iff] at hextension
      exact ⟨names, rfl, ⟨⟨bytes, hlookup⟩, hextension⟩, rfl⟩
    | dir => cases h
    | link target => cases h
  · rintro ⟨names, rfl, hpattern, rfl⟩
    obtain ⟨bytes, hfile⟩ := hpattern.file
    obtain rfl := Option.some.inj (hlookup.symm.trans hfile)
    have hnames := hpattern.isName tree
    simp only [patternFile?, Option.ite_none_right_eq_some, isBelow_iff, beq_iff_eq, Option.some.injEq]
    refine ⟨⟨names, hpattern.ne_nil, rfl⟩, ?_⟩
    rw [List.drop_left, foldl_join_eq dir hpattern.ne_nil hnames,
      extension?_join_ofNames hdir hpattern.ne_nil hnames, Option.bind_eq_some_iff]
    exact ⟨hpattern.extension, rfl⟩

/-- The pattern files that are found are those that are there, in the order of their paths. -/
theorem listsBelow_patternFiles (tree : fs.IsTree) (hdir : dir.text ≠ "") (loc : Location) :
    ListsBelow fs dir loc (patternFiles fs dir loc) where
  mem p := by
    rw [patternFiles, List.mem_mergeSort, List.mem_filterMap]
    constructor
    · rintro ⟨⟨l, item⟩, hitem, hp⟩
      obtain ⟨names, -, hpattern, rfl⟩ := (patternFile?_eq_some_iff tree hdir hitem).1 hp
      exact ⟨names, hpattern, rfl⟩
    · rintro ⟨names, hpattern, rfl⟩
      obtain ⟨bytes, hfile⟩ := hpattern.file
      have hitem := FileSystem.mem_items_of_lookup (by simp [hpattern.ne_nil]) hfile
      exact ⟨_, hitem, (patternFile?_eq_some_iff tree hdir hitem).2 ⟨names, rfl, hpattern, rfl⟩⟩
  ascending := by
    -- Items at different locations have different names below the directory, so their paths differ.
    refine Path.mergeSort_increasing id (List.pairwise_filterMap.2 (tree.distinct.imp_of_mem ?_))
    rintro ⟨l, item⟩ ⟨l', item'⟩ hitem hitem' hne p hp p' hp' heq
    obtain ⟨names, rfl, hpattern, rfl⟩ := (patternFile?_eq_some_iff tree hdir hitem).1 hp
    obtain ⟨names', rfl, hpattern', rfl⟩ := (patternFile?_eq_some_iff tree hdir hitem').1 hp'
    simp only [id, Path.components_join_ofNames hdir hpattern.ne_nil (hpattern.isName tree),
      Path.components_join_ofNames hdir hpattern'.ne_nil (hpattern'.isName tree), List.append_cancel_left_eq] at heq
    exact hne (congrArg (loc ++ ·) ((List.map_inj_right fun _ _ => Path.Component.name.inj).1 heq))

end

variable {fs : FileSystem} {p dir : Path} {globs : List String} {noDefaults : Bool} {file userDir : Option Path}

/-! ## One file -/

/-- The path leads to a file that can be opened and holds a text. -/
def Readable (fs : FileSystem) (p : Path) : Prop := ∃ text, fs.readBytes? p = some (String.toUTF8 text)

/-- It holds a text whose rows spell the globs. -/
def Spelt (fs : FileSystem) (p : Path) (globs : List String) : Prop :=
  ∃ text, fs.readBytes? p = some (String.toUTF8 text) ∧ Glob.Spells (Text.rows text) globs

theorem Spelt.of_place {loc : Location} {text : String}
    (hplace : fs.place p = some ⟨loc, some (.file text.toUTF8)⟩) (hopens : fs.opens loc = true)
    (hglobs : Glob.parseLines text = globs) : Spelt fs p globs :=
  ⟨text, by rw [FileSystem.readBytes?, hplace]; exact if_pos hopens, Glob.parseLines_eq_iff.1 hglobs⟩

theorem readText?_eq_some_iff {text : String} : fs.readText? p = some text ↔ fs.readBytes? p = some text.toUTF8 := by
  simp only [FileSystem.readText?, Option.bind_eq_some_iff, Text.decode?_eq_some_iff, exists_eq_right]

theorem readGlobs_eq_ok_iff : readGlobs fs p = .ok globs ↔ Spelt fs p globs := by
  simp only [readGlobs, Spelt, ← readText?_eq_some_iff, ← Glob.parseLines_eq_iff]
  cases fs.readText? p <;> simp

theorem readGlobs_eq_error_iff {e : Unreadable} : readGlobs fs p = .error e ↔ e.path = p ∧ ¬ Readable fs p := by
  simp only [readGlobs, Readable, ← readText?_eq_some_iff]
  cases e
  cases fs.readText? p <;> simp [eq_comm]

theorem exists_readGlobs_iff : (∃ globs, readGlobs fs p = .ok globs) ↔ Readable fs p := by
  simp only [readGlobs, Readable, ← readText?_eq_some_iff]
  cases fs.readText? p <;> simp

/-! ## Files one after the other -/

/-- What is to be read: globs that are there already, and the files whose globs follow. -/
structure Reading where
  base : List String
  files : List Path

/-- The result is what the files spell behind the globs that are there; it is an error exactly when one of the files
is not readable, and names the first such file. -/
structure Reading.Gives (r : Reading) (fs : FileSystem) (result : Except Unreadable (List String)) : Prop where
  globs : ∀ globs, result = .ok globs ↔
    ∃ lists, List.Forall₂ (Spelt fs) r.files lists ∧ globs = r.base ++ lists.flatten
  fails : (∃ e, result = .error e) ↔ ∃ p ∈ r.files, ¬ Readable fs p
  first : ∀ e, result = .error e ↔
    ∃ front back, r.files = front ++ e.path :: back ∧ (∀ p ∈ front, Readable fs p) ∧ ¬ Readable fs e.path

/-- Reading the files of a reading in turn. -/
def Reading.run (r : Reading) (fs : FileSystem) : Except Unreadable (List String) := do
  let lists ← r.files.mapM (readGlobs fs)
  return r.base ++ lists.flatten

theorem Reading.run_eq_ok_iff {r : Reading} : r.run fs = .ok globs ↔
    ∃ lists, List.Forall₂ (Spelt fs) r.files lists ∧ globs = r.base ++ lists.flatten := by
  have hmap (lists : List (List String)) : List.Forall₂ (Spelt fs) r.files lists ↔
      r.files.mapM (readGlobs fs) = .ok lists := by
    simp only [mapM_eq_ok_iff, readGlobs_eq_ok_iff]
  simp only [hmap, Reading.run]
  cases r.files.mapM (readGlobs fs) <;> simp [bind, Except.bind, pure, Except.pure, eq_comm]

theorem Reading.run_eq_error_iff {r : Reading} {e : Unreadable} : r.run fs = .error e ↔
    ∃ front back, r.files = front ++ e.path :: back ∧ (∀ p ∈ front, Readable fs p) ∧ ¬ Readable fs e.path := by
  have hmap : r.run fs = .error e ↔ r.files.mapM (readGlobs fs) = .error e := by
    simp only [Reading.run]
    cases r.files.mapM (readGlobs fs) <;> simp [bind, Except.bind, pure, Except.pure]
  simp only [hmap, mapM_eq_error_iff, readGlobs_eq_error_iff, exists_readGlobs_iff]
  constructor
  · rintro ⟨front, p, back, hfiles, hfront, rfl, hp⟩
    exact ⟨front, back, hfiles, hfront, hp⟩
  · rintro ⟨front, back, hfiles, hfront, hp⟩
    exact ⟨front, _, back, hfiles, hfront, rfl, hp⟩

/-- Among files of which some are not readable there is a first one. -/
theorem exists_first_unreadable {files : List Path} (h : ∃ p ∈ files, ¬ Readable fs p) :
    ∃ front p back, files = front ++ p :: back ∧ (∀ q ∈ front, Readable fs q) ∧ ¬ Readable fs p := by
  classical
  obtain ⟨p, hp, hunreadable⟩ := h
  have hfound : (files.find? fun q => ¬ Readable fs q).isSome := List.find?_isSome.2 ⟨p, hp, by simpa⟩
  obtain ⟨q, hq⟩ := Option.isSome_iff_exists.1 hfound
  obtain ⟨hunreadable, front, back, rfl, hfront⟩ := List.find?_eq_some_iff_append.1 hq
  exact ⟨front, q, back, rfl, fun q hq => by simpa using hfront q hq, by simpa using hunreadable⟩

theorem Reading.gives_run (r : Reading) : r.Gives fs (r.run fs) where
  globs _ := r.run_eq_ok_iff
  first _ := r.run_eq_error_iff
  fails := by
    simp only [Reading.run_eq_error_iff]
    constructor
    · rintro ⟨e, front, back, hfiles, -, he⟩
      exact ⟨e.path, hfiles ▸ by simp, he⟩
    · intro h
      obtain ⟨front, p, back, hfiles, hfront, hp⟩ := exists_first_unreadable h
      exact ⟨⟨p⟩, front, back, hfiles, hfront, hp⟩

/-- A reading gives one result. -/
theorem Reading.Gives.eq {r : Reading} {result : Except Unreadable (List String)} (h : r.Gives fs result) :
    result = r.run fs := by
  cases result with
  | ok globs => exact (r.run_eq_ok_iff.2 ((h.globs globs).1 rfl)).symm
  | error e => exact (r.run_eq_error_iff.2 ((h.first e).1 rfl)).symm

/-! ## The files that count -/

/-- The user's default list. -/
def own (dir : Path) : Path := dir.join ⟨"default.glob"⟩

/-- What the options and the user's directory ask to be read. -/
inductive Consults (fs : FileSystem) (noDefaults : Bool) : Option Path → Option Path → Reading → Prop
  | given (p : Path) (userDir : Option Path) : Consults fs noDefaults (some p) userDir ⟨[], [p]⟩
  | builtin : Consults fs noDefaults none none ⟨if noDefaults then [] else Glob.builtin, []⟩
  | own {dir : Path} (howned : fs.isFile (own dir) = true) : Consults fs noDefaults none (some dir) ⟨[], [own dir]⟩
  | below {dir : Path} {loc : Location} {files : List Path} (howned : fs.isFile (own dir) = false)
    (hdir : fs.place dir = some ⟨loc, some .dir⟩) (hfiles : ListsBelow fs dir loc files) :
    Consults fs noDefaults none (some dir) ⟨if noDefaults then [] else Glob.builtin, files⟩
  | missing {dir : Path} (howned : fs.isFile (own dir) = false) (hdir : fs.isDir dir = false) :
    Consults fs noDefaults none (some dir) ⟨if noDefaults then [] else Glob.builtin, []⟩

/-- The options ask for one reading. -/
theorem Consults.unique {r r' : Reading} (h : Consults fs noDefaults file userDir r)
    (h' : Consults fs noDefaults file userDir r') : r = r' := by
  cases h with
  | given => cases h'; rfl
  | builtin => cases h'; rfl
  | own howned =>
    cases h' with
    | own => rfl
    | below howned' | missing howned' => exact absurd (howned.symm.trans howned') nofun
  | below howned hdir hfiles =>
    cases h' with
    | own howned' => exact absurd (howned.symm.trans howned') nofun
    | below _ hdir' hfiles' =>
      obtain rfl := congrArg FileSystem.Place.loc (Option.some.inj (hdir.symm.trans hdir'))
      rw [hfiles.unique hfiles']
    | missing _ hdir' => exact absurd ((FileSystem.isDir_of_place hdir).symm.trans hdir') nofun
  | missing howned hdir =>
    cases h' with
    | own howned' => exact absurd (howned.symm.trans howned') nofun
    | below _ hdir' => exact absurd ((FileSystem.isDir_of_place hdir').symm.trans hdir) nofun
    | missing => rfl

/-- The user's lists are looked for below a lone dash. -/
def LooksBelowDash (fs : FileSystem) (file userDir : Option Path) : Prop :=
  file = none ∧ ∃ dir, userDir = some dir ∧ dir.isStandardInput = true ∧ fs.isFile (own dir) = false

theorem readDirectory_of_place {loc : Location} (hplace : fs.place dir = some ⟨loc, some .dir⟩) :
    readDirectory fs dir =
      Reading.run ⟨[], if dir.isStandardInput then [] else patternFiles fs dir loc⟩ fs := by
  rw [readDirectory, hplace]
  rfl

theorem readDirectory_of_not_isDir (h : fs.isDir dir = false) : readDirectory fs dir = .ok [] := by
  unfold readDirectory
  split
  · rename_i loc hplace
    exact absurd ((FileSystem.isDir_of_place hplace).symm.trans h) nofun
  · rfl

@[simp]
theorem Reading.run_nil (base : List String) : Reading.run ⟨base, []⟩ fs = .ok base :=
  congrArg Except.ok (List.append_nil base)

theorem Reading.run_map_append (base : List String) (files : List Path) :
    (Reading.run ⟨[], files⟩ fs).map (base ++ ·) = Reading.run ⟨base, files⟩ fs := by
  simp only [Reading.run]
  cases files.mapM (readGlobs fs) <;> rfl

theorem Reading.run_singleton (p : Path) : Reading.run ⟨[], [p]⟩ fs = readGlobs fs p := by
  simp only [Reading.run, List.mapM_cons, List.mapM_nil]
  cases readGlobs fs p with
  | error e => rfl
  | ok globs => exact congrArg Except.ok (List.append_nil globs)

/-- Resolving runs what the options ask for, unless it looks below a lone dash. -/
theorem resolve_eq_run {r : Reading} (tree : fs.IsTree) (h : Consults fs noDefaults file userDir r)
    (hdash : ¬ LooksBelowDash fs file userDir) : resolve fs file noDefaults userDir = r.run fs := by
  cases h with
  | given p => exact (Reading.run_singleton p).symm
  | builtin => exact (Reading.run_nil _).symm
  | @own dir howned =>
    rw [Reading.run_singleton]
    exact if_pos howned
  | @below dir loc files howned hdir hfiles =>
    have hlooked : dir.isStandardInput = false :=
      Bool.eq_false_iff.2 fun hstandard => hdash ⟨rfl, dir, rfl, hstandard, howned⟩
    have hlisted := listsBelow_patternFiles tree (FileSystem.follow_of_place_dir hdir).1 loc
    rw [hfiles.unique hlisted, ← Reading.run_map_append]
    refine (if_neg (Bool.eq_false_iff.1 howned)).trans ?_
    rw [readDirectory_of_place hdir, hlooked]
    rfl
  | @missing dir howned hdir =>
    refine (if_neg (Bool.eq_false_iff.1 howned)).trans ?_
    rw [readDirectory_of_not_isDir hdir, Reading.run_nil]
    exact congrArg Except.ok (List.append_nil _)

/-- Below a lone dash only the globs that are there already are found. -/
theorem resolve_of_looksBelowDash {r : Reading} (h : Consults fs noDefaults file userDir r)
    (hdash : LooksBelowDash fs file userDir) : resolve fs file noDefaults userDir = .ok r.base := by
  obtain ⟨rfl, dir, rfl, hstandard, howned⟩ := hdash
  refine (if_neg (Bool.eq_false_iff.1 howned)).trans ?_
  cases h with
  | own howned' => exact absurd (howned'.symm.trans howned) nofun
  | below _ hdir =>
    rw [readDirectory_of_place hdir, if_pos hstandard, Reading.run_nil]
    exact congrArg Except.ok (List.append_nil _)
  | missing _ hdir =>
    rw [readDirectory_of_not_isDir hdir]
    exact congrArg Except.ok (List.append_nil _)

/-- In a tree the options ask for a reading. -/
theorem exists_consults (tree : fs.IsTree) (noDefaults : Bool) (file userDir : Option Path) :
    ∃ r, Consults fs noDefaults file userDir r := by
  cases file with
  | some p => exact ⟨_, .given p userDir⟩
  | none =>
    cases userDir with
    | none => exact ⟨_, .builtin⟩
    | some dir =>
      cases howned : fs.isFile (own dir) with
      | true => exact ⟨_, .own howned⟩
      | false =>
        cases hdir : fs.isDir dir with
        | false => exact ⟨_, .missing howned hdir⟩
        | true =>
          obtain ⟨loc, hplace⟩ := FileSystem.exists_place_of_isDir hdir
          have hlisted := listsBelow_patternFiles tree (FileSystem.follow_of_place_dir hplace).1 loc
          exact ⟨_, .below howned hplace hlisted⟩

theorem exists_forall₂_flatten_nil_iff {files : List Path} :
    (∃ lists, List.Forall₂ (Spelt fs) files lists ∧ lists.flatten = []) ↔ ∀ p ∈ files, Spelt fs p [] := by
  induction files with
  | nil => simp
  | cons p files ih =>
    rw [List.forall_mem_cons, ← ih]
    constructor
    · rintro ⟨_, hlists, hempty⟩
      cases hlists with
      | cons hp hrest =>
        obtain ⟨rfl, hempty⟩ := List.append_eq_nil_iff.1 hempty
        exact ⟨hp, _, hrest, hempty⟩
    · rintro ⟨hp, lists, hlists, hempty⟩
      exact ⟨[] :: lists, .cons hp hlists, hempty⟩

/-- The globs that are there already are the result of a reading exactly when its files are readable and without
globs. -/
theorem Reading.gives_base_iff (r : Reading) : r.Gives fs (.ok r.base) ↔ ∀ p ∈ r.files, Spelt fs p [] := by
  have hbase : r.run fs = .ok r.base ↔ ∀ p ∈ r.files, Spelt fs p [] := by
    simp only [r.run_eq_ok_iff, ← exists_forall₂_flatten_nil_iff, List.self_eq_append_right]
  rw [← hbase]
  exact ⟨fun h => h.eq.symm, fun h => h ▸ r.gives_run⟩

/-- In a tree, whatever pattern file, user's directory and choice about the built-in list there are, one reading is
asked for. Its result is what is resolved exactly when no pattern file below a lone dash says more than nothing; there
the globs that come before those files are all that is resolved. And the path of each pattern file below a directory
leads to that file. -/
theorem sources_by_precedence_iff (tree : fs.IsTree) (noDefaults : Bool) (file userDir : Option Path) :
    ∃ r, (∀ r', Consults fs noDefaults file userDir r' ↔ r' = r) ∧
      (r.Gives fs (resolve fs file noDefaults userDir) ↔
        (LooksBelowDash fs file userDir → ∀ p ∈ r.files, Spelt fs p [])) ∧
      (LooksBelowDash fs file userDir → resolve fs file noDefaults userDir = .ok r.base) ∧
      ∀ dir loc, fs.place dir = some ⟨loc, some .dir⟩ → ∀ names, IsPatternFile fs loc names →
        ∃ bytes, fs.lookup (loc ++ names) = some (.file bytes) ∧
          fs.place (dir.join (.ofNames names)) = some ⟨loc ++ names, some (.file bytes)⟩ := by
  obtain ⟨r, hr⟩ := exists_consults tree noDefaults file userDir
  refine ⟨r, fun r' => ⟨fun h => h.unique hr, fun h => h ▸ hr⟩, ?_, resolve_of_looksBelowDash hr, ?_⟩
  · by_cases hdash : LooksBelowDash fs file userDir
    · rw [resolve_of_looksBelowDash hr hdash, r.gives_base_iff]
      exact ⟨fun h _ => h, fun h => h hdash⟩
    · rw [resolve_eq_run tree hr hdash]
      exact iff_of_true r.gives_run fun h => absurd h hdash
  · intro dir loc hplace names hpattern
    obtain ⟨bytes, hfile⟩ := hpattern.file
    exact ⟨bytes, hfile, tree.place_join_ofNames hplace hpattern.ne_nil hfile⟩

/-- A user's directory with a list right in it and one further down. -/
def userLists : FileSystem where
  items := [(["u", "sub"], .dir), (["u", "sub", "b.glob"], .file (String.toUTF8 "y")), (["u"], .dir),
    (["u", "a.glob"], .file (String.toUTF8 "# n\nx\n"))]
  cwd := []

theorem userLists_isTree : userLists.IsTree := by decide

theorem spelt_userLists (names : List String) {text : String} (hne : names ≠ [])
    (h : userLists.lookup (["u"] ++ names) = some (.file text.toUTF8)) (hglobs : Glob.parseLines text = globs) :
    Spelt userLists (Path.join ⟨"u"⟩ (.ofNames names)) globs :=
  .of_place (userLists_isTree.place_join_ofNames (by cbv) hne h) rfl hglobs

/-- Both lists count, in the order of their paths. -/
theorem user_lists_in_order :
    let r : Reading := ⟨[], [⟨"u/a.glob"⟩, ⟨"u/sub/b.glob"⟩]⟩
    userLists.IsTree ∧ Consults userLists true none (some ⟨"u"⟩) r ∧
      r.Gives userLists (resolve userLists none true (some ⟨"u"⟩)) ∧
      resolve userLists none true (some ⟨"u"⟩) = .ok ["x", "y"] := by
  intro r
  have hfound : userLists.items.filterMap (patternFile? ⟨"u"⟩ ["u"]) = [⟨"u/sub/b.glob"⟩, ⟨"u/a.glob"⟩] := by
    decide
  have hafter : Path.le ⟨"u/sub/b.glob"⟩ ⟨"u/a.glob"⟩ = false := by decide
  have hlisted : patternFiles userLists ⟨"u"⟩ ["u"] = r.files := by
    rw [patternFiles, hfound]
    simp [List.mergeSort, List.MergeSort.Internal.splitInTwo, hafter, r]
  have hfiles : ListsBelow userLists ⟨"u"⟩ ["u"] (patternFiles userLists ⟨"u"⟩ ["u"]) :=
    listsBelow_patternFiles userLists_isTree (by simp) ["u"]
  rw [hlisted] at hfiles
  have hdir : userLists.place ⟨"u"⟩ = some ⟨["u"], some .dir⟩ := by cbv
  have hconsults : Consults userLists true none (some ⟨"u"⟩) r :=
    .below (FileSystem.isFile_join_eq_false hdir (by decide) rfl) hdir hfiles
  obtain ⟨r', hr', hgives, -⟩ := sources_by_precedence_iff userLists_isTree true none (some ⟨"u"⟩)
  obtain rfl := (hr' r).1 hconsults
  have hdash : ¬ LooksBelowDash userLists none (some ⟨"u"⟩) := by
    rintro ⟨-, _, ⟨rfl⟩, hstandard, -⟩
    exact absurd hstandard (by decide)
  have hgiven := hgives.2 fun h => absurd h hdash
  have ha : Spelt userLists ⟨"u/a.glob"⟩ ["x"] := spelt_userLists ["a.glob"] (by simp) rfl (by decide)
  have hb : Spelt userLists ⟨"u/sub/b.glob"⟩ ["y"] :=
    spelt_userLists ["sub", "b.glob"] (by simp) rfl (by decide)
  exact ⟨userLists_isTree, hconsults, hgiven, (hgiven.globs _).2 ⟨[["x"], ["y"]], .cons ha (.cons hb .nil), rfl⟩⟩

/-- A user's directory that is named by a lone dash, with a list in it. -/
def dashed : FileSystem where
  items := [(["-"], .dir), (["-", "a.glob"], .file (String.toUTF8 "x\n"))]
  cwd := []

theorem dashed_isTree : dashed.IsTree := by decide

/-- The list is to be read and gives a glob, but nothing is resolved. -/
theorem list_below_dash_is_lost :
    let r : Reading := ⟨[], [⟨"-/a.glob"⟩]⟩
    dashed.IsTree ∧ Consults dashed true none (some ⟨"-"⟩) r ∧ r.Gives dashed (.ok ["x"]) ∧
      resolve dashed none true (some ⟨"-"⟩) = .ok [] ∧ ¬ r.Gives dashed (resolve dashed none true (some ⟨"-"⟩)) := by
  intro r
  have hlisted : patternFiles dashed ⟨"-"⟩ ["-"] = r.files := by decide +kernel
  have hfiles : ListsBelow dashed ⟨"-"⟩ ["-"] (patternFiles dashed ⟨"-"⟩ ["-"]) :=
    listsBelow_patternFiles dashed_isTree (by simp) ["-"]
  rw [hlisted] at hfiles
  have hdir : dashed.place ⟨"-"⟩ = some ⟨["-"], some .dir⟩ := by cbv
  have howned : dashed.isFile (own ⟨"-"⟩) = false :=
    FileSystem.isFile_join_eq_false hdir (by decide) rfl
  have hconsults : Consults dashed true none (some ⟨"-"⟩) r := .below howned hdir hfiles
  have hlost := resolve_of_looksBelowDash hconsults ⟨rfl, _, rfl, by decide, howned⟩
  have hx : Spelt dashed ⟨"-/a.glob"⟩ ["x"] :=
    .of_place (dashed_isTree.place_join_ofNames hdir (List.cons_ne_nil "a.glob" []) rfl) rfl (by decide)
  have hrun : r.run dashed = .ok ["x"] := r.run_eq_ok_iff.2 ⟨[["x"]], .cons hx .nil, rfl⟩
  refine ⟨dashed_isTree, hconsults, hrun ▸ r.gives_run, hlost, fun h => ?_⟩
  exact absurd (hlost.symm.trans (h.eq.trans hrun)) (by decide)

end PromptPack.Exclusion
