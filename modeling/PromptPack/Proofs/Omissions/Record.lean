import Mathlib.Data.List.DropRight
import PromptPack.Omissions
import PromptPack.Packing
import PromptPack.Proofs.ByName
/-!
# The record of what was left out

Counts are values in the order of their names. Changing the count of a name gives that name its new count and
leaves every other count alone, and so the total changes by that one count (`Counts.total_change`).

A file that is left out adds one to the count of its directory, and a directory that is left out sets its
count to zero. So after any run a directory counts the files in it that were recorded behind the directory
itself (`count?_directories`), and all files are counted exactly when no directory is recorded behind a
file in it (`directories_count_files_iff`). Extensions and the number of files do not depend on the order.
-/

namespace PromptPack.Counts

/-! ## Counts by name -/

variable {counts counts' : Counts} {name other : String} {f : Nat → Nat} {n : Nat}

/-- Each name comes behind all those in front of it; so none comes twice. -/
def Sorted (counts : Counts) : Prop := counts.Pairwise fun x y => x.1 < y.1

/-- The count of a name, when it has one. -/
def count? (counts : Counts) (name : String) : Option Nat := counts.lookup name

theorem count?_nil (name : String) : count? [] name = none := rfl

theorem mem_names_change : other ∈ (counts.change name f).map (·.1) ↔ other = name ∨ other ∈ counts.map (·.1) :=
  ByName.mem_names_change

theorem Sorted.change (h : Sorted counts) (name : String) (f : Nat → Nat) : Sorted (counts.change name f) :=
  ByName.Sorted.change h 0 name f

theorem count?_change (h : Sorted counts) (name : String) (f : Nat → Nat) (other : String) :
    (counts.change name f).count? other =
      if other = name then some (f ((counts.count? name).getD 0)) else counts.count? other :=
  ByName.lookup_change h 0 name f other

theorem Sorted.mem_iff (h : Sorted counts) : (name, n) ∈ counts ↔ counts.count? name = some n := ByName.Sorted.mem_iff h

theorem Sorted.ext (h : Sorted counts) (h' : Sorted counts') (heq : ∀ name, counts.count? name = counts'.count? name) :
    counts = counts' :=
  ByName.Sorted.ext h h' heq

/-- All counts together. -/
def total : Counts → Nat
  | [] => 0
  | x :: counts => x.2 + total counts

theorem total_cons (x : String × Nat) (counts : Counts) : total (x :: counts) = x.2 + total counts := rfl

/-- The total changes by the new count in place of the old one. -/
theorem total_change (h : Sorted counts) (name : String) (f : Nat → Nat) :
    (counts.change name f).total + (counts.count? name).getD 0 = counts.total + f ((counts.count? name).getD 0) := by
  unfold change count?
  induction counts with
  | nil => rw [ByName.change, List.lookup_nil, Option.getD_none, total_cons, Nat.add_comm]; rfl
  | cons y counts ih =>
    obtain ⟨other, n⟩ := y
    have hrest := (List.pairwise_cons.1 h).2
    unfold ByName.change
    split
    · rename_i hlt
      rw [ByName.lookup_eq_none_of_lt_first h hlt, Option.getD_none, total_cons]
      omega
    · split
      · rename_i heq
        obtain rfl : name = other := by simpa using heq
        rw [List.lookup_cons_self, Option.getD_some, total_cons, total_cons]
        omega
      · rename_i hne
        have hne : name ≠ other := by simpa using hne
        have := ih hrest
        rw [ByName.lookup_cons_of_ne hne, total_cons, total_cons]
        omega

end PromptPack.Counts

namespace PromptPack

/-- One thing left out. -/
inductive Omission
  | file (p : Path)
  | dir (p : Path)
  deriving DecidableEq

namespace Omission

/-- The directory whose count is at stake: that of a file, or the directory itself. -/
def directory : Omission → String
  | file p => (p.parent?.map (·.text)).getD ""
  | dir p => p.text

def isFile : Omission → Bool
  | file _ => true
  | dir _ => false

def extension? : Omission → Option String
  | file p => p.extension?.map ("." ++ ·)
  | dir _ => none

/-- A file in the directory. -/
def isFileIn (d : String) (x : Omission) : Bool := x.isFile && x.directory == d

/-- The directory itself. -/
def isDirAt (d : String) (x : Omission) : Bool := !x.isFile && x.directory == d

/-- The first is a file in the second, a directory. -/
def IsIn (x y : Omission) : Prop := x.isFile = true ∧ y.isFile = false ∧ x.directory = y.directory

/-- What a walked entry is recorded as when it is left out. -/
def ofEntry (e : WalkEntry) : Omission := if e.isDir then dir e.path else file e.path

end Omission

namespace Omissions

def add (o : Omissions) : Omission → Omissions
  | .file p => o.recordFile p
  | .dir p => o.recordDir p

/-- The record of a run: all that was left out, in this order. -/
def ofList (xs : List Omission) : Omissions := xs.foldl add {}

/-- The files left out in a directory. -/
def filesIn (d : String) (xs : List Omission) : Nat := xs.countP (·.isFileIn d)

variable {xs ys : List Omission} {x : Omission} {d : String}

theorem ofList_concat (xs : List Omission) (x : Omission) : ofList (xs ++ [x]) = (ofList xs).add x := by
  rw [ofList, List.foldl_append, List.foldl_cons, List.foldl_nil, ofList]

/-- A walk adds what it leaves out to a record, in its order. -/
theorem record_eq (o : Omissions) (entries : List WalkEntry) : PackedRoot.record o entries =
    ((entries.filter (·.excluded)).map Omission.ofEntry).foldl add o := by
  have hadd (o : Omissions) (e : WalkEntry) :
      (if e.isDir then o.recordDir e.path else o.recordFile e.path) = o.add (.ofEntry e) := by
    unfold Omission.ofEntry
    split <;> rfl
  simp only [PackedRoot.record, hadd, List.foldl_map]

/-- The roots of a pack, one behind the other, make one run. -/
theorem foldl_record (walks : List (List WalkEntry)) : walks.foldl PackedRoot.record {} =
    ofList (walks.flatMap fun entries => (entries.filter (·.excluded)).map Omission.ofEntry) := by
  rw [ofList, List.foldl_flatMap]
  exact congrArg (fun step => walks.foldl step ({} : Omissions)) (funext fun o => funext fun _ => record_eq o _)

/-! ## One step -/

theorem directories_add (o : Omissions) (x : Omission) : (o.add x).directories =
    o.directories.change x.directory fun n => if x.isFile then n + 1 else 0 := by
  cases x <;> rfl

theorem totalFiles_add (o : Omissions) (x : Omission) :
    (o.add x).totalFiles = o.totalFiles + if x.isFile then 1 else 0 := by
  cases x <;> rfl

theorem extensions_add (o : Omissions) (x : Omission) : (o.add x).extensions =
    match x.extension? with
    | some e => o.extensions.change e (· + 1)
    | none => o.extensions := by
  cases x with
  | dir p => rfl
  | file p =>
    rw [add, recordFile, Omission.extension?]
    cases p.extension? <;> rfl

theorem filesIn_concat (d : String) (xs : List Omission) (x : Omission) :
    filesIn d (xs ++ [x]) = filesIn d xs + if x.isFileIn d then 1 else 0 := by
  rw [filesIn, List.countP_append, List.countP_singleton, filesIn]

/-! ## Directories after a run -/

/-- The files in a directory that were recorded behind the directory itself. -/
def filesSince (d : String) (xs : List Omission) : Nat := filesIn d (xs.rtakeWhile fun x => !x.isDirAt d)

theorem filesSince_le (d : String) (xs : List Omission) : filesSince d xs ≤ filesIn d xs :=
  (List.rtakeWhile_suffix _ _).sublist.countP_le

theorem filesSince_concat (d : String) (xs : List Omission) (x : Omission) : filesSince d (xs ++ [x]) =
    if d = x.directory then (if x.isFile then filesSince d xs + 1 else 0) else filesSince d xs := by
  unfold filesSince
  cases hx : x.isDirAt d with
  | true =>
    obtain ⟨hdir, rfl⟩ : x.isFile = false ∧ x.directory = d := by simpa [Omission.isDirAt] using hx
    rw [List.rtakeWhile_concat_neg (fun x : Omission => !x.isDirAt _) xs x (by simp [hx])]
    simp [hdir, filesIn]
  | false =>
    rw [List.rtakeWhile_concat_pos (fun x : Omission => !x.isDirAt d) xs x (by simp [hx]), filesIn_concat]
    by_cases hd : d = x.directory
    · subst hd
      have hfile : x.isFile = true := by simpa [Omission.isDirAt] using hx
      simp [hfile, Omission.isFileIn]
    · simp [hd, Ne.symm hd, Omission.isFileIn]

theorem sorted_directories (xs : List Omission) : (ofList xs).directories.Sorted := by
  induction xs using List.reverseRecOn with
  | nil => exact List.Pairwise.nil
  | append_singleton xs x ih =>
    rw [ofList_concat, directories_add]
    exact ih.change _ _

/-- A directory counts the files in it that were recorded behind it. -/
theorem getD_count?_directories (xs : List Omission) (d : String) :
    ((ofList xs).directories.count? d).getD 0 = filesSince d xs := by
  induction xs using List.reverseRecOn generalizing d with
  | nil => rfl
  | append_singleton xs x ih =>
    rw [ofList_concat, directories_add, Counts.count?_change (sorted_directories xs), filesSince_concat, ih]
    split
    · rename_i heq
      rw [heq, Option.getD_some]
    · exact ih d

/-- A directory has a count when something was recorded that concerns it. -/
theorem isSome_count?_directories (xs : List Omission) (d : String) :
    ((ofList xs).directories.count? d).isSome = true ↔ ∃ x ∈ xs, x.directory = d := by
  induction xs using List.reverseRecOn with
  | nil => simp [ofList, Counts.count?_nil]
  | append_singleton xs x ih =>
    rw [ofList_concat, directories_add, Counts.count?_change (sorted_directories xs)]
    by_cases hd : d = x.directory
    · simp [hd]
    · simp only [hd, if_false, ih, List.mem_append, List.mem_singleton, or_and_right, exists_or]
      simp [Ne.symm hd]

theorem mem_directories_iff {n : Nat} :
    (d, n) ∈ (ofList xs).directories ↔ (∃ x ∈ xs, x.directory = d) ∧ n = filesSince d xs := by
  rw [(sorted_directories xs).mem_iff, ← isSome_count?_directories, ← getD_count?_directories]
  cases (ofList xs).directories.count? d <;> simp [eq_comm]

/-! ## What does not depend on the order -/

/-- A run adds its files to the number of files. -/
theorem totalFiles_foldl (o : Omissions) (xs : List Omission) :
    (xs.foldl add o).totalFiles = o.totalFiles + xs.countP (·.isFile) := by
  induction xs generalizing o with
  | nil => rfl
  | cons x xs ih => rw [List.foldl_cons, ih, totalFiles_add, List.countP_cons, Nat.add_assoc, Nat.add_comm (xs.countP _)]

theorem totalFiles_ofList (xs : List Omission) : (ofList xs).totalFiles = xs.countP (·.isFile) := by
  rw [ofList, totalFiles_foldl]
  exact Nat.zero_add _

/-- A run gives a count to the directory of everything in it and takes none away. -/
theorem mem_directories_foldl (o : Omissions) (xs : List Omission) : d ∈ (xs.foldl add o).directories.map (·.1) ↔
    d ∈ o.directories.map (·.1) ∨ ∃ x ∈ xs, x.directory = d := by
  induction xs generalizing o with
  | nil => simp
  | cons x xs ih =>
    rw [List.foldl_cons, ih, directories_add, Counts.mem_names_change, List.exists_mem_cons_iff, eq_comm]
    tauto

theorem sorted_extensions (xs : List Omission) : (ofList xs).extensions.Sorted := by
  induction xs using List.reverseRecOn with
  | nil => exact List.Pairwise.nil
  | append_singleton xs x ih =>
    rw [ofList_concat, extensions_add]
    cases x.extension? with
    | none => exact ih
    | some e => exact ih.change _ _

/-- An extension counts the files with it, when there are any. -/
theorem count?_extensions (xs : List Omission) (e : String) : (ofList xs).extensions.count? e =
    if (xs.filterMap (·.extension?)).count e = 0 then none else some ((xs.filterMap (·.extension?)).count e) := by
  induction xs using List.reverseRecOn with
  | nil => rfl
  | append_singleton xs x ih =>
    rw [ofList_concat, extensions_add, List.filterMap_append]
    cases hx : x.extension? with
    | none => simpa [hx] using ih
    | some e' =>
      rw [List.filterMap_cons_some hx, List.filterMap_nil, List.count_append]
      dsimp only
      rw [Counts.count?_change (sorted_extensions xs)]
      by_cases he : e = e'
      · subst he
        rw [ih]
        by_cases hnone : (xs.filterMap (·.extension?)).count e = 0 <;> simp [hnone]
      · simp [he, Ne.symm he, ih]

theorem extensions_perm (h : ys.Perm xs) : (ofList ys).extensions = (ofList xs).extensions := by
  refine (sorted_extensions ys).ext (sorted_extensions xs) fun e => ?_
  rw [count?_extensions, count?_extensions, (h.filterMap _).count_eq]

theorem totalFiles_perm (h : ys.Perm xs) : (ofList ys).totalFiles = (ofList xs).totalFiles := by
  rw [totalFiles_ofList, totalFiles_ofList, h.countP_eq]

/-! ## When every file is counted -/

/-- No directory is recorded behind a file in it. -/
def DirsFirst (xs : List Omission) : Prop := xs.Pairwise fun x y => ¬ x.IsIn y

theorem filesIn_eq_zero_iff : filesIn d xs = 0 ↔ ∀ x ∈ xs, x.isFileIn d = false := by
  rw [filesIn, List.countP_eq_zero]
  simp only [Bool.not_eq_true]

theorem dirsFirst_concat : DirsFirst (xs ++ [x]) ↔
    DirsFirst xs ∧ (x.isFile = false → filesIn x.directory xs = 0) := by
  rw [DirsFirst, List.pairwise_append, filesIn_eq_zero_iff]
  constructor
  · rintro ⟨hxs, -, hx⟩
    refine ⟨hxs, fun hdir y hy => ?_⟩
    have := hx y hy x (by simp)
    simpa [Omission.IsIn, hdir, Omission.isFileIn] using this
  · rintro ⟨hxs, hx⟩
    refine ⟨hxs, List.pairwise_singleton _ _, ?_⟩
    rintro y hy z hz ⟨hfile, hdir, heq⟩
    obtain rfl := List.mem_singleton.1 hz
    have := hx hdir y hy
    simp [Omission.isFileIn, hfile, heq] at this

theorem filesSince_eq_iff : (∀ d, filesSince d xs = filesIn d xs) ↔ DirsFirst xs := by
  induction xs using List.reverseRecOn with
  | nil => exact iff_of_true (fun _ => rfl) List.Pairwise.nil
  | append_singleton xs x ih =>
    rw [dirsFirst_concat, ← ih]
    simp only [filesSince_concat, filesIn_concat, Omission.isFileIn]
    -- A file adds one to both counts; a directory starts one of them again, which shows if it was not at zero.
    rcases Bool.eq_false_or_eq_true x.isFile with hfile | hfile
    · simp only [hfile, if_true, Bool.true_and, Bool.true_eq_false, false_implies, and_true]
      refine forall_congr' fun d => ?_
      by_cases hd : d = x.directory
      · simp [hd]
      · simp [hd, Ne.symm hd]
    · simp only [hfile, Bool.false_eq_true, if_false, Bool.false_and, Nat.add_zero, true_implies]
      constructor
      · intro h
        have hzero : filesIn x.directory xs = 0 := by simpa [eq_comm] using h x.directory
        refine ⟨fun d => ?_, hzero⟩
        by_cases hd : d = x.directory
        · have := filesSince_le x.directory xs
          rw [hd]
          omega
        · simpa [hd] using h d
      · rintro ⟨h, hzero⟩ d
        split
        · rename_i hd
          rw [hd, hzero]
        · exact h d

/-- One step changes the counts and the number of files alike, unless a directory that has counted files is
recorded: then its files are lost. -/
theorem total_directories_add (xs : List Omission) (x : Omission) :
    ((ofList xs).add x).directories.total + (if x.isFile then 0 else filesSince x.directory xs) =
      (ofList xs).directories.total + if x.isFile then 1 else 0 := by
  have htotal := Counts.total_change (sorted_directories xs) x.directory fun n => if x.isFile then n + 1 else 0
  rw [getD_count?_directories] at htotal
  rw [directories_add]
  cases hfile : x.isFile <;> simp only [hfile, Bool.false_eq_true, if_true, if_false] at htotal ⊢ <;> omega

theorem total_directories_le (xs : List Omission) : (ofList xs).directories.total ≤ (ofList xs).totalFiles := by
  induction xs using List.reverseRecOn with
  | nil => exact Nat.le_refl _
  | append_singleton xs x ih =>
    have := total_directories_add xs x
    rw [ofList_concat, totalFiles_add]
    omega

theorem total_directories_eq_iff :
    (ofList xs).directories.total = (ofList xs).totalFiles ↔ DirsFirst xs := by
  induction xs using List.reverseRecOn with
  | nil => exact iff_of_true rfl List.Pairwise.nil
  | append_singleton xs x ih =>
    have hstep := total_directories_add xs x
    have hle := total_directories_le xs
    rw [dirsFirst_concat, ← ih, ofList_concat, totalFiles_add]
    cases hfile : x.isFile with
    | true =>
      simp only [hfile, if_true] at hstep ⊢
      simp only [Bool.true_eq_false, false_implies, and_true]
      omega
    | false =>
      simp only [hfile, Bool.false_eq_true, if_false] at hstep ⊢
      simp only [true_implies]
      -- Nothing was lost before, so the directory has counted all of its files so far.
      constructor
      · intro heq
        have hkept : (ofList xs).directories.total = (ofList xs).totalFiles := by omega
        rw [← filesSince_eq_iff.2 (ih.1 hkept)]
        omega
      · rintro ⟨hkept, hzero⟩
        have := filesSince_le x.directory xs
        omega

/-- Every directory counts the files in it exactly when no directory is recorded behind a file in it. -/
theorem directories_eq_filesIn_iff :
    (∀ y ∈ (ofList xs).directories, y.2 = filesIn y.1 xs) ↔ DirsFirst xs := by
  rw [← filesSince_eq_iff]
  constructor
  · intro h d
    by_cases hd : ∃ x ∈ xs, x.directory = d
    · exact h (d, filesSince d xs) (mem_directories_iff.2 ⟨hd, rfl⟩)
    · have hnone : filesIn d xs = 0 := by
        refine filesIn_eq_zero_iff.2 fun x hx => ?_
        have hne : x.directory ≠ d := fun heq => hd ⟨x, hx, heq⟩
        simp [Omission.isFileIn, hne]
      have := filesSince_le d xs
      omega
  · rintro h ⟨d, n⟩ hy
    rw [(mem_directories_iff.1 hy).2, h d]

theorem filesIn_perm (h : ys.Perm xs) (d : String) : filesIn d ys = filesIn d xs := h.countP_eq _

theorem directories_perm (hys : DirsFirst ys) (hxs : DirsFirst xs) (h : ys.Perm xs) :
    (ofList ys).directories = (ofList xs).directories := by
  refine (sorted_directories ys).ext (sorted_directories xs) fun d => Option.ext fun n => ?_
  rw [← (sorted_directories ys).mem_iff, ← (sorted_directories xs).mem_iff, mem_directories_iff, mem_directories_iff,
    filesSince_eq_iff.2 hys, filesSince_eq_iff.2 hxs, filesIn_perm h]
  simp only [h.mem_iff]

/-- The counts of directories are the same in every order exactly when nothing recorded is a file in a
directory that is recorded too: recorded behind its files a directory loses them, and in front of them not. -/
theorem directories_perm_iff : (∀ ys, ys.Perm xs → (ofList ys).directories = (ofList xs).directories) ↔
    ∀ x ∈ xs, ∀ y ∈ xs, ¬ x.IsIn y := by
  constructor
  · rintro h x hx y hy ⟨hfile, hdir, heq⟩
    let files := xs.filter (·.isFile)
    let dirs := xs.filter (!·.isFile)
    have hfilesFirst : (files ++ dirs).Perm xs := List.filter_append_perm _ _
    have hdirsFirst : (dirs ++ files).Perm xs := List.perm_append_comm.trans hfilesFirst
    have hnofile {z : Omission} (hz : z ∈ dirs) : z.isFile = false := by simpa using (List.mem_filter.1 hz).2
    have hcounts : DirsFirst (dirs ++ files) := by
      refine List.pairwise_append.2 ⟨?_, ?_, fun z hz _ _ hin => absurd hin.1 (by simp [hnofile hz])⟩
      · exact List.pairwise_of_forall_mem_list fun z hz _ _ hin => absurd hin.1 (by simp [hnofile hz])
      · refine List.pairwise_of_forall_mem_list fun _ _ z hz hin => absurd hin.2.1 ?_
        simp [(List.mem_filter.1 hz).2]
    rw [← directories_eq_filesIn_iff] at hcounts
    have hlate : DirsFirst (files ++ dirs) := by
      rw [← directories_eq_filesIn_iff]
      intro z hz
      rw [h _ hfilesFirst, ← h _ hdirsFirst] at hz
      rw [hcounts z hz, filesIn_perm hdirsFirst, filesIn_perm hfilesFirst]
    have hx' : x ∈ files := List.mem_filter.2 ⟨hx, hfile⟩
    have hy' : y ∈ dirs := List.mem_filter.2 ⟨hy, by simp [hdir]⟩
    exact (List.pairwise_append.1 hlate).2.2 x hx' y hy' ⟨hfile, hdir, heq⟩
  · intro h ys hys
    have hall {zs : List Omission} (hzs : zs.Perm xs) : DirsFirst zs :=
      List.pairwise_of_forall_mem_list fun x hx y hy => h x (hzs.mem_iff.1 hx) y (hzs.mem_iff.1 hy)
    exact directories_perm (hall hys) (hall (.refl xs)) hys

/-- What a run of omissions leaves of the files: extensions and the number of files are those of any other
order; directories count all files in them, and so add up to the number of files, exactly when none is recorded
behind a file in it; and they are those of any other order exactly when no file is in one of them. -/
theorem directories_count_files_iff (xs : List Omission) :
    ((∀ y ∈ (ofList xs).directories, y.2 = filesIn y.1 xs) ↔ DirsFirst xs) ∧
      ((ofList xs).directories.total = (ofList xs).totalFiles ↔ DirsFirst xs) ∧
      ((∀ ys, ys.Perm xs → (ofList ys).directories = (ofList xs).directories) ↔ ∀ x ∈ xs, ∀ y ∈ xs, ¬ x.IsIn y) ∧
      ∀ ys, ys.Perm xs →
        (ofList ys).extensions = (ofList xs).extensions ∧ (ofList ys).totalFiles = (ofList xs).totalFiles :=
  ⟨directories_eq_filesIn_iff, total_directories_eq_iff, directories_perm_iff, fun _ h =>
    ⟨extensions_perm h, totalFiles_perm h⟩⟩

/-- A directory that is recorded behind a file in it forgets the file. -/
theorem directory_behind_its_file_counts_nothing :
    (ofList [.file ⟨"a/x.log"⟩, .dir ⟨"a"⟩]).directories = [("a", 0)] ∧
      filesIn "a" [.file ⟨"a/x.log"⟩, .dir ⟨"a"⟩] = 1 ∧
      (ofList [.file ⟨"a/x.log"⟩, .dir ⟨"a"⟩]).totalFiles = 1 ∧
      (ofList [.dir ⟨"a"⟩, .file ⟨"a/x.log"⟩]).directories = [("a", 1)] := by
  decide +kernel

end Omissions

end PromptPack
