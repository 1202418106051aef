import PromptPack.Proofs.Omissions.Record
/-!
# What a record holds after any run

A record is made of five totals that two steps change. Each of them is a function of the run: the number of
files, the names of the first files, the files with each extension, the directories concerned, and whether
anything was left out at all (`totals_are_exact`).
-/

namespace PromptPack

/-- The file that is left out. -/
def Omission.file? : Omission → Option Path
  | .file p => some p
  | .dir _ => none

namespace Omissions

/-- The files left out, in order. -/
def filesOf (xs : List Omission) : List Path := xs.filterMap (·.file?)

variable {xs : List Omission} {e d : String} {n : Nat}

theorem filesOf_append (xs ys : List Omission) : filesOf (xs ++ ys) = filesOf xs ++ filesOf ys :=
  List.filterMap_append

theorem length_filesOf (xs : List Omission) : (filesOf xs).length = xs.countP (·.isFile) := by
  induction xs with
  | nil => rfl
  | cons x xs ih =>
    cases x with
    | file p => simpa [filesOf, Omission.file?, Omission.isFile] using ih
    | dir p => simpa [filesOf, Omission.file?, Omission.isFile] using ih

theorem totalFiles_eq_length (xs : List Omission) : (ofList xs).totalFiles = (filesOf xs).length := by
  rw [totalFiles_ofList, length_filesOf]

/-! ## Names -/

/-- One step adds the name of its file while there is room. -/
theorem files_add (o : Omissions) (x : Omission) : (o.add x).files =
    o.files ++ ((x.file?.toList).take (maxListed - o.totalFiles)).map (·.text) := by
  cases x with
  | dir p =>
    show o.files = _
    rw [Omission.file?, Option.toList_none, List.take_nil, List.map_nil, List.append_nil]
  | file p =>
    show (if o.totalFiles + 1 ≤ maxListed then o.files ++ [p.text] else o.files) = _
    split
    · rename_i hroom
      have : [p].take (maxListed - o.totalFiles) = [p] := List.take_of_length_le (by simp only [List.length_singleton]; omega)
      rw [Omission.file?, Option.toList_some, this, List.map_singleton]
    · rename_i hfull
      have : maxListed - o.totalFiles = 0 := by omega
      rw [this, List.take_zero, List.map_nil, List.append_nil]

/-- The names are those of the first files. -/
theorem files_ofList (xs : List Omission) : (ofList xs).files = ((filesOf xs).take maxListed).map (·.text) := by
  induction xs using List.reverseRecOn with
  | nil => rfl
  | append_singleton xs x ih =>
    have hlast : filesOf [x] = x.file?.toList := by cases x <;> rfl
    rw [ofList_concat, files_add, ih, totalFiles_eq_length, filesOf_append, hlast, List.take_append, List.map_append]

/-- Once there is no room left the names stay as they are. -/
theorem files_append_of_full (hfull : maxListed ≤ (filesOf xs).length) (more : List Omission) :
    (ofList (xs ++ more)).files = (ofList xs).files := by
  rw [files_ofList, files_ofList, filesOf_append, List.take_append_of_le_length hfull]

/-! ## Extensions -/

/-- What is counted by extension are the extensions that the files have. -/
theorem filterMap_extension? (xs : List Omission) :
    xs.filterMap (·.extension?) = ((filesOf xs).map (·.dottedExtension)).filter (· != "") := by
  induction xs with
  | nil => rfl
  | cons x xs ih =>
    cases x with
    | dir p => simpa [filesOf, Omission.file?, Omission.extension?] using ih
    | file p =>
      have hfiles : filesOf (.file p :: xs) = p :: filesOf xs := rfl
      rw [hfiles, List.map_cons, List.filter_cons, List.filterMap_cons, ih, Path.dottedExtension, Omission.extension?]
      cases p.extension? with
      | none => simp
      | some e => simp

theorem count_extension? (xs : List Omission) (he : e ≠ "") :
    (xs.filterMap (·.extension?)).count e = (filesOf xs).countP (·.dottedExtension == e) := by
  rw [filterMap_extension?, List.count_filter (by simpa using he), List.count, List.countP_map]
  rfl

/-- No count stands under the name of no extension. -/
theorem ne_empty_of_mem_filterMap (h : e ∈ xs.filterMap (·.extension?)) : e ≠ "" := by
  rw [filterMap_extension?] at h
  simpa using (List.mem_filter.1 h).2

/-- An extension has a count when there are files with it, and it is their number. -/
theorem mem_extensions_iff : (e, n) ∈ (ofList xs).extensions ↔
    e ≠ "" ∧ n ≠ 0 ∧ n = (filesOf xs).countP (·.dottedExtension == e) := by
  rw [(sorted_extensions xs).mem_iff, count?_extensions]
  by_cases he : e = ""
  · have hnone : (xs.filterMap (·.extension?)).count e = 0 :=
      List.count_eq_zero.2 fun h => ne_empty_of_mem_filterMap h he
    rw [if_pos hnone]
    simp [he]
  · rw [count_extension? xs he]
    split <;> grind

/-- The counts of extensions add up to the files that have one. -/
theorem total_extensions (xs : List Omission) :
    (ofList xs).extensions.total = (filesOf xs).countP (·.dottedExtension != "") := by
  have hlength : (ofList xs).extensions.total = (xs.filterMap (·.extension?)).length := by
    induction xs using List.reverseRecOn with
    | nil => rfl
    | append_singleton xs x ih =>
      rw [ofList_concat, extensions_add, List.filterMap_append, List.length_append]
      cases hx : x.extension? with
      | none => simpa [hx] using ih
      | some e =>
        have htotal := Counts.total_change (sorted_extensions xs) e (· + 1)
        rw [List.filterMap_cons_some hx, List.filterMap_nil, List.length_singleton, ← ih]
        show (Counts.change e (· + 1) (ofList xs).extensions).total = _
        omega
  rw [hlength, filterMap_extension?, ← List.countP_eq_length_filter, List.countP_map]
  rfl

/-! ## Directories -/

/-- The directories with a count are those around files left out and those left out themselves. A file with
no directory around it counts under the empty name. -/
theorem mem_directories_names_iff : d ∈ (ofList xs).directories.map (·.1) ↔
    (∃ p, .file p ∈ xs ∧ (p.parent?.map (·.text)).getD "" = d) ∨ ∃ p, .dir p ∈ xs ∧ p.text = d := by
  rw [ofList, mem_directories_foldl]
  constructor
  · rintro (h | ⟨x, hx, rfl⟩)
    · exact absurd h List.not_mem_nil
    · cases x with
      | file p => exact .inl ⟨p, hx, rfl⟩
      | dir p => exact .inr ⟨p, hx, rfl⟩
  · rintro (⟨p, hp, rfl⟩ | ⟨p, hp, rfl⟩)
    · exact .inr ⟨.file p, hp, rfl⟩
    · exact .inr ⟨.dir p, hp, rfl⟩

/-- A record is empty when nothing was recorded. -/
theorem isEmpty_iff : (ofList xs).isEmpty = true ↔ xs = [] := by
  constructor
  · intro h
    have hdirectories : (ofList xs).directories = [] := by
      rw [isEmpty, Bool.and_eq_true, List.isEmpty_iff] at h
      exact h.2
    refine List.eq_nil_iff_forall_not_mem.2 fun x hx => ?_
    have hname : x.directory ∈ (ofList xs).directories.map (·.1) :=
      (mem_directories_foldl {} xs).2 (.inr ⟨x, hx, rfl⟩)
    rw [hdirectories] at hname
    exact List.not_mem_nil hname
  · rintro rfl
    rfl

/-- After any run of omissions, whatever comes twice in it, the record holds these totals: the number of files;
the names of the first twenty of them in their order, which no later omission changes once there are twenty; each
extension with the number of files that have it, and never a zero, so that the counts add up to the files with
an extension; a count for exactly the directories around files and the directories left out; and nothing at all
exactly when the run is empty. -/
theorem totals_are_exact (xs : List Omission) :
    let o := ofList xs
    o.totalFiles = (filesOf xs).length ∧
      o.files = ((filesOf xs).take (min 20 o.totalFiles)).map (·.text) ∧
      (20 ≤ o.totalFiles → ∀ more, (ofList (xs ++ more)).files = o.files) ∧
      (∀ e n, (e, n) ∈ o.extensions ↔ e ≠ "" ∧ n ≠ 0 ∧ n = (filesOf xs).countP (·.dottedExtension == e)) ∧
      o.extensions.total = (filesOf xs).countP (·.dottedExtension != "") ∧
      (∀ d, d ∈ o.directories.map (·.1) ↔
        (∃ p, .file p ∈ xs ∧ (p.parent?.map (·.text)).getD "" = d) ∨ ∃ p, .dir p ∈ xs ∧ p.text = d) ∧
      (o.isEmpty = true ↔ xs = []) := by
  have htotal := totalFiles_eq_length xs
  refine ⟨htotal, ?_, fun hfull more => ?_, fun e n => mem_extensions_iff, total_extensions xs,
    fun d => mem_directories_names_iff, isEmpty_iff⟩
  · rw [files_ofList, htotal, List.take_eq_take_min]
    rfl
  · exact files_append_of_full (htotal ▸ hfull) more

end Omissions

end PromptPack
