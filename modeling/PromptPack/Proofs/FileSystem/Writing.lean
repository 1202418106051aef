import PromptPack.Proofs.FileSystem.Tree
/-!
# What writing changes

Making the directories of a path puts directories where nothing stood, at places that the fronts of the path
lead to, and nothing else (`makeAll_dirsMade`). It changes nothing exactly when the first front that is no
directory, if there is one, cannot be made (`makeAll_sameItems_iff`).
-/

namespace PromptPack.FileSystem

variable {fs fs' : FileSystem} {loc other : Location} {item : Item} {p : Path} {paths : List Path}

/-- The same items stand at the same locations. -/
def SameItems (fs fs' : FileSystem) : Prop := ∀ loc, fs.lookup loc = fs'.lookup loc

theorem SameItems.refl (fs : FileSystem) : fs.SameItems fs := fun _ => rfl

/-! ## One item -/

theorem lookup_put (hne : loc ≠ []) (item : Item) (other : Location) :
    (fs.put loc item).lookup other = if other = loc then some item else fs.lookup other := by
  by_cases heq : other = loc
  · subst heq
    simp [lookup, put, hne]
  · by_cases hroot : other = []
    · subst hroot
      simp [lookup, Ne.symm hne]
    · have hkept (x : Location × Item) : (!decide (x.1 = loc) && decide (x.1 = other)) = (x.1 == other) := by
        by_cases hx : x.1 = other
        · simp [hx, heq]
        · simp [hx]
      simp [lookup, put, heq, hroot, Ne.symm heq, List.find?_filter, hkept]

theorem ne_nil_of_lookup_eq_none (h : fs.lookup loc = none) : loc ≠ [] := by
  rintro rfl
  cases h

/-- What stands somewhere still stands there when a directory is put where nothing stood. -/
theorem lookup_put_dir (hnone : fs.lookup loc = none) (h : fs.lookup other = some item) :
    (fs.put loc .dir).lookup other = some item := by
  rw [lookup_put (ne_nil_of_lookup_eq_none hnone), if_neg, h]
  rintro rfl
  rw [hnone] at h
  cases h

section

variable {last : Bool} {links : Nat} {at_ : Location} {comps : List Path.Component}

theorem follow_put_dir (hnone : fs.lookup loc = none) (h : fs.follow last links at_ comps = some ⟨other, some item⟩) :
    (fs.put loc .dir).follow last links at_ comps = some ⟨other, some item⟩ := by
  fun_induction follow fs last links at_ comps <;> rw [follow]
  all_goals grind [lookup_put_dir]

/-- Where a path ends with nothing, it ends with a directory once that is put there. -/
theorem follow_made (h : fs.follow last links at_ comps = some ⟨loc, none⟩) :
    (fs.put loc .dir).follow true links at_ comps = some ⟨loc, some .dir⟩ := by
  have hnone : fs.lookup loc = none := lookup_of_follow h
  have hmade : (fs.put loc .dir).lookup loc = some .dir := by
    rw [lookup_put (ne_nil_of_lookup_eq_none hnone), if_pos rfl]
  fun_induction follow fs last links at_ comps <;> rw [follow]
  all_goals grind [lookup_put_dir, follow]

end

theorem place_put_dir {last : Bool} (hnone : fs.lookup loc = none) (h : fs.place p last = some ⟨other, some item⟩) :
    (fs.put loc .dir).place p last = some ⟨other, some item⟩ := by
  have hcwd : (fs.put loc .dir).cwd = fs.cwd := rfl
  unfold place at h ⊢
  rw [hcwd]
  grind [follow_put_dir]

theorem place_made {last : Bool} (h : fs.place p last = some ⟨loc, none⟩) :
    (fs.put loc .dir).place p = some ⟨loc, some .dir⟩ := by
  have hcwd : (fs.put loc .dir).cwd = fs.cwd := rfl
  unfold place at h ⊢
  rw [hcwd]
  grind [follow_made]

/-! ## One directory -/

/-- Making a directory leaves the one that is there, or puts one where the path leads to nothing. -/
theorem makeDir?_cases (h : fs.makeDir? p = some fs') :
    fs' = fs ∧ fs.isDir p = true ∨
      ∃ loc, fs.place p false = some ⟨loc, none⟩ ∧ fs.lookup loc = none ∧ fs' = fs.put loc .dir := by
  unfold makeDir? at h
  split at h
  · rename_i hdir
    cases h
    exact .inl ⟨rfl, hdir⟩
  · split at h
    · rename_i loc hplace
      cases h
      exact .inr ⟨loc, hplace, lookup_of_place hplace, rfl⟩
    · cases h

theorem makeDir?_of_isDir (h : fs.isDir p = true) : fs.makeDir? p = some fs := if_pos h

/-! ## The directories of a path -/

/-- The second is the first with directories made where nothing stood, at places that the paths lead to. -/
structure DirsMade (fs fs' : FileSystem) (paths : List Path) : Prop where
  cwd : fs'.cwd = fs.cwd
  closed : fs'.closed = fs.closed
  lookup : ∀ loc, fs'.lookup loc = fs.lookup loc ∨
    fs.lookup loc = none ∧ fs'.lookup loc = some .dir ∧ ∃ q ∈ paths, fs'.place q = some ⟨loc, some .dir⟩
  /-- Whatever a path led to, it still leads to. -/
  place : ∀ q loc item, fs.place q = some ⟨loc, some item⟩ → fs'.place q = some ⟨loc, some item⟩

theorem DirsMade.refl (fs : FileSystem) (paths : List Path) : fs.DirsMade fs paths :=
  ⟨rfl, rfl, fun _ => .inl rfl, fun _ _ _ h => h⟩

theorem DirsMade.lookup_of_some (h : fs.DirsMade fs' paths) (hloc : fs.lookup loc = some item) :
    fs'.lookup loc = some item := by
  rcases h.lookup loc with heq | ⟨hnone, -, -⟩
  · rw [heq, hloc]
  · rw [hnone] at hloc
    cases hloc

theorem dirsMade_put (hplace : fs.place p false = some ⟨loc, none⟩) : fs.DirsMade (fs.put loc .dir) [p] := by
  have hnone : fs.lookup loc = none := lookup_of_place hplace
  refine ⟨rfl, rfl, fun other => ?_, fun q other item => place_put_dir hnone⟩
  by_cases heq : other = loc
  · subst heq
    have hmade : (fs.put other .dir).lookup other = some .dir := by
      rw [lookup_put (ne_nil_of_lookup_eq_none hnone), if_pos rfl]
    exact .inr ⟨hnone, hmade, p, List.mem_singleton_self p, place_made hplace⟩
  · exact .inl (by rw [lookup_put (ne_nil_of_lookup_eq_none hnone), if_neg heq])

theorem DirsMade.trans {fs'' : FileSystem} {more : List Path} (h : fs.DirsMade fs' paths)
    (h' : fs'.DirsMade fs'' more) : fs.DirsMade fs'' (paths ++ more) where
  cwd := h'.cwd.trans h.cwd
  closed := h'.closed.trans h.closed
  place q loc item hq := h'.place q loc item (h.place q loc item hq)
  lookup loc := by
    rcases h.lookup loc with heq | ⟨hnone, hmade, q, hq, hplace⟩
    · rcases h'.lookup loc with heq' | ⟨hnone', hmade', q, hq, hplace⟩
      · exact .inl (heq'.trans heq)
      · exact .inr ⟨heq ▸ hnone', hmade', q, List.mem_append_right _ hq, hplace⟩
    · exact .inr ⟨hnone, h'.lookup_of_some hmade, q, List.mem_append_left _ hq, h'.place _ _ _ hplace⟩

/-- Where something has changed, a directory stands in the place of nothing. -/
theorem DirsMade.exists_made (h : fs.DirsMade fs' paths) (hchanged : ¬ fs'.SameItems fs) :
    ∃ loc, fs.lookup loc = none ∧ fs'.lookup loc = some .dir := by
  obtain ⟨loc, hloc⟩ := Classical.not_forall.1 hchanged
  obtain ⟨hnone, hmade, -⟩ := (h.lookup loc).resolve_left hloc
  exact ⟨loc, hnone, hmade⟩

/-- Makes directories in turn, up to the first that cannot be made. -/
def makeAll (fs : FileSystem) : List Path → FileSystem × Bool
  | [] => (fs, true)
  | p :: rest =>
    match fs.makeDir? p with
    | some fs => makeAll fs rest
    | none => (fs, false)

theorem makeAll_dirsMade (fs : FileSystem) (paths : List Path) : fs.DirsMade (fs.makeAll paths).1 paths := by
  induction paths generalizing fs with
  | nil => exact .refl fs []
  | cons p rest ih =>
    unfold makeAll
    split
    · rename_i fs' hmake
      rcases makeDir?_cases hmake with ⟨rfl, -⟩ | ⟨loc, hplace, -, rfl⟩
      · exact (DirsMade.refl fs' [p]).trans (ih fs')
      · exact (dirsMade_put hplace).trans (ih _)
    · exact .refl fs _

/-- Nothing changes exactly when the first of the paths that is no directory cannot be made. -/
theorem makeAll_sameItems_iff (fs : FileSystem) (paths : List Path) :
    (fs.makeAll paths).1.SameItems fs ↔ ∀ q, paths.find? (!fs.isDir ·) = some q → fs.makeDir? q = none := by
  induction paths with
  | nil => exact iff_of_true (.refl fs) (by simp)
  | cons p rest ih =>
    unfold makeAll
    by_cases hdir : fs.isDir p = true
    · rw [makeDir?_of_isDir hdir, List.find?_cons_of_neg (by simp [hdir])]
      exact ih
    · rw [List.find?_cons_of_pos (by simp [hdir])]
      simp only [Option.some.injEq, forall_eq']
      cases hmake : fs.makeDir? p with
      | none => exact iff_of_true (.refl fs) rfl
      | some fs' =>
        obtain ⟨loc, hplace, hnone, rfl⟩ := (makeDir?_cases hmake).resolve_left fun h => hdir h.2
        refine iff_of_false (fun hsame => ?_) (by simp)
        -- The directory made first is still there in the end.
        have hmade := (makeAll_dirsMade (fs.put loc .dir) rest).lookup_of_some
          (by rw [lookup_put (ne_nil_of_lookup_eq_none hnone), if_pos rfl])
        have := hsame loc
        dsimp only at this
        rw [hmade, hnone] at this
        cases this

theorem makeAll_of_dirs (h : ∀ q ∈ paths, fs.isDir q = true) : fs.makeAll paths = (fs, true) := by
  induction paths with
  | nil => rfl
  | cons p rest ih =>
    rw [List.forall_mem_cons] at h
    rw [makeAll, makeDir?_of_isDir h.1]
    exact ih h.2

/-- Directories that were all made are all there. -/
theorem isDir_of_makeAll (h : (fs.makeAll paths).2 = true) (hsame : (fs.makeAll paths).1.SameItems fs) :
    ∀ q ∈ paths, fs.isDir q = true := by
  rw [makeAll_sameItems_iff] at hsame
  induction paths with
  | nil => simp
  | cons p rest ih =>
    by_cases hdir : fs.isDir p = true
    · rw [makeAll, makeDir?_of_isDir hdir] at h
      rw [List.find?_cons_of_neg (by simp [hdir])] at hsame
      exact List.forall_mem_cons.2 ⟨hdir, ih h hsame⟩
    · rw [makeAll, hsame p (List.find?_cons_of_pos (by simp [hdir]))] at h
      cases h

/-- The paths to the directories on the way along some components, and to the end. -/
def frontsFrom (made : List Path.Component) : List Path.Component → List Path
  | [] => []
  | c :: rest => .ofComponents (made ++ [c]) :: frontsFrom (made ++ [c]) rest

/-- The directories of a path: those above it, the outermost first, and the path itself. -/
def fronts (p : Path) : List Path := frontsFrom [] p.components

theorem makeDirsFrom_eq (fs : FileSystem) (made comps : List Path.Component) :
    fs.makeDirsFrom made comps = fs.makeAll (frontsFrom made comps) := by
  induction comps generalizing fs made with
  | nil => rfl
  | cons c rest ih =>
    rw [makeDirsFrom, frontsFrom, makeAll]
    cases fs.makeDir? (.ofComponents (made ++ [c])) with
    | none => rfl
    | some fs' => exact ih fs' (made ++ [c])

theorem makeDirs_eq (fs : FileSystem) (p : Path) : fs.makeDirs p = fs.makeAll (fronts p) :=
  makeDirsFrom_eq fs [] p.components

/-! ## Files -/

/-- A written file stands where its path leads to nothing or to a file that can be opened. -/
theorem writeFile?_cases {bytes : ByteArray} (h : fs.writeFile? p bytes = some fs') :
    ∃ loc before, fs.place p = some ⟨loc, before⟩ ∧ fs.lookup loc = before ∧ before ≠ some .dir ∧
      fs' = fs.put loc (.file bytes) ∧ (before.isSome → fs.opens loc = true) := by
  unfold writeFile? at h
  split at h
  · cases h
  · split at h
    · rename_i loc hplace
      cases h
      exact ⟨loc, none, hplace, lookup_of_place hplace, by simp, rfl, by simp⟩
    · rename_i loc before hplace
      split at h
      · rename_i hopens
        cases h
        exact ⟨loc, some (.file before), hplace, lookup_of_place hplace, by simp, rfl, fun _ => hopens⟩
      · cases h
    · cases h

/-- Writing a file leaves the directories there are. -/
theorem lookup_dir_of_writeFile? {bytes : ByteArray} (h : fs.writeFile? p bytes = some fs')
    (hdir : fs.lookup loc = some .dir) : fs'.lookup loc = some .dir := by
  obtain ⟨written, before, -, hlookup, hbefore, rfl, -⟩ := writeFile?_cases h
  have hne : written ≠ [] := by
    rintro rfl
    exact hbefore hlookup.symm
  rw [lookup_put hne, if_neg, hdir]
  rintro rfl
  exact hbefore (hlookup.symm.trans hdir)

/-- Writing a file changes nothing exactly when the path leads to a file with the same bytes. -/
theorem writeFile?_sameItems_iff {bytes : ByteArray} (h : fs.writeFile? p bytes = some fs') :
    fs'.SameItems fs ↔ fs.readBytes? p = some bytes := by
  obtain ⟨loc, before, hplace, hlookup, hdir, rfl, hopens⟩ := writeFile?_cases h
  have hne : loc ≠ [] := by
    rintro rfl
    exact hdir hlookup.symm
  have hsame : (fs.put loc (.file bytes)).SameItems fs ↔ before = some (.file bytes) := by
    rw [← hlookup]
    constructor
    · intro hsame
      rw [← hsame loc, lookup_put hne, if_pos rfl]
    · intro heq other
      rw [lookup_put hne]
      split
      · rename_i hother
        rw [hother, heq]
      · rfl
  rw [hsame, readBytes?, hplace]
  match before, hopens with
  | none, _ => simp
  | some .dir, _ => simp
  | some (.link target), _ => simp
  | some (.file old), hopens => simp [hopens]

section

variable {before : Option Item} (hdir : before ≠ some .dir) (hlink : ∀ target, before ≠ some (.link target))
  (bytes : ByteArray)

include hdir hlink

/-- A path that ends with a file or with nothing ends with the file that is put there. -/
theorem follow_put_file {last : Bool} {links : Nat} {at_ : Location} {comps : List Path.Component}
    (h : fs.follow last links at_ comps = some ⟨loc, before⟩) :
    (fs.put loc (.file bytes)).follow last links at_ comps = some ⟨loc, some (.file bytes)⟩ := by
  have hlookup : fs.lookup loc = before := lookup_of_follow h
  have hne : loc ≠ [] := by
    rintro rfl
    exact hdir hlookup.symm
  have hwritten : (fs.put loc (.file bytes)).lookup loc = some (.file bytes) := by rw [lookup_put hne, if_pos rfl]
  -- On the way the path passes directories and links, which stay.
  have hpassed (other : Location) (item : Item) (hother : fs.lookup other = some item) (hitem : some item ≠ before) :
      (fs.put loc (.file bytes)).lookup other = some item := by
    rw [lookup_put hne, if_neg, hother]
    rintro rfl
    exact hitem (hother.symm.trans hlookup)
  fun_induction follow fs last links at_ comps <;> rw [follow]
  all_goals grind

theorem place_put_file {last : Bool} (hdemands : demandsDir p = false) (h : fs.place p last = some ⟨loc, before⟩) :
    (fs.put loc (.file bytes)).place p last = some ⟨loc, some (.file bytes)⟩ := by
  have hcwd : (fs.put loc (.file bytes)).cwd = fs.cwd := rfl
  unfold place at h ⊢
  rw [hcwd]
  grind [follow_put_file]

end

/-- The path of a written file leads to its bytes, and nothing else has changed. -/
theorem place_of_writeFile? {bytes : ByteArray} (h : fs.writeFile? p bytes = some fs') :
    ∃ loc, fs'.place p = some ⟨loc, some (.file bytes)⟩ ∧ ∀ other ≠ loc, fs'.lookup other = fs.lookup other := by
  have hput {loc : Location} {before : Option Item} (hplace : fs.place p = some ⟨loc, before⟩) (hdir : before ≠ some .dir)
      (hlink : ∀ target, before ≠ some (.link target)) (hdemands : demandsDir p = false) :
      (fs.put loc (.file bytes)).place p = some ⟨loc, some (.file bytes)⟩ ∧
        ∀ other ≠ loc, (fs.put loc (.file bytes)).lookup other = fs.lookup other := by
    refine ⟨place_put_file hdir hlink bytes hdemands hplace, fun other hother => ?_⟩
    rw [lookup_put, if_neg hother]
    rintro rfl
    exact hdir (lookup_of_place hplace).symm
  unfold writeFile? at h
  split at h
  · cases h
  · rename_i hdemands
    rw [Bool.not_eq_true] at hdemands
    split at h
    · rename_i loc hplace
      cases h
      exact ⟨loc, hput hplace (by simp) (by simp) hdemands⟩
    · rename_i loc before hplace
      split at h
      · cases h
        exact ⟨loc, hput hplace (by simp) (by simp) hdemands⟩
      · cases h
    · cases h

end PromptPack.FileSystem
