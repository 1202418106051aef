import PromptPack.Proofs.FileSystem.Tree
/-!
# Paths that go on below a directory

A path that leads to a directory, through whatever links, leads on from there when names are joined to it
(`follow_append`). So the names of a file below the directory lead to the file when they are joined to the path
(`IsTree.place_join_ofNames`).
-/

namespace PromptPack.FileSystem

variable {fs : FileSystem} {loc start : Location} {p : Path} {names : List String}

/-- From the directory that some components lead to, further ones lead on, with what links are left. -/
theorem follow_append {links : Nat} {comps : List Path.Component} (more : List Path.Component)
    (h : fs.follow true links start comps = some ⟨loc, some .dir⟩) :
    ∃ left, fs.follow true links start (comps ++ more) = fs.follow true left loc more := by
  fun_induction follow fs true links start comps with
  | case1 links start =>
    obtain rfl := congrArg Place.loc (Option.some.inj h)
    exact ⟨links, rfl⟩
  | case2 links start rest ih | case3 links start rest ih | case4 links start rest ih =>
    obtain ⟨left, hleft⟩ := ih h
    exact ⟨left, by rw [List.cons_append, follow, hleft]⟩
  | case7 links start name rest child hdir ih =>
    obtain ⟨left, hleft⟩ := ih h
    exact ⟨left, by rw [List.cons_append, follow, hdir, hleft]⟩
  | case12 start name rest child target hlink _ links ih =>
    obtain ⟨left, hleft⟩ := ih h
    rw [List.append_assoc] at hleft
    refine ⟨left, ?_⟩
    rw [List.cons_append, follow, hlink]
    simpa using hleft
  | _ => simp at h

/-- Names lead from a directory of a tree down to the file that stands there. -/
theorem IsTree.follow_names (tree : fs.IsTree) {bytes : ByteArray} (hne : names ≠ [])
    (h : fs.lookup (loc ++ names) = some (.file bytes)) (links : Nat) :
    fs.follow true links loc (names.map .name) = some ⟨loc ++ names, some (.file bytes)⟩ := by
  induction names generalizing loc with
  | nil => exact absurd rfl hne
  | cons name rest ih =>
    rw [List.map_cons, follow]
    by_cases hrest : rest = []
    · subst hrest
      rw [h]
      rfl
    · rw [List.append_cons] at h
      have hbelow := ih hrest h
      rw [List.append_assoc] at hbelow
      rw [tree.lookup_prefix hrest h]
      exact hbelow

theorem follow_of_place_dir (h : fs.place p = some ⟨loc, some .dir⟩) :
    p.text ≠ "" ∧ fs.follow true 40 fs.cwd p.components = some ⟨loc, some .dir⟩ := by
  unfold place at h
  split at h
  · cases h
  · rename_i hne
    refine ⟨by simpa using hne, ?_⟩
    simp only [Bool.true_or] at h
    split at h
    · rename_i found hfollow
      split at h
      · rename_i hfile
        split at h <;> cases h
        cases hfile
      · cases h
        exact hfollow
    · cases h

/-- A path that ends in names demands no directory. -/
theorem demandsDir_join_ofNames (htext : p.text ≠ "") (hne : names ≠ []) (h : ∀ n ∈ names, Path.IsName n) :
    demandsDir (p.join (.ofNames names)) = false := by
  obtain ⟨front, idle, t, -, -, -, hpieces, -⟩ := Path.exists_pieces_join htext hne h
  obtain ⟨before, last, hconcat⟩ := (List.eq_nil_or_concat names).resolve_left hne
  rw [List.concat_eq_append] at hconcat
  subst hconcat
  have hlast : Path.isIdle last = false := by
    have hname := h last (by simp)
    simp [Path.isIdle, hname.nonempty, hname.notHere]
  rw [demandsDir, hpieces, ← List.append_assoc, List.reverse_append, List.reverse_singleton, List.singleton_append]
  split
  · rename_i heq
    rw [← (List.cons.inj heq).1, hlast]
  · rfl

/-- A path that goes on with names leads where the names lead from the directory. -/
theorem exists_place_join_ofNames (hp : fs.place p = some ⟨loc, some .dir⟩) (hne : names ≠ [])
    (h : ∀ n ∈ names, Path.IsName n) :
    ∃ left, fs.place (p.join (.ofNames names)) = fs.follow true left loc (names.map .name) := by
  obtain ⟨htext, hfollow⟩ := follow_of_place_dir hp
  obtain ⟨left, hleft⟩ := follow_append (names.map .name) hfollow
  obtain ⟨-, -, t, -, -, -, -, hjoined⟩ := Path.exists_pieces_join htext hne h
  have hjoinedText : (p.join (.ofNames names)).text.isEmpty = false := by
    rw [hjoined, ← Bool.not_eq_true, String.isEmpty_iff]
    exact fun heq => htext (String.append_eq_empty_iff.1 heq).1
  refine ⟨left, ?_⟩
  rw [place, hjoinedText, demandsDir_join_ofNames htext hne h, Path.components_join_ofNames htext hne h, ← hleft]
  simp only [Bool.or_false, Bool.false_eq_true, if_false]
  generalize fs.follow true 40 fs.cwd (p.components ++ names.map .name) = found
  cases found with
  | none => rfl
  | some found =>
    dsimp only
    split <;> rfl

/-- The names of a file below a directory lead to it when they are joined to a path of the directory. -/
theorem IsTree.place_join_ofNames (tree : fs.IsTree) (hp : fs.place p = some ⟨loc, some .dir⟩) {bytes : ByteArray}
    (hne : names ≠ []) (h : fs.lookup (loc ++ names) = some (.file bytes)) :
    fs.place (p.join (.ofNames names)) = some ⟨loc ++ names, some (.file bytes)⟩ := by
  obtain ⟨left, hleft⟩ := exists_place_join_ofNames hp hne (tree.isName_below h)
  rw [hleft, tree.follow_names hne h left]

/-- So they lead to no directory. -/
theorem IsTree.isDir_join_ofNames (tree : fs.IsTree) (hp : fs.place p = some ⟨loc, some .dir⟩) {bytes : ByteArray}
    (hne : names ≠ []) (h : fs.lookup (loc ++ names) = some (.file bytes)) :
    fs.isDir (p.join (.ofNames names)) = false := by
  rw [isDir, item?, tree.place_join_ofNames hp hne h]
  rfl

/-- A name that a directory does not have leads to no file. -/
theorem isFile_join_eq_false (hp : fs.place p = some ⟨loc, some .dir⟩) {name : String} (hname : Path.IsName name)
    (hnone : fs.lookup (loc ++ [name]) = none) : fs.isFile (p.join ⟨name⟩) = false := by
  obtain ⟨left, hleft⟩ := exists_place_join_ofNames hp (List.cons_ne_nil name []) (List.forall_mem_singleton.2 hname)
  rw [Path.join_ofNames_singleton, isFile, item?, hleft, List.map_cons, follow, hnone]
  rfl

end PromptPack.FileSystem
