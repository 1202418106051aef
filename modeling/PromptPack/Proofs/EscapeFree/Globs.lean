import PromptPack.Exclusion
import PromptPack.Proofs.EscapeFree.Files
import PromptPack.Proofs.Walk.Globs
import PromptPack.Proofs.Yields
/-!
# Globs without escapes

The globs of pattern files are free of escapes where the files are. A text that is no glob is told back along with the
characters that are wrong in it, so what is said about it is free of escapes where the text is.
-/

namespace PromptPack

/-! ## Pattern files -/

namespace Exclusion

variable {fs : FileSystem} {p dir : Path}

theorem escapeFree_readGlobs (h : fs.Plain) : Yields (readGlobs fs p) fun globs => ∀ glob ∈ globs, EscapeFree glob := by
  unfold readGlobs
  split
  · rename_i text htext
    exact yields_ok.2 fun glob hglob => Glob.escapeFree_of_mem_parseLines (h.of_readText? htext) hglob
  · exact yields_error

theorem escapeFree_readDirectory (h : fs.Plain) :
    Yields (readDirectory fs dir) fun globs => ∀ glob ∈ globs, EscapeFree glob := by
  unfold readDirectory
  split
  · refine (yields_mapM fun p _ => escapeFree_readGlobs h).bind fun lists hlists => yields_pure.2 fun glob hglob => ?_
    obtain ⟨list, hlist, hglob⟩ := List.mem_flatten.1 hglob
    exact hlists list hlist glob hglob
  · exact yields_ok.2 (by simp)

/-- The globs in force are free of escapes where the pattern files are. -/
theorem escapeFree_resolve (h : fs.Plain) (file : Option Path) (noDefaults : Bool) (userDir : Option Path) :
    Yields (resolve fs file noDefaults userDir) fun globs => ∀ glob ∈ globs, EscapeFree glob := by
  have hbase : ∀ glob ∈ if noDefaults then [] else Glob.builtin, EscapeFree glob := by
    split
    · simp
    · exact fun glob => Glob.escapeFree_of_mem_builtin
  unfold resolve
  split
  · exact escapeFree_readGlobs h
  · dsimp only
    split
    · exact yields_ok.2 hbase
    · split
      · exact escapeFree_readGlobs h
      · exact (escapeFree_readDirectory h).map fun more hmore => List.forall_mem_append.2 ⟨hbase, hmore⟩

theorem escapeFree_message {e : Unreadable} (h : EscapeFree e.path.text) : EscapeFree e.message :=
  (escapeFree_literal rfl : EscapeFree "Failed to read pattern file ").append h

theorem fails_readGlobs (hp : EscapeFree p.text) : Fails (readGlobs fs p) fun e => EscapeFree e.message := by
  unfold readGlobs
  split
  · exact fails_ok
  · exact fails_error.2 (escapeFree_message hp)

/-- A pattern file lies in a directory whose names are free of escapes. -/
theorem escapeFree_of_mem_patternFiles {loc : Location} (h : fs.Plain) (hdir : EscapeFree dir.text)
    (hp : p ∈ patternFiles fs dir loc) : EscapeFree p.text := by
  have hbelow (names : List String) (hnames : ∀ name ∈ names, EscapeFree name) (front : Path)
      (hfront : EscapeFree front.text) : EscapeFree (names.foldl (fun p n => p.join ⟨n⟩) front).text := by
    induction names generalizing front with
    | nil => exact hfront
    | cons name rest ih =>
      rw [List.forall_mem_cons] at hnames
      exact ih hnames.2 _ (Path.escapeFree_join hfront hnames.1)
  rw [patternFiles, List.mem_mergeSort, List.mem_filterMap] at hp
  obtain ⟨⟨l, item⟩, hmem, hp⟩ := hp
  cases item with
  | file bytes =>
    simp only [patternFile?, Option.ite_none_right_eq_some] at hp
    obtain ⟨-, -, hp⟩ := hp
    cases hp
    exact hbelow _ (fun name hname => h.names _ hmem name (List.mem_of_mem_drop hname)) dir hdir
  | dir => cases hp
  | link target => cases hp

theorem fails_readDirectory (h : fs.Plain) (hdir : EscapeFree dir.text) :
    Fails (readDirectory fs dir) fun e => EscapeFree e.message := by
  unfold readDirectory
  split
  · refine (fails_mapM fun p hp => fails_readGlobs ?_).bind fun lists _ => fails_pure
    split at hp
    · cases hp
    · exact escapeFree_of_mem_patternFiles h hdir hp
  · exact fails_ok

/-- The pattern file that cannot be read is told by a path that is free of escapes. -/
theorem fails_resolve {file userDir : Option Path} (h : fs.Plain) (hfile : ∀ p ∈ file, EscapeFree p.text)
    (huser : ∀ p ∈ userDir, EscapeFree p.text) (noDefaults : Bool) :
    Fails (resolve fs file noDefaults userDir) fun e => EscapeFree e.message := by
  unfold resolve
  split
  · exact fails_readGlobs (hfile _ rfl)
  · dsimp only
    split
    · exact fails_ok
    · rename_i dir
      have hdir := huser dir rfl
      split
      · exact fails_readGlobs (Path.escapeFree_join hdir (escapeFree_literal rfl))
      · exact (fails_readDirectory h hdir).map _

end Exclusion

/-! ## Texts that are no globs -/

namespace Glob

variable {cs : List Char} {lenient : Bool}

theorem escapeFree_invalidRange {low high : Char} (hlow : low ≠ escapeMark) (hhigh : high ≠ escapeMark) :
    EscapeFree (Cause.invalidRange low high).message := by
  have hchar {c : Char} (hc : c ≠ escapeMark) : EscapeFree c.toString := by simpa [EscapeFree] using hc.symm
  have hopen : EscapeFree "invalid range; '" := escapeFree_literal rfl
  have hgreater : EscapeFree "' > '" := escapeFree_literal rfl
  have hclose : EscapeFree "'" := escapeFree_literal rfl
  exact (((hopen.append (hchar hlow)).append hgreater).append (hchar hhigh)).append hclose

/-- A range that is the wrong way round has its lower end among the ranges read so far. -/
theorem fails_readRanges {first : Bool} {st : ClassState} (hst : ∀ r ∈ st.ranges, r.1 ≠ escapeMark)
    (hcs : escapeMark ∉ cs) : Fails (readRanges first st cs) fun e => EscapeFree e.message := by
  fun_induction readRanges first st cs with
  | case1 => exact fails_error.2 (escapeFree_literal rfl)
  | case2 => exact fails_ok
  | case3 _ _ c rest _ _ ih => exact ih hst (List.not_mem_of_not_mem_cons hcs)
  | case4 _ _ c rest _ _ low high others hranges =>
    rw [hranges, List.forall_mem_cons] at hst
    exact fails_error.2 (escapeFree_invalidRange hst.1 (List.ne_of_not_mem_cons hcs).symm)
  | case5 _ _ c rest _ _ low high others hranges _ _ ih =>
    rw [hranges, List.forall_mem_cons] at hst
    exact ih (List.forall_mem_cons.2 hst) (List.not_mem_of_not_mem_cons hcs)
  | case6 _ _ c rest _ _ _ ih =>
    exact ih (List.forall_mem_cons.2 ⟨(List.ne_of_not_mem_cons hcs).symm, hst⟩) (List.not_mem_of_not_mem_cons hcs)

/-- The characters of a class behind its sign. -/
theorem body_subset (cs : List Char) : (match cs with
    | '!' :: rest => (true, rest)
    | '^' :: rest => (true, rest)
    | _ => (false, cs)).2 ⊆ cs := by
  split
  · exact List.subset_cons_self _ _
  · exact List.subset_cons_self _ _
  · exact List.Subset.refl _

theorem fails_readClass (hcs : escapeMark ∉ cs) : Fails (readClass cs) fun e => EscapeFree e.message :=
  (fails_readRanges (by simp) fun h => hcs (body_subset cs h)).map _

theorem fails_readTokens {fuel : Nat} {r : Reader} {prev : Option Char} (hcs : escapeMark ∉ cs) :
    Fails (readTokens lenient fuel r prev cs) fun e => EscapeFree e.message := by
  fun_induction readTokens lenient fuel r prev cs with
  | case1 => exact fails_ok
  | case2 | case3 | case10 | case14 => exact fails_error.2 (escapeFree_literal rfl)
  | case4 | case7 | case9 | case11 | case12 | case13 | case16 =>
    rename_i ih
    exact ih (List.not_mem_of_not_mem_cons hcs)
  | case5 _ r prev c cs _ _ r' last rest hstar ih =>
    obtain ⟨-, taken, -, htaken⟩ := r.star_takes prev cs
    rw [hstar] at htaken
    exact ih fun h => hcs (List.mem_cons_of_mem c (htaken ▸ List.mem_append_right taken h))
  | case6 _ r prev c cs _ _ _ t rest hclass ih =>
    obtain ⟨body, rfl, -⟩ := exists_body_of_readClass hclass
    exact ih fun h => hcs (List.mem_cons_of_mem c (List.mem_append_right body (List.mem_cons_of_mem ']' h)))
  | case8 _ r prev c cs _ _ _ e hclass =>
    exact fails_error.2 (fails_readClass (List.not_mem_of_not_mem_cons hcs) e hclass)
  | case15 _ _ _ c _ _ _ _ _ _ _ d rest ih =>
    exact ih (List.not_mem_of_not_mem_cons (List.not_mem_of_not_mem_cons hcs))

theorem fails_parse {glob : String} (h : EscapeFree glob) : Fails (parse glob) fun e => EscapeFree e.message := by
  have hstart : EscapeFree "error parsing glob '" := escapeFree_literal rfl
  have hmiddle : EscapeFree "': " := escapeFree_literal rfl
  exact (fails_readTokens h).mapError fun cause hcause => ((hstart.append h).append hmiddle).append hcause

end Glob

/-! ## Walkers -/

variable {globs : List String}

theorem fails_compileGlobs (h : ∀ glob ∈ globs, EscapeFree glob) :
    Fails (compileGlobs globs) fun e => EscapeFree e.message :=
  fails_mapM fun glob hglob => Glob.fails_parse (h glob hglob)

theorem escapeFree_directoryGlob {glob : String} (h : EscapeFree glob) : EscapeFree (directoryGlob glob) := by
  rcases eq_directoryGlob_or glob with heq | heq
  · rwa [← heq]
  · rw [heq] at h
    exact (escapeFree_append.1 h).1

namespace Walker

theorem fails_ofExcludes (h : ∀ glob ∈ globs, EscapeFree glob) :
    Fails (ofExcludes globs) fun e => EscapeFree e.message := by
  have hall : ∀ glob ∈ globs ++ [alwaysExcluded], EscapeFree glob := by
    rw [List.forall_mem_append, List.forall_mem_singleton]
    exact ⟨h, escapeFree_literal rfl⟩
  refine (fails_compileGlobs hall).bind fun _ _ => (fails_compileGlobs fun glob hglob => ?_).bind fun _ _ => fails_pure
  obtain ⟨whole, hwhole, rfl⟩ := List.mem_map.1 (List.mem_filter.1 hglob).1
  exact escapeFree_directoryGlob (hall whole hwhole)

theorem fails_withIncludes (w : Walker) (h : ∀ glob ∈ globs, EscapeFree glob) :
    Fails (w.withIncludes globs) fun e => EscapeFree e.message := by
  unfold withIncludes
  split
  · exact fails_ok
  · exact (fails_compileGlobs h).map _

end Walker

end PromptPack
