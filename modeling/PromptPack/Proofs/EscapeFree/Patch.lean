import PromptPack.Proofs.EscapeFree.Files
import PromptPack.Proofs.Yields
import PromptPack.Revision.Query
/-!
# Patches without escapes

Settling the groups of changed lines marks lines and never touches them, so the lines of a patch are lines of the
two texts. Names of files are quoted and ids are digits. Hence what a repository says of its changes is free of
escapes when the files and the messages in it are.
-/

namespace PromptPack

/-! ## Lines that are marked -/

namespace Matching

theorem lines_foldl_mark (places : List Nat) (s : Side) : (places.foldl (Side.mark · true ·) s).lines = s.lines := by
  induction places generalizing s with
  | nil => rfl
  | cons i places ih => rw [List.foldl_cons, ih, Side.mark]

theorem lines_between (old new : List String) :
    (between old new).1.lines = old.toArray ∧ (between old new).2.lines = new.toArray :=
  ⟨lines_foldl_mark _ _, lines_foldl_mark _ _⟩

end Matching

namespace Settling

namespace Slide

variable {s s' : Slide}

theorem lines_of_up? (h : s.up? = some s') : s'.side.lines = s.side.lines := by
  simp only [up?, Option.ite_none_right_eq_some, Option.some.injEq] at h
  obtain ⟨-, rfl⟩ := h
  rfl

theorem lines_of_down? (h : s.down? = some s') : s'.side.lines = s.side.lines := by
  simp only [down?, Option.ite_none_right_eq_some, Option.some.injEq] at h
  obtain ⟨-, rfl⟩ := h
  rfl

theorem lines_top (fuel : Nat) (s : Slide) : (top fuel s).side.lines = s.side.lines := by
  induction fuel generalizing s with
  | zero => rfl
  | succ fuel ih =>
    rw [top]
    split
    · rename_i s' hup
      rw [ih, lines_of_up? hup]
    · rfl

theorem lines_bottom (fuel : Nat) (s : Slide) (facing : Option Nat) :
    (bottom fuel s facing).1.side.lines = s.side.lines := by
  induction fuel generalizing s facing with
  | zero => rfl
  | succ fuel ih =>
    rw [bottom]
    split
    · rename_i s' hdown
      rw [ih, lines_of_down? hdown]
    · rfl

theorem lines_range (fuel : Nat) (s : Slide) : (range fuel s).1.side.lines = s.side.lines := by
  induction fuel generalizing s with
  | zero => rfl
  | succ fuel ih =>
    rw [range]
    dsimp only
    generalize (if (top s.side.size s).facing.isEmpty then none else some (top s.side.size s).group.stop) = facing
    split
    · rw [lines_bottom, lines_top]
    · rw [ih, lines_bottom, lines_top]

theorem lines_upTo (admits : Slide → Bool) (fuel : Nat) (s : Slide) :
    (upTo admits fuel s).side.lines = s.side.lines := by
  induction fuel generalizing s with
  | zero => rfl
  | succ fuel ih =>
    rw [upTo]
    split
    · rfl
    · split
      · rename_i s' hup
        rw [ih, lines_of_up? hup]
      · rfl

theorem lines_settled (s : Slide) : s.settled.side.lines = s.side.lines := by
  have hrange := lines_range (s.side.size + 1) s
  unfold settled
  dsimp only
  split
  · exact hrange
  · split
    · rw [lines_upTo, hrange]
    · split
      · rw [lines_upTo, hrange]
      · exact hrange

end Slide

theorem lines_settleFrom (fuel : Nat) (s : Slide) : (settleFrom fuel s).lines = s.side.lines := by
  induction fuel generalizing s with
  | zero => rfl
  | succ fuel ih =>
    have hgroup : (if s.group.isEmpty then s else s.settled).side.lines = s.side.lines := by
      split
      · rfl
      · exact s.lines_settled
    rw [settleFrom]
    split
    · rw [ih, hgroup]
    · exact hgroup

theorem lines_settle (side other : Matching.Side) : (settle side other).lines = side.lines := lines_settleFrom _ _

end Settling

/-! ## Edits -/

namespace LineChange

/-- The line that an edit is about. -/
def Edit.line : Edit → String
  | .keep l => l
  | .drop l => l
  | .add l => l

theorem line_of_mem_ofMarked {old new : List (String × Bool)} {e : Edit} (h : e ∈ ofMarked old new) :
    e.line ∈ old.map (·.1) ∨ e.line ∈ new.map (·.1) := by
  fun_induction ofMarked old new <;> simp_all [Edit.line] <;> grind [Edit.line]

theorem line_of_mem_between {old new : List String} {e : Edit} (h : e ∈ between old new) :
    e.line ∈ old ∨ e.line ∈ new := by
  have hmarked (s : Matching.Side) (l : String) (hl : l ∈ (marked s).map (·.1)) : l ∈ s.lines.toList := by
    obtain ⟨⟨l', b⟩, hmem, rfl⟩ := List.mem_map.1 hl
    exact (List.of_mem_zip hmem).1
  obtain ⟨hold, hnew⟩ := Matching.lines_between old new
  unfold between at h
  generalize Matching.between old new = sides at h hold hnew
  obtain ⟨s, t⟩ := sides
  refine (line_of_mem_ofMarked h).imp (fun hl => ?_) fun hl => ?_
  · have := hmarked _ _ hl
    rwa [Settling.lines_settle, hold] at this
  · have := hmarked _ _ hl
    rwa [Settling.lines_settle, hnew] at this

end LineChange

namespace Patch

open LineChange

/-! ## Names and ids -/

theorem escapeMark_not_mem_octal (b : UInt8) : escapeMark ∉ octal b := by
  have hdigit : ∀ n < 8, escapeMark ≠ Char.ofNat (48 + n) := by decide
  simp only [octal, List.mem_cons, List.not_mem_nil, or_false, not_or]
  exact ⟨by decide, hdigit _ (Nat.mod_lt _ (by decide)), hdigit _ (Nat.mod_lt _ (by decide)),
    hdigit _ (Nat.mod_lt _ (by decide))⟩

theorem escapeMark_not_mem_quotedByte (b : UInt8) : escapeMark ∉ quotedByte b := by
  unfold quotedByte
  split_ifs with h1 h2 h3 h4 h5 h6
  · decide
  · decide
  · decide
  · decide
  · decide
  · exact escapeMark_not_mem_octal b
  · rw [List.mem_singleton]
    intro h
    have := Text.eq_of_ofNat_eq_escapeMark h.symm
    simp only [Bool.or_eq_true, decide_eq_true_eq, not_or, UInt8.lt_iff_toNat_lt, UInt8.le_iff_toNat_le] at h6
    exact absurd h6.1 (by rw [this]; decide)

/-- A path is shown without escapes whatever its name is. -/
theorem escapeFree_shownPath (p : String) : EscapeFree (shownPath p) := by
  have hescaped : escapeMark ∉ p.toUTF8.toList.flatMap quotedByte := by
    rw [List.mem_flatMap]
    rintro ⟨b, -, hb⟩
    exact escapeMark_not_mem_quotedByte b hb
  have hquote : EscapeFree "\"" := escapeFree_literal rfl
  unfold shownPath
  dsimp only
  split
  · rename_i heq
    rw [beq_iff_eq] at heq
    rwa [heq] at hescaped
  · exact (hquote.append (escapeFree_ofList.2 hescaped)).append hquote

theorem escapeFree_idText (id : ObjectId) : EscapeFree id.text := by
  have hdigit : ∀ n < 16, escapeMark ≠ ObjectId.hexDigit n := by decide
  rw [ObjectId.text, escapeFree_ofList, List.mem_flatMap]
  rintro ⟨b, -, hb⟩
  have := b.toNat_lt
  simp only [List.mem_cons, List.not_mem_nil, or_false] at hb
  rcases hb with hb | hb
  · exact hdigit _ (by omega) hb
  · exact hdigit _ (by omega) hb

theorem escapeFree_shortId (id : ObjectId) : EscapeFree (shortId id) :=
  escapeFree_ofList.2 fun hmark => escapeFree_idText id (List.mem_of_mem_take hmark)

theorem escapeFree_noId : EscapeFree noId := escapeFree_literal rfl

theorem escapeFree_pathLine {mark path : String} (hmark : EscapeFree mark) (hpath : EscapeFree path) :
    EscapeFree (pathLine mark path) := by
  refine (hmark.append hpath).append ?_
  split <;> exact escapeFree_literal rfl

/-! ## Hunks -/

theorem escapeFree_of_mem_linesOf {text line : String} (h : EscapeFree text) (hline : line ∈ linesOf text) :
    EscapeFree line := by
  have hpiece (piece : String) (hpiece : piece ∈ (Text.splitAt '\n' text).reverse) : EscapeFree piece :=
    escapeFree_of_mem_splitAt h (List.mem_reverse.1 hpiece)
  unfold linesOf at hline
  split at hline
  · cases hline
  · rename_i last rest heq
    rw [heq] at hpiece
    rcases List.mem_append.1 hline with hline | hline
    · obtain ⟨piece, hmem, rfl⟩ := List.mem_map.1 hline
      exact (hpiece piece (List.mem_cons_of_mem _ (List.mem_reverse.1 hmem))).append escapeFree_newline
    · split at hline
      · cases hline
      · obtain rfl := List.mem_singleton.1 hline
        exact hpiece _ List.mem_cons_self

theorem readHunk_subset (fuel : Nat) (es : List Edit) : (readHunk fuel es).1 ⊆ es ∧ (readHunk fuel es).2 ⊆ es := by
  induction fuel generalizing es with
  | zero => simp [readHunk]
  | succ fuel ih =>
    have hrest := (List.dropWhile_sublist (l := es) fun e => !e.isKeep).subset
    have hchanges := (List.takeWhile_sublist (l := es) fun e => !e.isKeep).subset
    have hkeeps := List.Subset.trans
      (List.takeWhile_sublist (l := es.dropWhile fun e => !e.isKeep) Edit.isKeep).subset hrest
    have hrest' := List.Subset.trans
      (List.dropWhile_sublist (l := es.dropWhile fun e => !e.isKeep) Edit.isKeep).subset hrest
    simp only [readHunk, spanKeeps, List.span_eq_takeWhile_dropWhile]
    split
    · refine ⟨List.append_subset.2 ⟨hchanges, ?_⟩, List.append_subset.2 ⟨?_, hrest'⟩⟩
      · exact List.Subset.trans (List.take_subset _ _) hkeeps
      · exact List.Subset.trans (List.drop_subset _ _) hkeeps
    · obtain ⟨hmore, hleft⟩ := ih ((es.dropWhile fun e => !e.isKeep).dropWhile Edit.isKeep)
      refine ⟨List.append_subset.2 ⟨List.append_subset.2 ⟨hchanges, hkeeps⟩, ?_⟩, ?_⟩
      · exact List.Subset.trans hmore hrest'
      · exact List.Subset.trans hleft hrest'

theorem edits_subset_of_mem_hunksFrom {fuel oldLine newLine : Nat} {es : List Edit} {h : Hunk}
    (hh : h ∈ hunksFrom fuel oldLine newLine es) : h.edits ⊆ es := by
  induction fuel generalizing oldLine newLine es with
  | zero => simp [hunksFrom] at hh
  | succ fuel ih =>
    have hkeeps := (List.takeWhile_sublist (l := es) Edit.isKeep).subset
    have hrest := (List.dropWhile_sublist (l := es) Edit.isKeep).subset
    obtain ⟨hbody, hleft⟩ := readHunk_subset (es.dropWhile Edit.isKeep).length (es.dropWhile Edit.isKeep)
    simp only [hunksFrom, spanKeeps, List.span_eq_takeWhile_dropWhile] at hh
    split at hh
    · cases hh
    · rcases List.mem_cons.1 hh with rfl | hh
      · refine List.append_subset.2 ⟨?_, List.Subset.trans hbody hrest⟩
        exact List.Subset.trans (List.drop_subset _ _) hkeeps
      · exact List.Subset.trans (ih hh) (List.Subset.trans hleft hrest)

theorem escapeFree_shownEdit {e : Edit} (h : EscapeFree e.line) : EscapeFree (shownEdit e) := by
  have hend : EscapeFree "\n\\ No newline at end of file\n" := escapeFree_literal rfl
  have hline (mark : String) (hmark : EscapeFree mark) : EscapeFree (shownLine mark e.line) := by
    unfold shownLine
    split
    · exact hmark.append h
    · exact (hmark.append h).append hend
  cases e with
  | keep l => exact hline " " (escapeFree_literal rfl)
  | drop l => exact hline "-" (escapeFree_literal rfl)
  | add l => exact hline "+" (escapeFree_literal rfl)

theorem escapeFree_shownSpan (start length : Nat) : EscapeFree (shownSpan start length) := by
  have hcomma : EscapeFree "," := escapeFree_literal rfl
  unfold shownSpan
  dsimp only
  split
  · exact escapeFree_toString _
  · exact ((escapeFree_toString _).append hcomma).append (escapeFree_toString _)

theorem escapeFree_shownHeading {line : String} (h : EscapeFree line) : EscapeFree (shownHeading line) := by
  refine escapeFree_space.append (Text.escapeFree_decodeLossy fun hbyte => ?_)
  refine Text.escapeByte_mem_toUTF8_iff.1 ?_ h
  rw [ByteArray.toList, Text.toList_loop_eq] at hbyte
  simp only [List.reverse_nil, List.nil_append, List.drop_zero, List.toList_data_toByteArray, List.mem_reverse] at hbyte
  exact List.mem_of_mem_take (List.mem_reverse.1 ((List.dropWhile_sublist _).subset hbyte))

theorem escapeFree_headingBefore {old : List String} (h : ∀ l ∈ old, EscapeFree l) (start : Nat) :
    EscapeFree (headingBefore old start) := by
  unfold headingBefore
  split
  · rename_i l hl
    exact escapeFree_shownHeading (h l (List.mem_of_mem_take (List.mem_reverse.1 (List.mem_of_find?_eq_some hl))))
  · exact escapeFree_empty

theorem escapeFree_hunk {old : List String} {h : Hunk} (hold : ∀ l ∈ old, EscapeFree l)
    (hedits : ∀ e ∈ h.edits, EscapeFree e.line) : EscapeFree (h.shown old) := by
  have hopen : EscapeFree "@@ -" := escapeFree_literal rfl
  have hplus : EscapeFree " +" := escapeFree_literal rfl
  have hclose : EscapeFree " @@" := escapeFree_literal rfl
  have hbody : EscapeFree (String.join (h.edits.map shownEdit)) := by
    refine escapeFree_join fun line hline => ?_
    obtain ⟨e, he, rfl⟩ := List.mem_map.1 hline
    exact escapeFree_shownEdit (hedits e he)
  simp only [Hunk.shown, escapeFree_append]
  exact ⟨⟨⟨⟨⟨⟨⟨hopen, escapeFree_shownSpan _ _⟩, hplus⟩, escapeFree_shownSpan _ _⟩, hclose⟩,
    escapeFree_headingBefore hold _⟩, escapeFree_newline⟩, hbody⟩

end Patch

/-! ## Snapshots -/

/-- What the tracked file holds is free of escapes. -/
def Tracked.Plain (t : Tracked) : Prop := escapeByte ∉ t.bytes.toList

namespace Rename

variable {gone made : Snapshot} {p : Pair}

/-- The files of a pair are among those that are gone and those that are made. -/
def Pair.OfSnapshots (gone made : Snapshot) (p : Pair) : Prop := p.old ∈ gone ∧ p.new ∈ made

theorem Pair.OfSnapshots.mono {gone' made' : Snapshot} (h : p.OfSnapshots gone made) (hgone : gone ⊆ gone')
    (hmade : made ⊆ made') : p.OfSnapshots gone' made' :=
  ⟨hgone h.1, hmade h.2⟩

theorem ofSnapshots_of_mem_equalPairs (h : p ∈ equalPairs gone made) : p.OfSnapshots gone made := by
  induction made generalizing gone with
  | nil => simp [equalPairs] at h
  | cons t made ih =>
    rw [equalPairs] at h
    split at h
    · rename_i s hs
      rcases List.mem_cons.1 h with rfl | h
      · refine ⟨?_, List.mem_cons_self⟩
        rcases Option.or_eq_some_iff.1 hs with hs | ⟨-, hs⟩
        · exact (List.mem_filter.1 (List.mem_of_find?_eq_some hs)).1
        · exact (List.mem_filter.1 (List.mem_of_head? hs)).1
      · exact (ih h).mono (List.filter_subset_self _) (List.subset_cons_self _ _)
    · exact (ih h).mono (List.Subset.refl _) (List.subset_cons_self _ _)

theorem ofSnapshots_of_mem_namedPairs (h : p ∈ namedPairs gone made) : p.OfSnapshots gone made := by
  obtain ⟨s, hs, h⟩ := List.mem_filterMap.1 h
  split at h
  · rename_i t _ hmade
    split at h
    · obtain rfl := Option.some.inj h
      have ht : t ∈ made.filter (sameName s) := by rw [hmade]; exact List.mem_singleton_self t
      exact ⟨hs, (List.mem_filter.1 ht).1⟩
    · cases h
  · cases h

theorem mem_of_mem_distinctPairs {found : List Pair} (h : p ∈ distinctPairs found) : p ∈ found := by
  have hfold (rest taken : List Pair) : rest.foldl (fun taken p =>
      if taken.any fun q => q.old.path == p.old.path || q.new.path == p.new.path then taken else taken ++ [p]) taken ⊆
      taken ++ rest := by
    induction rest generalizing taken with
    | nil => simp
    | cons q rest ih =>
      refine List.Subset.trans (ih _) ?_
      dsimp only
      split <;> simp
  simpa using hfold found [] h

theorem ofSnapshots_of_mem_similarPairs (h : p ∈ similarPairs gone made) : p.OfSnapshots gone made := by
  have hmem := (List.mem_filter.1 (List.mem_mergeSort.1 (mem_of_mem_distinctPairs h))).1
  obtain ⟨t, ht, hmem⟩ := List.mem_flatMap.1 hmem
  obtain ⟨s, hs, rfl⟩ := List.mem_map.1 hmem
  exact ⟨hs, ht⟩

/-- Renamed files are files of the two snapshots. -/
theorem ofSnapshots_of_mem_pairs {old new : Snapshot} (h : p ∈ pairs old new) : p.OfSnapshots old new := by
  have hold : (old.filter fun s => (new.find? s.path).isNone) ⊆ old := List.filter_subset_self _
  have hnew : (new.filter fun t => (old.find? t.path).isNone) ⊆ new := List.filter_subset_self _
  unfold pairs unpaired at h
  dsimp only at h
  rw [List.mem_append, List.mem_append] at h
  rcases h with (h | h) | h
  · exact (ofSnapshots_of_mem_equalPairs h).mono hold hnew
  · exact (ofSnapshots_of_mem_namedPairs h).mono (List.Subset.trans (List.filter_subset_self _) hold)
      (List.Subset.trans (List.filter_subset_self _) hnew)
  · refine (ofSnapshots_of_mem_similarPairs h).mono ?_ ?_
    · exact List.Subset.trans (List.filter_subset_self _) (List.Subset.trans (List.filter_subset_self _) hold)
    · exact List.Subset.trans (List.filter_subset_self _) (List.Subset.trans (List.filter_subset_self _) hnew)

end Rename

/-! ## Patches -/

namespace Patch

theorem escapeFree_body {old new : Option Tracked} {oldName newName : String} (hold : ∀ t ∈ old, t.Plain)
    (hnew : ∀ t ∈ new, t.Plain) (holdName : EscapeFree oldName) (hnewName : EscapeFree newName) :
    EscapeFree (body old new oldName newName) := by
  have hlines {t? : Option Tracked} (ht : ∀ t ∈ t?, t.Plain) :
      ∀ l ∈ linesOf (Text.decodeLossy ((t?.map (·.bytes)).getD ByteArray.empty)), EscapeFree l := by
    refine fun l hl => escapeFree_of_mem_linesOf (Text.escapeFree_decodeLossy ?_) hl
    cases t? with
    | none => decide +kernel
    | some t => exact ht t rfl
  have hbinary : EscapeFree "Binary files " := escapeFree_literal rfl
  have hand : EscapeFree " and " := escapeFree_literal rfl
  have hdiffer : EscapeFree " differ\n" := escapeFree_literal rfl
  unfold body
  dsimp only
  split
  · exact escapeFree_empty
  · split
    · exact (((hbinary.append holdName).append hand).append hnewName).append hdiffer
    · refine ((escapeFree_pathLine (escapeFree_literal rfl) holdName).append
        (escapeFree_pathLine (escapeFree_literal rfl) hnewName)).append (escapeFree_join fun hunk hhunk => ?_)
      obtain ⟨h, hh, rfl⟩ := List.mem_map.1 hhunk
      refine escapeFree_hunk (hlines hold) fun e he => ?_
      rcases LineChange.line_of_mem_between (edits_subset_of_mem_hunksFrom hh he) with hline | hline
      · exact hlines hold _ hline
      · exact hlines hnew _ hline

theorem escapeFree_mode (t : Tracked) : EscapeFree t.mode := by
  unfold Tracked.mode
  split <;> exact escapeFree_literal rfl

theorem escapeFree_ofFile {path : String} {old new : Option Tracked} (hold : ∀ t ∈ old, t.Plain)
    (hnew : ∀ t ∈ new, t.Plain) : EscapeFree (ofFile path old new) := by
  have hgit : EscapeFree "diff --git " := escapeFree_literal rfl
  have hmade : EscapeFree "new file mode " := escapeFree_literal rfl
  have hgone : EscapeFree "deleted file mode " := escapeFree_literal rfl
  have hindex : EscapeFree "index " := escapeFree_literal rfl
  have hindex' : EscapeFree "\nindex " := escapeFree_literal rfl
  have hdots : EscapeFree ".." := escapeFree_literal rfl
  have hnull : EscapeFree "/dev/null" := escapeFree_literal rfl
  have hnames := escapeFree_shownPath
  have hids := escapeFree_shortId
  have hmodes := escapeFree_mode
  unfold ofFile
  dsimp only
  split
  · exact escapeFree_empty
  · simp only [escapeFree_append, escapeFree_space, escapeFree_newline, hgit, hmade, hindex', hdots, hnames, hids, hmodes,
      escapeFree_noId, true_and]
    exact escapeFree_body hold hnew hnull (hnames _)
  · simp only [escapeFree_append, escapeFree_space, escapeFree_newline, hgit, hgone, hindex', hdots, hnames, hids, hmodes,
      escapeFree_noId, true_and]
    exact escapeFree_body hold hnew (hnames _) hnull
  · split
    · exact escapeFree_empty
    · simp only [escapeFree_append, escapeFree_space, escapeFree_newline, hgit, hindex, hdots, hnames, hids, hmodes,
        true_and]
      exact escapeFree_body hold hnew (hnames _) (hnames _)

theorem escapeFree_ofRename {p : Rename.Pair} (hold : p.old.Plain) (hnew : p.new.Plain) :
    EscapeFree (ofRename p) := by
  have hgit : EscapeFree "diff --git " := escapeFree_literal rfl
  have hsimilar : EscapeFree "\nsimilarity index " := escapeFree_literal rfl
  have hfrom : EscapeFree "%\nrename from " := escapeFree_literal rfl
  have hto : EscapeFree "\nrename to " := escapeFree_literal rfl
  have hindex : EscapeFree "index " := escapeFree_literal rfl
  have hdots : EscapeFree ".." := escapeFree_literal rfl
  have hnames := escapeFree_shownPath
  have hbody (oldName newName : String) : EscapeFree (body (some p.old) (some p.new) (shownPath oldName)
      (shownPath newName)) :=
    escapeFree_body (by simpa using hold) (by simpa using hnew) (hnames oldName) (hnames newName)
  have hids := escapeFree_shortId
  have hmodes := escapeFree_mode
  unfold ofRename
  simp only [escapeFree_append, escapeFree_newline, escapeFree_space, escapeFree_toString, hgit, hsimilar, hfrom, hto, hnames,
    true_and]
  split
  · exact escapeFree_empty
  · simpa only [escapeFree_append, escapeFree_space, escapeFree_newline, hindex, hdots, hids, hmodes, true_and] using hbody _ _

/-- A patch shows nothing but lines of the two snapshots, and texts that are free of escapes anyway. -/
theorem escapeFree_between {old new : Snapshot} (hold : ∀ t ∈ old, t.Plain) (hnew : ∀ t ∈ new, t.Plain) :
    EscapeFree (between old new) := by
  have hfind {s : Snapshot} (hs : ∀ t ∈ s, t.Plain) (path : List String) : ∀ t ∈ s.find? path, t.Plain :=
    fun t ht => hs t (List.mem_of_find?_eq_some ht)
  refine escapeFree_join fun part hpart => ?_
  obtain ⟨t, -, rfl⟩ := List.mem_map.1 hpart
  split
  · exact escapeFree_empty
  · split
    · rename_i p hp
      obtain ⟨hpold, hpnew⟩ := Rename.ofSnapshots_of_mem_pairs (List.mem_of_find?_eq_some hp)
      exact escapeFree_ofRename (hold _ hpold) (hnew _ hpnew)
    · exact escapeFree_ofFile (hfind hold _) (hfind hnew _)

end Patch

/-! ## Repositories -/

theorem Snapshot.plain_ofFiles {fs : FileSystem} (h : fs.Plain) (top : Location) :
    ∀ t ∈ Snapshot.ofFiles fs top, t.Plain := by
  intro t ht
  obtain ⟨⟨loc, item⟩, hitem, ht⟩ := List.mem_filterMap.1 (List.mem_mergeSort.1 ht)
  have hcontents := h.contents _ hitem
  dsimp only at ht
  split at ht
  · split at ht
    · cases ht
    · split at ht
      · obtain rfl := Option.some.inj ht
        exact hcontents
      · obtain rfl := Option.some.inj ht
        exact fun hbyte => Text.escapeByte_mem_toUTF8_iff.1 hbyte hcontents
      · cases ht
  · cases ht

theorem Snapshot.plain_refresh {s files : Snapshot} (h : ∀ t ∈ files, t.Plain) : ∀ t ∈ s.refresh files, t.Plain := by
  intro t ht
  obtain ⟨_, -, ht⟩ := List.mem_filterMap.1 ht
  exact h t (List.mem_of_find?_eq_some ht)

/-- Whatever the repository tracks is free of escapes, and so are the messages of its commits. -/
structure Repository.Plain (r : Repository) : Prop where
  index : ∀ t ∈ r.index, t.Plain
  snapshots : ∀ c ∈ r.commits, ∀ t ∈ c.2.snapshot, t.Plain
  messages : ∀ c ∈ r.commits, EscapeFree c.2.message

theorem Repository.mem_of_commit? {r : Repository} {id : ObjectId} {c : Commit} (h : r.commit? id = some c) :
    (id, c) ∈ r.commits := by
  obtain ⟨before, after, heq, -⟩ := List.lookup_eq_some_iff.1 h
  simp [heq]

theorem Commit.escapeFree_subject {c : Commit} (h : EscapeFree c.message) : EscapeFree c.subject :=
  escapeFree_intercalate (escapeFree_literal rfl) fun _ hline =>
    escapeFree_of_mem_lines h ((List.takeWhile_sublist _).subset hline)

namespace Repositories

variable {rs : Repositories} {fs : FileSystem} {dir : Path} {base tip : String}

theorem mem_of_ofDirectory? {r : Repository} (h : rs.ofDirectory? fs dir = some r) : r ∈ rs := by
  unfold ofDirectory? at h
  split at h
  · obtain ⟨n, -, hr⟩ := List.exists_of_findSome?_eq_some h
    exact List.mem_of_find?_eq_some hr
  · cases h

theorem mem_of_range? {r : Repository} {ids : ObjectId × ObjectId} (h : rs.range? fs dir base tip = some (r, ids)) :
    r ∈ rs := by
  obtain ⟨r', hr', h⟩ := Option.bind_eq_some_iff.1 h
  obtain ⟨b, -, h⟩ := Option.bind_eq_some_iff.1 h
  obtain ⟨t, -, h⟩ := Option.bind_eq_some_iff.1 h
  obtain ⟨rfl, -⟩ := Prod.mk.inj (Option.some.inj h)
  exact mem_of_ofDirectory? hr'

theorem escapeFree_diff (hrs : ∀ r ∈ rs, r.Plain) (hfs : fs.Plain) : Yields (rs.diff fs dir) EscapeFree := by
  unfold diff
  split
  · rename_i r hr
    have hindex := (hrs r (mem_of_ofDirectory? hr)).index
    exact yields_ok.2 (Patch.escapeFree_between hindex (Snapshot.plain_refresh (Snapshot.plain_ofFiles hfs r.top)))
  · exact yields_error

theorem escapeFree_diffBetween (hrs : ∀ r ∈ rs, r.Plain) : Yields (rs.diffBetween fs dir base tip) EscapeFree := by
  unfold diffBetween
  split
  · rename_i r b t hrange
    have hplain := hrs r (mem_of_range? hrange)
    have hsnapshot {id : ObjectId} {c : Commit} (hc : r.commit? id = some c) : ∀ t ∈ c.snapshot, t.Plain :=
      hplain.snapshots _ (Repository.mem_of_commit? hc)
    split
    · rename_i hb ht
      exact yields_ok.2 (Patch.escapeFree_between (hsnapshot hb) (hsnapshot ht))
    · exact yields_error
  · exact yields_error

theorem escapeFree_logBetween (hrs : ∀ r ∈ rs, r.Plain) : Yields (rs.logBetween fs dir base tip) EscapeFree := by
  unfold logBetween
  split
  · rename_i r b t hrange
    have hplain := hrs r (mem_of_range? hrange)
    refine yields_ok.2 (escapeFree_join fun line hline => ?_)
    obtain ⟨⟨id, c⟩, hc, rfl⟩ := List.mem_map.1 hline
    have hsubject := Commit.escapeFree_subject (hplain.messages _ (List.mem_filter.1 hc).1)
    exact (((Patch.escapeFree_shortId id).append escapeFree_space).append hsubject).append escapeFree_newline
  · exact yields_error

end Repositories

end PromptPack
