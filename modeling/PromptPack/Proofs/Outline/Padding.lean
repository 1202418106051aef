import Mathlib
import PromptPack.Proofs.Outline.Beginnings
import PromptPack.Proofs.Outline.Nesting
/-!
# Blanks in front of a source

Blanks in front of a source move all matches of the rules further on. The one exception is an import that leads a Swift
source: it takes the blanks in front of it into its match, so it still starts at the very beginning. Nothing else starts
there, so the extracts come up in the same order and cover each other as before, and the outline is the same
(`blanks_in_front_do_not_show`).
-/

namespace PromptPack.Outline

open Regex
open String (utf8Len)

variable {w text : List Char}

/-- The match in a text with `w` in front: it takes that in when it starts at the very beginning. -/
def stretchedMatch (w : List Char) (m : Match) : Match :=
  if m.start = 0 then { m with stop := m.stop + utf8Len w, text := w ++ m.text } else m.later (utf8Len w)

/-! ## Imports -/

namespace Swift

/-- What is left of an import behind the blanks in front of it. -/
def importTail : Regex := "import" ++ gap ++ plus .greedy (char fun c => Text.isWord c || c == '.')

theorem begins_importTail : Begins visible importTail := by
  have himport : Begins visible (literal "import") := begins_literal (by decide)
  exact himport.left.left

theorem asksLineStart_importTail : importTail.asksLineStart = false := by decide

theorem run_importLine {α : Type} (c : Cursor) (g : Groups) (k : Cursor → Groups → Option α) :
    importLine.run c g k = lineStart.run c g fun d g => (blanks ++ importTail).run d g k := rfl

variable {c d e : Cursor} {front back : List Char}

/-- A line starts at the cursor. -/
def AtLine (c : Cursor) : Prop := c.before = none ∨ c.before = some '\n'

theorem matchAt?_importLine (h : AtLine c) : matchAt? importLine c = matchAt? (blanks ++ importTail) c := by
  have hrun {α : Type} (k : Cursor → Groups → Option α) :
      importLine.run c [] k = (blanks ++ importTail).run c [] k := by
    rw [run_importLine, run]
    rcases h with h | h <;> rw [h]
    rfl
  rw [matchAt?, matchAt?, hrun]

theorem matchAt?_importLine_of_not (h : ¬ AtLine c) : matchAt? importLine c = none := by
  have hrun {α : Type} (k : Cursor → Groups → Option α) : importLine.run c [] k = none := by
    unfold AtLine at h
    rw [not_or] at h
    rw [run_importLine, run]
    cases hbefore : c.before with
    | none => exact absurd hbefore h.1
    | some x =>
      refine if_neg fun hx => h.2 ?_
      rw [hbefore, beq_iff_eq.1 hx]
  rw [matchAt?, hrun]

theorem movesBy_importLine (n : Nat) : importLine.MovesBy n := by
  intro c
  by_cases hline : AtLine c
  · rw [matchAt?_importLine hline, matchAt?_importLine (c := c.later n) hline]
    exact matchAt?_alike (by decide) (Cursor.alike_later n c.room c)
  · rw [matchAt?_importLine_of_not hline, matchAt?_importLine_of_not (c := c.later n) hline, Option.map_none]

/-- The blanks in front of a place where they end. -/
structure Indents (c d : Cursor) (front : List Char) : Prop where
  room : c.room = c.rest.length
  reads : c.Reads front d
  blank : ∀ x ∈ front, Text.isBlank x = true
  ends : ∀ x, d.rest.head? = some x → Text.isBlank x = false

theorem Indents.run_blanks {α : Type} (h : Indents c d front) (g : Groups) (k : Cursor → Groups → Option α) :
    (blanks ++ importTail).run c g k = importTail.run d g k :=
  Regex.run_blanks (fun _ g _ hx hblank => begins_importTail.run_blank hx hblank g k) h.room h.reads h.blank h.ends g

/-- An import at the start of a line takes the blanks there into its match. -/
theorem Indents.matchAt?_importLine (h : Indents c d front) (hline : AtLine c) :
    matchAt? importLine c =
      (matchAt? importTail d).map fun x => (⟨c.pos, x.1.stop, front ++ x.1.text, x.1.groups⟩, x.2) := by
  have hrest := h.reads.rest_eq
  have hd := h.reads.room_eq h.room
  have hc := h.room
  rw [hrest, List.length_append] at hc
  rw [Swift.matchAt?_importLine hline]
  unfold matchAt?
  rw [h.run_blanks]
  cases htail : importTail.run d [] (fun stop groups => some (stop, groups)) with
  | none => rfl
  | some x =>
    obtain ⟨stop, groups⟩ := x
    obtain ⟨cs, e, g, hcs, hread, he⟩ := run_reads importTail d [] _ _ htail
    obtain ⟨rfl, rfl⟩ := Prod.mk.inj (Option.some.inj he)
    have hstop := hread.room_eq hd
    have hlength := congrArg List.length hread.rest_eq
    rw [List.length_append] at hlength
    -- What is left of an import is not empty, so the match is one on either side.
    have hpos : 0 < cs.length := by
      cases cs with
      | nil => cases begins_importTail [] hcs
      | cons x cs => exact Nat.succ_pos _
    have hbetween : between c e = front ++ between d e := by
      rw [between, between, hrest, show c.room - e.room = front.length + (d.room - e.room) by omega,
        List.take_length_add_append]
    dsimp only
    rw [if_pos (by omega), if_pos (by omega), hbetween]
    rfl

/-- Where no import is left behind the blanks, none begins in front of them. -/
theorem Indents.matchAt?_importLine_eq_none (h : Indents c d front) (hnone : matchAt? importTail d = none) :
    matchAt? importLine c = none := by
  by_cases hline : AtLine c
  · rw [h.matchAt?_importLine hline, hnone, Option.map_none]
  · exact matchAt?_importLine_of_not hline

theorem Indents.behind (h : Indents c d (front ++ back)) (hread : c.Reads front e) : Indents e d back := by
  have hrest : e.rest = back ++ d.rest := by
    have heq := hread.rest_eq
    rw [h.reads.rest_eq, List.append_assoc] at heq
    exact (List.append_cancel_left heq).symm
  obtain ⟨d', hback⟩ := Cursor.exists_reads hrest
  obtain rfl := (hread.append hback).unique h.reads
  exact ⟨hread.room_eq h.room, hback, fun x hx => h.blank x (List.mem_append_right _ hx), h.ends⟩

/-- Without an import behind the blanks, the search goes on there. -/
theorem Indents.findAll_importLine (h : Indents (Cursor.start text) d front)
    (hnone : matchAt? importTail d = none) : importLine.findAll text = importLine.matchesFrom d.room d := by
  have hlength : text.length = front.length + d.room := by
    rw [h.reads.room_eq h.room, ← List.length_append, ← h.reads.rest_eq]
    rfl
  rw [findAll, hlength]
  refine matchesFrom_reads h.reads d.room fun above x below e heq hread => ?_
  subst heq
  exact (h.behind hread).matchAt?_importLine_eq_none hnone

theorem exists_indents {rest : List Char} (hfront : ∀ x ∈ front, Text.isBlank x = true)
    (hrest : ∀ x, rest.head? = some x → Text.isBlank x = false) :
    ∃ d, Indents (Cursor.start (front ++ rest)) d front ∧ d.rest = rest := by
  obtain ⟨d, hread⟩ := Cursor.exists_reads (c := Cursor.start (front ++ rest)) rfl
  have hd : d.rest = rest := (List.append_cancel_left hread.rest_eq).symm
  exact ⟨d, ⟨rfl, hread, hfront, hd ▸ hrest⟩, hd⟩

theorem Indents.isWordAt_before (h : Indents (Cursor.start text) d front) : isWordAt d.before = false :=
  h.reads.isWordAt_before rfl fun x hx => Text.isWord_of_isBlank (h.blank x hx)

/-- Blanks in front of a text end where those of the text itself end. -/
theorem exists_indents_append (hw : ∀ x ∈ w, Text.isBlank x = true) (text : List Char) :
    ∃ front d d', Indents (Cursor.start text) d front ∧ Indents (Cursor.start (w ++ text)) d' (w ++ front) ∧
      Cursor.Alike (utf8Len w) d.room d d' := by
  have hsplit : text.takeWhile Text.isBlank ++ text.dropWhile Text.isBlank = text := List.takeWhile_append_dropWhile
  have hblank : ∀ x ∈ text.takeWhile Text.isBlank, Text.isBlank x = true := fun x hx => List.mem_takeWhile_imp hx
  have hends : ∀ x, (text.dropWhile Text.isBlank).head? = some x → Text.isBlank x = false := by
    intro x hx
    have hhead := List.head?_dropWhile_not Text.isBlank text
    rwa [hx] at hhead
  obtain ⟨d, hd, hrest⟩ := exists_indents hblank hends
  obtain ⟨d', hd', hrest'⟩ := exists_indents (fun x hx => (List.mem_append.1 hx).elim (hw x) (hblank x)) hends
  rw [hsplit] at hd
  rw [List.append_assoc, hsplit] at hd'
  have hpos : d'.pos = d.pos + utf8Len w := by
    rw [hd.reads.pos_eq, hd'.reads.pos_eq, String.utf8Len_append]
    simp only [Cursor.start]
    omega
  have hroom : d'.room = d.room := by rw [hd.reads.room_eq rfl, hd'.reads.room_eq rfl, hrest, hrest']
  have hword : isWordAt d'.before = isWordAt d.before := by rw [hd.isWordAt_before, hd'.isWordAt_before]
  exact ⟨_, d, d', hd, hd', hpos, hrest'.trans hrest.symm, hroom, hword, fun hlt => absurd hlt (Nat.lt_irrefl _)⟩

/-- The text has an import at its very beginning, or with nothing but blanks in front. -/
def LedByImport (text : List Char) : Prop := matchAt? importLine (Cursor.start text) ≠ none

/-- Without a leading import, blanks in front move all imports further on. -/
theorem findAll_importLine_append (hw : ∀ x ∈ w, Text.isBlank x = true) (hled : ¬ LedByImport text) :
    importLine.findAll (w ++ text) = (importLine.findAll text).map (·.later (utf8Len w)) := by
  obtain ⟨front, d, d', hd, hd', halike⟩ := exists_indents_append hw text
  have hnone : matchAt? importTail d = none := by
    rw [LedByImport, hd.matchAt?_importLine (.inl rfl), not_not, Option.map_eq_none_iff] at hled
    exact hled
  have hnone' : matchAt? importTail d' = none := by
    rw [matchAt?_alike asksLineStart_importTail halike, hnone, Option.map_none]
  -- Both searches go on where the blanks end, and no import begins there.
  rw [hd.findAll_importLine hnone, hd'.findAll_importLine hnone', halike.room]
  refine matchesFrom_of_first (movesBy_importLine _) d.room halike ?_
  have hhere {c d : Cursor} {cs : List Char} (h : Indents c d cs) : Indents d d [] := by
    have hnil : Indents c d (cs ++ []) := by rwa [List.append_nil]
    exact hnil.behind h.reads
  rw [(hhere hd).matchAt?_importLine_eq_none hnone, (hhere hd').matchAt?_importLine_eq_none hnone', Option.map_none]

/-- A leading import takes the blanks in front into its match, and the other imports are moved further on. -/
theorem findAll_importLine_append_of_led (hw : ∀ x ∈ w, Text.isBlank x = true) (hled : LedByImport text) :
    importLine.findAll (w ++ text) = (importLine.findAll text).map (stretchedMatch w) := by
  obtain ⟨front, d, d', hd, hd', halike⟩ := exists_indents_append hw text
  have hfirst := hd.matchAt?_importLine (.inl rfl)
  have hfirst' := hd'.matchAt?_importLine (.inl rfl)
  rw [matchAt?_alike asksLineStart_importTail halike] at hfirst'
  cases htail : matchAt? importTail d with
  | none => exact absurd (by rw [hfirst, htail, Option.map_none]) hled
  | some x =>
    rw [htail] at hfirst hfirst'
    rw [findAll_of_matchAt? hfirst, findAll_of_matchAt? hfirst', List.map_cons]
    congr 1
    · simp only [stretchedMatch, further, Match.later, Cursor.start, if_true, List.append_assoc]
    · have hlater := matchesFrom_of_first (movesBy_importLine (utf8Len w)) x.2.room
        (Cursor.alike_later (utf8Len w) x.2.room x.2) (movesBy_importLine _ x.2)
      refine hlater.trans (List.map_congr_left fun m hm => (if_neg ?_).symm)
      -- The search goes on behind the leading import, which is not empty.
      have hstart := le_start_of_mem_matchesFrom hm
      have hempty := start_lt_stop_of_mem_findAll (mem_findAll_of_matchAt? hfirst)
      have hstop := (exists_reads_of_matchAt? hfirst).2.2.2.1
      omega

/-- What does not begin like an import does not start where an import leads. -/
theorem start_ne_zero_of_led (hled : LedByImport text) {r : Regex} (hr : Begins unlikeImport r) {m : Match}
    (hm : m ∈ r.findAll text) : m.start ≠ 0 := by
  intro hstart
  obtain ⟨x, hx⟩ := Option.ne_none_iff_exists'.1 hled
  have hlike := begins_importLine.holds_of_mem_findAll (mem_findAll_of_matchAt? hx)
    (exists_reads_of_matchAt? hx).2.2.1
  have hunlike := hr.holds_of_mem_findAll hm hstart
  exact Bool.false_ne_true ((beginsUnlikeImport_eq_false hlike).symm.trans hunlike)

end Swift

/-! ## Extracts -/

/-- The same extract of a text with `n` bytes more in front. -/
def Extract.later (n : Nat) (x : Extract) : Extract := { x with start := x.start + n, stop := x.stop + n }

/-- The extract in a text with `n` bytes more in front: it takes these in when it starts at the very beginning. -/
def Extract.stretched (n : Nat) (x : Extract) : Extract :=
  if x.start = 0 then { x with stop := x.stop + n } else x.later n

theorem fromOffset_append (w text : List Char) (n : Nat) :
    fromOffset (n + utf8Len w) (w ++ text) = fromOffset n text := by
  induction w with
  | nil => rfl
  | cons x w ih =>
    have hx := x.utf8Size_pos
    rw [String.utf8Len_cons, show n + (utf8Len w + x.utf8Size) = (n + utf8Len w + x.utf8Size - 1) + 1 by omega,
      List.cons_append, fromOffset,
      show n + utf8Len w + x.utf8Size - 1 + 1 - x.utf8Size = n + utf8Len w by omega, ih]

theorem extract?_later (rule : Rule) (w text : List Char) (m : Match) :
    rule.extract? (w ++ text) (m.later (utf8Len w)) = (rule.extract? text m).map (Extract.later (utf8Len w)) := by
  have htext : (m.later (utf8Len w)).text = m.text := rfl
  have hcontrol : isControl (m.later (utf8Len w)) = isControl m := rfl
  have hbody : fromOffset (m.later (utf8Len w)).stop (w ++ text) = fromOffset m.stop text :=
    fromOffset_append w text m.stop
  simp only [Rule.extract?, htext, hcontrol, hbody]
  cases rule.keep with
  | all =>
    dsimp only
    split <;> rfl
  | signature =>
    dsimp only
    split
    · rfl
    · rw [Option.map_some, Extract.later, Match.later, Nat.add_right_comm]

theorem trimChars_append (hw : ∀ x ∈ w, Text.isBlank x = true) (cs : List Char) :
    Text.trimChars (w ++ cs) = Text.trimChars cs := by
  rw [Text.trimChars, Text.trimChars, Text.trimStartChars, List.dropWhile_append_of_pos hw, Text.trimStartChars]

theorem extract?_stretched (hw : ∀ x ∈ w, Text.isBlank x = true) (pattern : Regex) (m : Match) :
    Rule.extract? ⟨pattern, .all⟩ (w ++ text) (stretchedMatch w m) =
      (Rule.extract? ⟨pattern, .all⟩ text m).map (Extract.stretched (utf8Len w)) := by
  by_cases hstart : m.start = 0
  · simp only [stretchedMatch, if_pos hstart, Rule.extract?, trimChars_append hw]
    split
    · rfl
    · simp only [Option.map_some, Extract.stretched, if_pos hstart]
  · rw [stretchedMatch, if_neg hstart, extract?_later]
    simp only [Rule.extract?]
    split
    · rfl
    · simp only [Option.map_some, Extract.stretched, if_neg hstart]

/-! ## What is found -/

/-- Where all matches are moved further on, so are the extracts. -/
theorem filterMap_extract?_later {rule : Rule}
    (h : rule.pattern.findAll (w ++ text) = (rule.pattern.findAll text).map (·.later (utf8Len w))) :
    (rule.pattern.findAll (w ++ text)).filterMap (rule.extract? (w ++ text)) =
      ((rule.pattern.findAll text).filterMap (rule.extract? text)).map (Extract.later (utf8Len w)) := by
  rw [h, List.filterMap_map, List.map_filterMap]
  exact List.filterMap_congr fun m _ => extract?_later rule w text m

theorem Unpinned.findAll_append {r : Regex} (hr : Unpinned visible r) (hw : ∀ x ∈ w, Text.isBlank x = true)
    (text : List Char) : r.findAll (w ++ text) = (r.findAll text).map (·.later (utf8Len w)) :=
  Regex.findAll_append hr.asks (fun x hx => Text.isWord_of_isBlank (hw x hx))
    (fun x hx _ hrest => hr.begins.matchAt?_blank hrest (hw x hx)) text

/-- Extracts of rules change alike when those of each rule do. -/
theorem found_append {rules : List Rule} {g : Extract → Extract}
    (h : ∀ rule ∈ rules, (rule.pattern.findAll (w ++ text)).filterMap (rule.extract? (w ++ text)) =
      ((rule.pattern.findAll text).filterMap (rule.extract? text)).map g) :
    found rules (w ++ text) = (found rules text).map g := by
  unfold found
  rw [List.map_flatMap]
  exact List.flatMap_congr h

/-- The extracts end `n` bytes further on, and start in the same order. -/
structure Moves (n : Nat) (g : Extract → Extract) : Prop where
  content : ∀ x, (g x).content = x.content
  stop : ∀ x, (g x).stop = x.stop + n
  start : ∀ x y, (g x).start < (g y).start ↔ x.start < y.start

theorem moves_later (n : Nat) : Moves n (Extract.later n) where
  content _ := rfl
  stop _ := rfl
  start _ _ := Nat.add_lt_add_iff_right

theorem moves_stretched (n : Nat) : Moves n (Extract.stretched n) where
  content x := by
    unfold Extract.stretched
    split <;> rfl
  stop x := by
    unfold Extract.stretched
    split <;> rfl
  start x y := by
    unfold Extract.stretched
    split <;> split <;> simp only [Extract.later] <;> omega

theorem unpinned_found_append {rules : List Rule} (hrules : ∀ rule ∈ rules, Unpinned visible rule.pattern)
    (hw : ∀ x ∈ w, Text.isBlank x = true) (text : List Char) :
    ∃ g, Moves (utf8Len w) g ∧ found rules (w ++ text) = (found rules text).map g :=
  ⟨_, moves_later _, found_append fun rule hrule =>
    filterMap_extract?_later ((hrules rule hrule).findAll_append hw text)⟩

theorem Swift.found_append (hw : ∀ x ∈ w, Text.isBlank x = true) (text : List Char) :
    ∃ g, Moves (utf8Len w) g ∧ found rules (w ++ text) = (found rules text).map g := by
  have hunpinned {r : Regex} (hr : Unpinned unlikeImport r) :=
    Unpinned.findAll_append ⟨hr.asks, visible_of_unlikeImport hr.begins⟩ hw text
  by_cases hled : LedByImport text
  · -- Nothing but the import starts at the very beginning, so all other extracts are moved as a whole.
    refine ⟨_, moves_stretched _, Outline.found_append fun rule hrule => ?_⟩
    rcases unpinned_of_mem_rules rule hrule with rfl | hr
    · rw [findAll_importLine_append_of_led hw hled, List.filterMap_map, List.map_filterMap]
      exact List.filterMap_congr fun m _ => extract?_stretched hw importLine m
    · rw [filterMap_extract?_later (hunpinned hr)]
      refine List.map_congr_left fun x hx => (if_neg ?_).symm
      obtain ⟨m, hm, hx⟩ := List.mem_filterMap.1 hx
      have hspans : Yields rules text rule.keep m x := ⟨rule, hrule, rfl, hm, hx⟩
      rw [hspans.spans.start]
      exact start_ne_zero_of_led hled hr.begins hm
  · refine ⟨_, moves_later _, Outline.found_append fun rule hrule => filterMap_extract?_later ?_⟩
    rcases unpinned_of_mem_rules rule hrule with rfl | hr
    · exact findAll_importLine_append hw hled
    · exact hunpinned hr

/-! ## The outline -/

section

variable {n : Nat} {g : Extract → Extract}

theorem Moves.le (h : Moves n g) (a b : Extract) : (g a).le (g b) = a.le b := by
  have hab := h.start a b
  have hba := h.start b a
  rw [Bool.eq_iff_iff, Extract.le_iff, Extract.le_iff, h.stop, h.stop]
  omega

/-- What ends within the covered part still does. -/
theorem Moves.outermost (h : Moves n g) {covered covered' : Nat} {es : List Extract}
    (hcovered : ∀ e ∈ es, e.stop ≤ covered ↔ e.stop + n ≤ covered') :
    outermost covered' (es.map g) = (outermost covered es).map g := by
  induction es generalizing covered covered' with
  | nil => rfl
  | cons e es ih =>
    rw [List.forall_mem_cons] at hcovered
    rw [List.map_cons, Outline.outermost, Outline.outermost, h.stop]
    by_cases hle : e.stop ≤ covered
    · rw [if_pos hle, if_pos (hcovered.1.1 hle)]
      exact ih hcovered.2
    · rw [if_neg hle, if_neg (hcovered.1.not.1 hle), List.map_cons]
      -- Either the covered part stays as it is on both sides, or it ends with `e` on both.
      refine congrArg (g e :: ·) (ih fun x hx => ?_)
      have hx := hcovered.2 x hx
      omega

theorem Moves.outlineOf (h : Moves n g) {es : List Extract} (hstop : ∀ e ∈ es, 0 < e.stop) :
    outlineOf (es.map g) = (outlineOf es).map g := by
  have hsort : (es.map g).mergeSort Extract.le = (es.mergeSort Extract.le).map g :=
    (List.map_mergeSort fun a _ b _ => (h.le a b).symm).symm
  unfold Outline.outlineOf
  rw [hsort]
  refine h.outermost fun e he => ?_
  have := hstop e (List.mem_mergeSort.1 he)
  omega

end

/-- The outline shows the same where the extracts only move. -/
theorem searchOutline_of_moves {language : Language} {rules : List Rule} {content content' : String} {n : Nat}
    {g : Extract → Extract} (hg : Moves n g)
    (hfound : found rules content'.toList = (found rules content.toList).map g) :
    searchOutline language rules content' = searchOutline language rules content := by
  have hshown : extracts rules content'.toList = (extracts rules content.toList).map g := by
    rw [extracts_eq, extracts_eq, hfound]
    exact hg.outlineOf (stop_pos_of_mem_found rules content.toList)
  have hcontent : (extracts rules content'.toList).map (·.content ++ separator) =
      (extracts rules content.toList).map (·.content ++ separator) := by
    rw [hshown, List.map_map]
    exact List.map_congr_left fun x _ => congrArg (· ++ separator) (hg.content x)
  unfold searchOutline
  rw [hcontent]

/-- Blanks in front of a source, line breaks among them, change nothing of its outline by rules. -/
theorem blanks_in_front_do_not_show (language : Language) (hlanguage : language ∈ [.html, .java, .swift])
    (blanks content : String) (hblanks : ∀ x ∈ blanks.toList, Text.isBlank x = true) :
    ∃ outline, ofRules language content = .ok outline ∧ ofRules language (blanks ++ content) = .ok outline := by
  have hsame {rules : List Rule} (hrules : language.rules? = some rules)
      (hfound : ∃ g, Moves (utf8Len blanks.toList) g ∧
        found rules (blanks.toList ++ content.toList) = (found rules content.toList).map g) :
      ∃ outline, ofRules language content = .ok outline ∧ ofRules language (blanks ++ content) = .ok outline := by
    obtain ⟨g, hg, hfound⟩ := hfound
    rw [← String.toList_append] at hfound
    refine ⟨searchOutline language rules content, ?_, ?_⟩
    · rw [ofRules, hrules]
    · rw [ofRules, hrules, ← searchOutline_of_moves hg hfound]
  simp only [List.mem_cons, List.not_mem_nil, or_false] at hlanguage
  rcases hlanguage with rfl | rfl | rfl
  · exact hsame rfl (unpinned_found_append Html.unpinned_of_mem_rules hblanks content.toList)
  · exact hsame rfl (unpinned_found_append Java.unpinned_of_mem_rules hblanks content.toList)
  · exact hsame rfl (Swift.found_append hblanks content.toList)

/-- A source in Swift that an import leads. -/
def ledSource : String := "import A\nfunc f() \x7b \x7d"

theorem outline_of_ledSource :
    ofRules .swift ledSource =
      .ok "import A\n// -----\nfunc f() \x7b ... \x7d // Body removed\n// -----\n" := by
  cbv

/-- A line break and an ideographic space in front of a leading import. -/
theorem blanks_in_front_of_import_do_not_show :
    Language.swift ∈ [.html, .java, .swift] ∧ (∀ x ∈ "\n\u3000".toList, Text.isBlank x = true) ∧
      ofRules .swift ("\n\u3000" ++ ledSource) =
        .ok "import A\n// -----\nfunc f() \x7b ... \x7d // Body removed\n// -----\n" := by
  have hlanguage : Language.swift ∈ [.html, .java, .swift] := by decide
  have hblanks : ∀ x ∈ "\n\u3000".toList, Text.isBlank x = true := by simp [Text.isBlank]
  obtain ⟨outline, h, h'⟩ := blanks_in_front_do_not_show .swift hlanguage "\n\u3000" ledSource hblanks
  obtain rfl := Except.ok.inj (h.symm.trans outline_of_ledSource)
  exact ⟨hlanguage, hblanks, h'⟩

end PromptPack.Outline
