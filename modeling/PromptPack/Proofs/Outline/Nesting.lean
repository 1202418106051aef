import Mathlib
import PromptPack.Outline.Rules
import PromptPack.Proofs.Outline.Outermost
import PromptPack.Proofs.Regex.Language
/-!
# Matches inside bodies and inside other matches

A match is dropped by where its extract ends, not by where the match starts. So what starts in the
body of a signature stays hidden as long as it ends with something that starts before the body
(`body_hidden_iff`), and a match inside another one leaves no trace as long as its extract is not
outermost (`nested_match_leaves_no_trace_iff`). Both can fail: an import clause that is begun in a
body runs on to the next semicolon, and a signature in a comment is given a body behind the comment.
-/

namespace PromptPack.Outline

/-- A rule that keeps `keep` of its matches finds the match `m` and makes the extract `x` of it. -/
def Yields (rules : List Rule) (source : List Char) (keep : Keep) (m : Regex.Match) (x : Extract) : Prop :=
  ∃ rule ∈ rules, rule.keep = keep ∧ m ∈ rule.pattern.findAll source ∧ rule.extract? source m = some x

variable {rules : List Rule} {source : List Char} {keep : Keep} {m : Regex.Match} {x : Extract}

theorem mem_found_iff : x ∈ found rules source ↔ ∃ keep m, Yields rules source keep m x := by
  simp only [found, List.mem_flatMap, List.mem_filterMap, Yields]
  constructor
  · rintro ⟨rule, hrule, m, hm, hx⟩
    exact ⟨rule.keep, m, rule, hrule, rfl, hm, hx⟩
  · rintro ⟨_, m, rule, hrule, rfl, hm, hx⟩
    exact ⟨rule, hrule, m, hm, hx⟩

/-- An extract starts with its match, and ends with it unless a body is covered too. -/
structure Spans (keep : Keep) (m : Regex.Match) (x : Extract) : Prop where
  start : x.start = m.start
  nonempty : m.start < m.stop
  stop : m.stop ≤ x.stop
  all : keep = .all → x.stop = m.stop

theorem Yields.spans (h : Yields rules source keep m x) : Spans keep m x := by
  obtain ⟨rule, -, rfl, hm, hx⟩ := h
  have hne := Regex.start_lt_stop_of_mem_findAll hm
  unfold Rule.extract? at hx
  dsimp only at hx
  split at hx
  · rename_i hkeep
    split at hx
    · cases hx
    · cases hx
      exact ⟨rfl, hne, Nat.le_refl _, fun _ => rfl⟩
  · rename_i hkeep
    split at hx
    · cases hx
    · cases hx
      exact ⟨rfl, hne, Nat.le_add_right _ _, fun h => by rw [hkeep] at h; cases h⟩

theorem start_lt_stop_of_mem_found (rules : List Rule) (source : List Char) :
    ∀ y ∈ found rules source, y.start < y.stop := by
  intro y hy
  obtain ⟨_, _, h⟩ := mem_found_iff.1 hy
  rw [h.spans.start]
  exact Nat.lt_of_lt_of_le h.spans.nonempty h.spans.stop

theorem stop_pos_of_mem_found (rules : List Rule) (source : List Char) : ∀ y ∈ found rules source, 0 < y.stop :=
  fun y hy => Nat.zero_lt_of_lt (start_lt_stop_of_mem_found rules source y hy)

/-! ## Matches in a body -/

/-- The extract starts in the range and ends behind all that start before the range. -/
def Escapes (found : List Extract) (start stop : Nat) (x : Extract) : Prop :=
  (start ≤ x.start ∧ x.start < stop) ∧ ∀ y ∈ found, y.start < start → y.stop < x.stop

/-- The first extract that escapes from a range is in the outline. -/
theorem exists_outline_of_escapes {found : List Extract} (hstop : ∀ y ∈ found, 0 < y.stop) {start stop : Nat}
    {x : Extract} (hx : x ∈ found) (h : Escapes found start stop x) :
    ∃ e ∈ outlineOf found, start ≤ e.start ∧ e.start < stop := by
  classical
  have hsome : ((found.mergeSort Extract.le).find? (Escapes found start stop ·)).isSome = true := by
    rw [List.find?_isSome]
    exact ⟨x, List.mem_mergeSort.2 hx, by simpa using h⟩
  obtain ⟨e, he⟩ := Option.isSome_iff_exists.1 hsome
  rw [List.find?_eq_some_iff_append] at he
  obtain ⟨hesc, before, after, heq, hbefore⟩ := he
  have hsorted := sorted_extracts found
  have hmem : ∀ y ∈ before ++ e :: after, y ∈ found := fun y hy => List.mem_mergeSort.1 (heq ▸ hy)
  rw [heq, List.pairwise_append] at hsorted
  simp only [decide_eq_true_eq, Bool.not_eq_true', decide_eq_false_iff_not] at hesc hbefore
  refine ⟨e, mem_outermost_iff.2 ⟨before, after, heq, hstop e (hmem e (by simp)), fun y hy => ?_⟩, hesc.1⟩
  -- What comes up before `e` starts before the range, or does not escape from it either.
  have hle := (Extract.le_iff _ _).1 (hsorted.2.2 y hy e (by simp))
  rcases Nat.lt_or_ge y.start start with hlt | hge
  · exact hesc.2 y (hmem y (by simp [hy])) hlt
  · have hin : start ≤ y.start ∧ y.start < stop := ⟨hge, by have := hesc.1; omega⟩
    have hnot := hbefore y hy
    simp only [Escapes, hin, true_and, and_self, Classical.not_forall, Nat.not_lt] at hnot
    obtain ⟨z, hz, hzstart, hzstop⟩ := hnot
    exact Nat.lt_of_le_of_lt hzstop (hesc.2 z hz hzstart)

/-- Of the extracts that start in a range, none makes it into the outline, exactly when each ends by
the end of one that starts before the range. -/
theorem range_hidden_iff {found : List Extract} (hstop : ∀ y ∈ found, 0 < y.stop) (start stop : Nat) :
    (∀ x ∈ outlineOf found, ¬ (start ≤ x.start ∧ x.start < stop)) ↔
      ∀ x ∈ found, start ≤ x.start → x.start < stop → ∃ y ∈ found, y.start < start ∧ x.stop ≤ y.stop := by
  constructor
  · intro h x hx hstart hlt
    by_cases hcovered : ∃ y ∈ found, y.start < start ∧ x.stop ≤ y.stop
    · exact hcovered
    · simp only [not_exists, not_and, Nat.not_le] at hcovered
      obtain ⟨e, he, hin⟩ := exists_outline_of_escapes hstop hx ⟨⟨hstart, hlt⟩, hcovered⟩
      exact absurd hin (h e he)
  · intro h x hx hin
    have hout := (mem_outline_iff hstop).1 hx
    obtain ⟨y, hy, hlt, hle⟩ := h x (List.mem_of_find?_eq_some hout.first) hin.1 hin.2
    have := Extract.sameSpan_iff.1 (hout.alone y hy ⟨by omega, hle⟩)
    omega

/-- The body of a signature is hidden, in that no other extract of the outline comes from a match that
starts in it, exactly when every match in the body makes an extract that ends by the end of one that
starts before the body. -/
theorem body_hidden_iff {rules : List Rule} {source : List Char} {m : Regex.Match} {s : Extract}
    (hs : Yields rules source .signature m s) :
    (∀ x ∈ extracts rules source, x ≠ s → ¬ (m.stop ≤ x.start ∧ x.start < s.stop)) ↔
      ∀ x ∈ found rules source, m.stop ≤ x.start → x.start < s.stop →
        ∃ y ∈ found rules source, y.start < m.stop ∧ x.stop ≤ y.stop := by
  rw [← range_hidden_iff (stop_pos_of_mem_found rules source), extracts_eq]
  refine ⟨fun h x hx hin => ?_, fun h x hx _ => h x hx⟩
  refine h x hx ?_ hin
  rintro rfl
  have := hs.spans.start
  have := hs.spans.nonempty
  omega

/-- A method with the word `import` in a comment of its body. -/
def importInBody : List Char := "void f() \x7b // import\n\x7d\nint x;".toList

theorem yields_method_around_import : Yields Java.rules importInBody .signature
    ⟨0, 10, "void f() \x7b".toList, [("name", ['f']), ("ret", "void".toList)]⟩
    ⟨"void f() \x7b ... \x7d // Body removed", 0, 22⟩ := by
  have hfind : Java.method.findAll importInBody =
      [⟨0, 10, "void f() \x7b".toList, [("name", ['f']), ("ret", "void".toList)]⟩] := by cbv
  refine ⟨⟨Java.method, .signature⟩, by simp [Java.rules], rfl, ?_, by cbv⟩
  rw [hfind]
  exact List.mem_singleton_self _

theorem extracts_around_import : extracts Java.rules importInBody =
    [⟨"void f() \x7b ... \x7d // Body removed", 0, 22⟩, ⟨"import\n\x7d\nint x;", 14, 29⟩] := by cbv

theorem body_hidden_iff_around_import :
    Yields Java.rules importInBody .signature
        ⟨0, 10, "void f() \x7b".toList, [("name", ['f']), ("ret", "void".toList)]⟩
        ⟨"void f() \x7b ... \x7d // Body removed", 0, 22⟩ ∧
      ((∀ x ∈ extracts Java.rules importInBody,
          x ≠ ⟨"void f() \x7b ... \x7d // Body removed", 0, 22⟩ → ¬ (10 ≤ x.start ∧ x.start < 22)) ↔
        ∀ x ∈ found Java.rules importInBody, 10 ≤ x.start → x.start < 22 →
          ∃ y ∈ found Java.rules importInBody, y.start < 10 ∧ x.stop ≤ y.stop) :=
  ⟨yields_method_around_import, body_hidden_iff yields_method_around_import⟩

/-- An import clause begun in a body runs on to the next semicolon, and shows the end of the body. -/
theorem import_in_body_is_shown : ∃ m s, Yields Java.rules importInBody .signature m s ∧
    s ∈ extracts Java.rules importInBody ∧
    ∃ x ∈ extracts Java.rules importInBody, x ≠ s ∧ m.stop ≤ x.start ∧ x.start < s.stop := by
  refine ⟨_, _, yields_method_around_import, ?_⟩
  rw [extracts_around_import]
  exact ⟨by simp, ⟨"import\n\x7d\nint x;", 14, 29⟩, by simp, by simp, by decide, by decide⟩

/-! ## Matches in a match -/

/-- The extract is not in the outline, and the outline is the same without it. -/
def LeavesNoTrace (found : List Extract) (x : Extract) : Prop :=
  x ∉ outlineOf found ∧ ∀ before after, found = before ++ x :: after → outlineOf (before ++ after) = outlineOf found

theorem leavesNoTrace_iff {found : List Extract} (hstop : ∀ y ∈ found, 0 < y.stop) {x : Extract} :
    LeavesNoTrace found x ↔ ¬ Outermost found x := by
  rw [← mem_outline_iff hstop]
  refine ⟨fun h => h.1, fun h => ⟨h, ?_⟩⟩
  rintro before after rfl
  exact outline_without hstop h

/-- A match that lies in an extract of the outline starting before it leaves no trace exactly when its
extract is not outermost. Only a signature can be outermost there, when it is given a body that ends
behind the extract around the match. -/
theorem nested_match_leaves_no_trace_iff {rules : List Rule} {source : List Char} {keep : Keep} {m : Regex.Match}
    {outer inner : Extract} (houter : outer ∈ extracts rules source) (hinner : Yields rules source keep m inner)
    (hstart : outer.start < inner.start) (hinside : m.stop ≤ outer.stop) :
    (LeavesNoTrace (found rules source) inner ↔ ¬ Outermost (found rules source) inner) ∧
      (Outermost (found rules source) inner → keep = .signature ∧ outer.stop < inner.stop) := by
  have hstop := stop_pos_of_mem_found rules source
  refine ⟨leavesNoTrace_iff hstop, fun hout => ?_⟩
  have hlt : outer.stop < inner.stop := by
    rcases Nat.lt_or_ge outer.stop inner.stop with hlt | hge
    · exact hlt
    · have hfound := List.mem_of_find?_eq_some ((mem_outline_iff hstop).1 houter).first
      have := Extract.sameSpan_iff.1 (hout.alone outer hfound ⟨Nat.le_of_lt hstart, hge⟩)
      omega
  refine ⟨?_, hlt⟩
  cases keep with
  | signature => rfl
  | all =>
    have := hinner.spans.all rfl
    omega

/-- A method behind a comment that holds the head of another one. -/
def methodInComment : List Char := "/* f() \x7b */ int g() \x7b \x7d".toList

theorem yields_method_in_comment : Yields Java.rules methodInComment .signature
    ⟨3, 8, "f() \x7b".toList, [("name", ['f'])]⟩ ⟨"f() \x7b ... \x7d // Body removed", 3, 23⟩ := by
  have hfind : Java.method.findAll methodInComment =
      [⟨3, 8, "f() \x7b".toList, [("name", ['f'])]⟩,
        ⟨12, 21, "int g() \x7b".toList, [("name", ['g']), ("ret", "int".toList)]⟩] := by cbv
  refine ⟨⟨Java.method, .signature⟩, by simp [Java.rules], rfl, ?_, by cbv⟩
  rw [hfind]
  exact List.mem_cons_self

theorem extracts_around_comment : extracts Java.rules methodInComment =
    [⟨"/* f() \x7b */", 0, 11⟩, ⟨"f() \x7b ... \x7d // Body removed", 3, 23⟩] := by cbv

theorem nested_match_leaves_no_trace_iff_in_comment :
    (⟨"/* f() \x7b */", 0, 11⟩ : Extract) ∈ extracts Java.rules methodInComment ∧
      Yields Java.rules methodInComment .signature ⟨3, 8, "f() \x7b".toList, [("name", ['f'])]⟩
        ⟨"f() \x7b ... \x7d // Body removed", 3, 23⟩ ∧
      (LeavesNoTrace (found Java.rules methodInComment) ⟨"f() \x7b ... \x7d // Body removed", 3, 23⟩ ↔
        ¬ Outermost (found Java.rules methodInComment) ⟨"f() \x7b ... \x7d // Body removed", 3, 23⟩) := by
  have houter : (⟨"/* f() \x7b */", 0, 11⟩ : Extract) ∈ extracts Java.rules methodInComment := by
    rw [extracts_around_comment]
    exact List.mem_cons_self
  exact ⟨houter, yields_method_in_comment,
    (nested_match_leaves_no_trace_iff houter yields_method_in_comment (by decide) (by decide)).1⟩

/-- The head of a method in a comment is shown, and what is taken for its body hides the next method. -/
theorem method_in_comment_is_shown : ∃ outer m inner,
    outer ∈ extracts Java.rules methodInComment ∧
      Yields Java.rules methodInComment .signature m inner ∧
      outer.start < inner.start ∧ m.stop ≤ outer.stop ∧
      inner ∈ extracts Java.rules methodInComment ∧
      ∀ x ∈ extracts Java.rules methodInComment, x = outer ∨ x = inner := by
  refine ⟨⟨"/* f() \x7b */", 0, 11⟩, _, _, ?_, yields_method_in_comment, by decide, by decide, ?_⟩
  · rw [extracts_around_comment]
    exact List.mem_cons_self
  · rw [extracts_around_comment]
    exact ⟨by simp, by simp⟩

end PromptPack.Outline
