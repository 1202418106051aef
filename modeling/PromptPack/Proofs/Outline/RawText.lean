import Mathlib
import PromptPack.Proofs.Outline.Nesting
import PromptPack.Proofs.Outline.Slices
/-!
# The contents of scripts and styles

The opening tag of a script or a style covers nothing but itself, and the search goes on behind it: comments, titles
and tags are found in a script as anywhere else on the page. What is found there stays out of the outline exactly when
it ends within a comment or a title that was begun before (`contents_hidden_iff`). So a comment in a script is shown.
-/

namespace PromptPack.Outline.Html

open Regex
open String (utf8Len)

/-! ## Brackets -/

/-- The text ends with a closing bracket and has no other one. -/
def Bracketed (cs : List Char) : Prop := ∃ front, cs = front ++ ['>'] ∧ '>' ∉ front

/-- A bracketed match that begins before another one ends does not end behind it. -/
theorem stop_le_of_start_lt_stop {source front back front' back' : List Char} {t m : Regex.Match}
    (ht : t.Around source front back) (hm : m.Around source front' back') (hbt : Bracketed t.text)
    (hbm : Bracketed m.text) (hlt : m.start < t.stop) : m.stop ≤ t.stop := by
  by_contra hbehind
  obtain ⟨inner, htext, -⟩ := hbt
  obtain ⟨inner', htext', hfree⟩ := hbm
  rw [ht.stop, hm.start] at hlt
  rw [ht.stop, hm.stop, String.utf8Len_append front'] at hbehind
  -- The other match ends within this one, and so does its bracket.
  have hsource : front' ++ (m.text ++ back') = (front ++ t.text) ++ back := by
    rw [← hm.eq, ht.eq, List.append_assoc]
  obtain ⟨shared, hshared, hrest⟩ := exists_append_of_utf8Len_le hsource (Nat.le_of_lt hlt)
  rw [hshared, String.utf8Len_append] at hlt hbehind
  obtain ⟨more, hmore, -⟩ := exists_append_of_utf8Len_le hrest.symm (by omega)
  have hbracket : '>' ∈ shared := by
    obtain rfl | ⟨init, c, rfl⟩ := List.eq_nil_or_concat' shared
    · simp at hlt
    · rw [htext, ← List.append_assoc, ← List.append_assoc] at hshared
      obtain rfl := List.singleton_inj.1 (List.append_inj_right' hshared rfl)
      simp
  obtain rfl | ⟨init, c, rfl⟩ := List.eq_nil_or_concat' more
  · rw [hmore, List.append_nil] at hbehind
    omega
  · rw [htext', ← List.append_assoc] at hmore
    rw [List.append_inj_left' hmore rfl] at hfree
    exact hfree (List.mem_append_left _ hbracket)

/-- No text of the expression has the character. -/
def Avoids (r : Regex) (x : Char) : Prop := ∀ cs, r.Spells cs → x ∉ cs

section

variable {r s : Regex} {x : Char} {cs : List Char}

theorem avoids_char {test : Char → Bool} (h : test x = false) : Avoids (char test) x := by
  rintro _ ⟨c, hc, rfl⟩ hx
  obtain rfl := List.mem_singleton.1 hx
  simp [h] at hc

theorem avoids_empty : Avoids empty x := by
  rintro _ rfl
  simp

theorem Avoids.seq (hr : Avoids r x) (hs : Avoids s x) : Avoids (r ++ s) x := by
  rintro _ ⟨front, back, hfront, hback, rfl⟩ hx
  rcases List.mem_append.1 hx with hx | hx
  · exact hr front hfront hx
  · exact hs back hback hx

theorem Avoids.maybe (hr : Avoids r x) : Avoids (maybe r) x := by
  rintro cs (hcs | hcs)
  · exact hr cs hcs
  · exact avoids_empty cs hcs

theorem Avoids.star {greed : Greed} (hr : Avoids r x) : Avoids (star greed r) x := by
  rintro _ ⟨pieces, hpieces, rfl⟩ hx
  obtain ⟨piece, hpiece, hx⟩ := List.mem_flatten.1 hx
  exact hr piece (hpieces piece hpiece) hx

theorem avoids_anyCase {name : String} (h : '>' ∉ name.toList) : Avoids (anyCase name) '>' := by
  unfold anyCase
  generalize name.toList = as at h
  induction as with
  | nil => exact avoids_empty
  | cons a as ih =>
    simp only [List.mem_cons, not_or] at h
    obtain ⟨hne, has⟩ := h
    refine (avoids_char ?_).seq (ih has)
    exact Bool.eq_false_iff.2 fun hsame => hne ((sameLetter_iff_of_right (by decide)).1 hsame).symm

theorem Avoids.bracketed (hr : Avoids r '>') (h : (r ++ (">" : Regex)).Spells cs) : Bracketed cs := by
  obtain ⟨front, _, hfront, ⟨c, hc, rfl⟩, rfl⟩ := h
  obtain rfl := beq_iff_eq.1 hc
  exact ⟨front, rfl, hr front hfront⟩

theorem bracketed_anyCase {name : String} (hname : '>' ∉ name.toList)
    (h : (anyCase (name ++ ">")).Spells cs) : Bracketed cs := by
  obtain ⟨front, _, hfront, ⟨_, _, ⟨c, hc, rfl⟩, rfl, rfl⟩, rfl⟩ := spells_anyCase_append h
  obtain rfl := (sameLetter_iff_of_left (by decide)).1 hc
  exact ⟨front, rfl, avoids_anyCase hname front hfront⟩

end

/-! ## The rules -/

/-- The rules whose matches hold other brackets than their last: comments, and titles with their contents. -/
def enclosing : List Rule := [
  ⟨"<!--" ++ anything ++ "-->", .all⟩,
  ⟨openTag "title" ++ anything ++ anyCase "</title>", .all⟩]

theorem avoids_attributes : Avoids attributes '>' :=
  ((avoids_char (by decide)).seq (Avoids.star (avoids_char (by decide)))).maybe

theorem bracketed_openTag {name : String} {cs : List Char} (hname : '>' ∉ name.toList)
    (h : (openTag name).Spells cs) : Bracketed cs := by
  refine Avoids.bracketed ((avoids_anyCase ?_).seq avoids_attributes) h
  simpa using hname

theorem bracketed_tags {name : String} {cs : List Char} (hname : '>' ∉ name.toList)
    (h : (tags name).Spells cs) : Bracketed cs := by
  rcases h with h | h
  · exact bracketed_openTag hname h
  · refine bracketed_anyCase ?_ h
    simpa using hname

theorem bracketed_doctype {cs : List Char}
    (h : (anyCase "<!DOCTYPE" ++ star .greedy (noneOf ['>']) ++ ">" : Regex).Spells cs) : Bracketed cs :=
  Avoids.bracketed ((avoids_anyCase (by decide)).seq (Avoids.star (avoids_char (by decide)))) h

/-- All that is found but comments and titles is a single tag. -/
theorem bracketed_of_mem_rules : ∀ rule ∈ rules, rule ∈ enclosing ∨ ∀ cs, rule.pattern.Spells cs → Bracketed cs := by
  simp only [rules, List.forall_mem_cons]
  exact ⟨.inr fun _ => bracketed_doctype, .inr fun _ => bracketed_tags (by decide),
    .inr fun _ => bracketed_tags (by decide), .inr fun _ => bracketed_tags (by decide),
    .inl List.mem_cons_self, .inl (List.mem_cons_of_mem _ List.mem_cons_self),
    .inr fun _ => bracketed_openTag (by decide), .inr fun _ => bracketed_openTag (by decide), by simp⟩

theorem keep_of_mem_rules : ∀ rule ∈ rules, rule.keep = .all := by
  simp [rules]

theorem mem_rules_of_mem_enclosing {rule : Rule} (h : rule ∈ enclosing) : rule ∈ rules := by
  simp only [enclosing, rules, List.mem_cons, List.not_mem_nil, or_false] at h ⊢
  rcases h with h | h <;> simp [h]

/-! ## Scripts and styles -/

/-- The elements whose contents are no markup. -/
def rawElements : List String := ["script", "style"]

def closeTag (name : String) : Regex := anyCase ("</" ++ name) ++ blanks ++ ">"

/-- A script or a style: its opening tag, and the next closing tag behind it. -/
structure RawElement (source : List Char) (name : String) (opening closing : Regex.Match) : Prop where
  name_mem : name ∈ rawElements
  opening_mem : opening ∈ (openTag name).findAll source
  next : ((closeTag name).findAll source).find? (opening.stop ≤ ·.start) = some closing

theorem RawElement.bracket_not_mem {source : List Char} {name : String} {opening closing : Regex.Match}
    (h : RawElement source name opening closing) : '>' ∉ name.toList := by
  have hname := h.name_mem
  simp only [rawElements, List.mem_cons, List.not_mem_nil, or_false] at hname
  rcases hname with rfl | rfl <;> decide

/-- Of the matches in the contents of a script or a style, none makes it into the outline, exactly when each ends
within a comment or a title that starts before the contents. -/
theorem contents_hidden_iff {source : List Char} {name : String} {opening closing : Regex.Match}
    (h : RawElement source name opening closing) :
    (∀ x ∈ extracts rules source, ¬ (opening.stop ≤ x.start ∧ x.start < closing.start)) ↔
      ∀ x ∈ found rules source, opening.stop ≤ x.start → x.start < closing.start →
        ∃ y ∈ found enclosing source, y.start < opening.stop ∧ x.stop ≤ y.stop := by
  rw [extracts_eq, range_hidden_iff (stop_pos_of_mem_found rules source)]
  refine forall₄_congr fun x hx hstart _ => ⟨?_, ?_⟩
  · rintro ⟨y, hy, hlt, hle⟩
    obtain ⟨keep, m, rule, hrule, hkeep, hm, hextract⟩ := mem_found_iff.1 hy
    rcases bracketed_of_mem_rules rule hrule with henclosing | hbracketed
    · exact ⟨y, mem_found_iff.2 ⟨keep, m, rule, henclosing, hkeep, hm, hextract⟩, hlt, hle⟩
    · -- A single tag that starts before the contents ends before them too.
      have hy := Yields.spans ⟨rule, hrule, hkeep, hm, hextract⟩
      obtain ⟨hopening, -, _, _, haround⟩ := exists_around_of_mem_findAll h.opening_mem
      obtain ⟨hspells, -, _, _, haround'⟩ := exists_around_of_mem_findAll hm
      have hstop := stop_le_of_start_lt_stop haround haround' (bracketed_openTag h.bracket_not_mem hopening)
        (hbracketed _ hspells) (hy.start ▸ hlt)
      have hall := hy.all (hkeep ▸ keep_of_mem_rules rule hrule)
      have hne := start_lt_stop_of_mem_found rules source x hx
      omega
  · rintro ⟨y, hy, hlt, hle⟩
    obtain ⟨keep, m, rule, hrule, hrest⟩ := mem_found_iff.1 hy
    exact ⟨y, mem_found_iff.2 ⟨keep, m, rule, mem_rules_of_mem_enclosing hrule, hrest⟩, hlt, hle⟩

/-- A comment in a script. -/
def commentInScript : List Char := "<script><!-- run() --></script>".toList

theorem rawElement_around_comment : RawElement commentInScript "script" ⟨0, 8, "<script>".toList, []⟩
    ⟨22, 31, "</script>".toList, []⟩ := by
  have hopening : (openTag "script").findAll commentInScript = [⟨0, 8, "<script>".toList, []⟩] := by cbv
  have hclosing : (closeTag "script").findAll commentInScript = [⟨22, 31, "</script>".toList, []⟩] := by cbv
  refine ⟨by simp [rawElements], ?_, ?_⟩
  · rw [hopening]
    exact List.mem_singleton_self _
  · rw [hclosing]
    rfl

theorem extracts_of_comment_in_script :
    extracts rules commentInScript = [⟨"<script>", 0, 8⟩, ⟨"<!-- run() -->", 8, 22⟩] := by cbv

theorem contents_hidden_iff_around_comment :
    RawElement commentInScript "script" ⟨0, 8, "<script>".toList, []⟩ ⟨22, 31, "</script>".toList, []⟩ ∧
      ((∀ x ∈ extracts rules commentInScript, ¬ (8 ≤ x.start ∧ x.start < 22)) ↔
        ∀ x ∈ found rules commentInScript, 8 ≤ x.start → x.start < 22 →
          ∃ y ∈ found enclosing commentInScript, y.start < 8 ∧ x.stop ≤ y.stop) :=
  ⟨rawElement_around_comment, contents_hidden_iff rawElement_around_comment⟩

/-- A comment in a script is shown. -/
theorem comment_in_script_is_shown : ∃ name opening closing, RawElement commentInScript name opening closing ∧
    ∃ x ∈ extracts rules commentInScript, opening.stop ≤ x.start ∧ x.start < closing.start := by
  refine ⟨_, _, _, rawElement_around_comment, ⟨"<!-- run() -->", 8, 22⟩, ?_, by decide, by decide⟩
  rw [extracts_of_comment_in_script]
  simp

end PromptPack.Outline.Html
