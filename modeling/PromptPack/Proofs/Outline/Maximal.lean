import Mathlib
import PromptPack.Outline.Rules
import PromptPack.Proofs.Outline.Nesting
import PromptPack.Proofs.Regex.Language
/-!
# Outlines made of maximal matches

The outline of a language with search rules is made of the matches whose spans no other match contains, the first
of those with the same span. The search for them goes by the ends of the matches alone. No match gets lost for being
blank: every expression of the rules passes over something visible (`shows_of_mem_rules`).
-/

namespace PromptPack.Outline

open Text

/-! ## What the rules show -/

section

open Regex

theorem shows_char {d : Char} (h : isBlank d = false) : (char (· == d)).Shows := by
  intro c hc
  obtain rfl := beq_iff_eq.1 hc
  exact h

theorem shows_literal {s : String} (h : ∃ c ∈ s.toList, isBlank c = false) : (literal s).Shows := by
  unfold literal
  generalize s.toList = cs at h
  induction cs with
  | nil => simp at h
  | cons d cs ih =>
    obtain ⟨c, hc, hvisible⟩ := h
    cases cs with
    | nil =>
      obtain rfl := List.mem_singleton.1 hc
      exact shows_char hvisible
    | cons e cs =>
      rcases List.mem_cons.1 hc with rfl | hc
      · exact .inl (shows_char hvisible)
      · exact .inr (ih ⟨c, hc, hvisible⟩)

theorem shows_anyCase_bracket {s : String} (h : s.toList.head? = some '<') : (anyCase s).Shows := by
  obtain ⟨cs, hcs⟩ := List.head?_eq_some_iff.1 h
  rw [anyCase, hcs]
  refine .inl fun c hc => ?_
  rw [(sameLetter_iff_of_left (by decide)).1 hc]
  decide

theorem shows_bracket : (literal ">").Shows := shows_literal ⟨'>', by simp, by decide⟩

theorem shows_tags (name : String) : (Html.tags name).Shows := by
  exact ⟨.inr shows_bracket, shows_anyCase_bracket (by simp)⟩

theorem html_rules_show : ∀ rule ∈ Html.rules, rule.pattern.Shows := by
  simp only [Html.rules, List.forall_mem_cons]
  exact ⟨.inr shows_bracket, shows_tags _, shows_tags _, shows_tags _, .inr (shows_literal ⟨'>', by simp, by decide⟩),
    .inl (.inl (.inr shows_bracket)), .inr shows_bracket, .inr shows_bracket, by simp⟩

theorem shows_opening : Java.opening.Shows := .inr (shows_char (by decide))

theorem shows_lineComment : Java.lineComment.Shows := .inl (.inl (shows_literal ⟨'/', by simp, by decide⟩))

theorem shows_blockComment : Java.blockComment.Shows := .inr (shows_literal ⟨'/', by simp, by decide⟩)

theorem shows_clause (keyword : String) : (Java.clause keyword).Shows := .inr (shows_literal ⟨';', by simp, by decide⟩)

theorem java_rules_show : ∀ rule ∈ Java.rules, rule.pattern.Shows := by
  simp only [Java.rules, List.forall_mem_cons]
  exact ⟨shows_lineComment, shows_blockComment, shows_clause _, shows_clause _, .inr shows_opening, .inr shows_opening,
    .inr shows_opening, .inr shows_opening, by simp⟩

theorem shows_head (keyword : String) : (Swift.head keyword).Shows := .inr (shows_char (by decide))

theorem swift_rules_show : ∀ rule ∈ Swift.rules, rule.pattern.Shows := by
  simp only [Swift.rules, List.forall_mem_cons]
  exact ⟨shows_lineComment, shows_blockComment, .inl (.inl (.inr (shows_literal ⟨'i', by simp, by decide⟩))),
    .inr (shows_head _), .inr (shows_head _), .inr (shows_head _), .inr (shows_head _), .inr (shows_head _),
    .inr (shows_char (by decide)), by simp⟩

/-- Every expression of the rules passes over a character that is not blank. -/
theorem shows_of_mem_rules {language : Language} {rules : List Rule} (h : language.rules? = some rules) :
    ∀ rule ∈ rules, rule.pattern.Shows := by
  cases language <;> simp only [Language.rules?, Option.some.injEq, reduceCtorEq] at h <;> subst h
  case html => exact html_rules_show
  case java => exact java_rules_show
  case swift => exact swift_rules_show

end

/-! ## Findings -/

/-- A match of a rule. -/
structure Finding where
  rule : Rule
  hit : Regex.Match

namespace Finding

/-- A signature that only looks like one. -/
def isStatement (f : Finding) : Bool := f.rule.keep == .signature && isControl f.hit

/-- What is printed of the match. -/
def content (f : Finding) : String :=
  match f.rule.keep with
  | .all => String.ofList (trimChars f.hit.text)
  | .signature => signatureLine (trimChars f.hit.text)

/-- What the match stands for: a signature stands for its body too. -/
def span (source : List Char) (f : Finding) : Region :=
  match f.rule.keep with
  | .all => ⟨f.hit.start, f.hit.stop⟩
  | .signature => ⟨f.hit.start, f.hit.stop + bodyLength (fromOffset f.hit.stop source)⟩

def extract (source : List Char) (f : Finding) : Extract := ⟨f.content, (f.span source).start, (f.span source).stop⟩

end Finding

/-- All matches of all rules but those that only look like signatures: in the order of the rules, and of each rule
in the order of the source. -/
def findings (rules : List Rule) (source : List Char) : List Finding :=
  (rules.flatMap fun rule => (rule.pattern.findAll source).map (Finding.mk rule)).filter (!·.isStatement)

/-- One region lies within the other. -/
def Region.Within (r s : Region) : Prop := s.start ≤ r.start ∧ r.stop ≤ s.stop

/-- The finding `x` stands at the place `i`, no other one contains its span, and of those with the same span it
comes first. -/
structure IsMaximal (source : List Char) (fs : List Finding) (i : Nat) (x : Finding) : Prop where
  here : fs[i]? = some x
  alone : ∀ j y, fs[j]? = some y → (x.span source).Within (y.span source) → y.span source = x.span source ∧ i ≤ j

section

variable {rules : List Rule} {source : List Char}

theorem mem_trimChars {c : Char} {cs : List Char} (hc : c ∈ cs) (hvisible : isBlank c = false) : c ∈ trimChars cs := by
  have hdrop {cs : List Char} (hc : c ∈ cs) : c ∈ cs.dropWhile isBlank := by
    rw [← List.takeWhile_append_dropWhile (p := isBlank) (l := cs), List.mem_append] at hc
    refine hc.resolve_left fun h => ?_
    rw [List.mem_takeWhile_imp h] at hvisible
    cases hvisible
  rw [trimChars, trimEndChars, List.mem_reverse]
  exact hdrop (List.mem_reverse.2 (hdrop hc))

/-- A rule makes an extract of each match that is not blank and does not only look like a signature. -/
theorem extract?_eq (rule : Rule) {m : Regex.Match} (hvisible : ∃ c ∈ m.text, isBlank c = false) :
    rule.extract? source m = if (Finding.mk rule m).isStatement then none else some ((Finding.mk rule m).extract source) := by
  obtain ⟨c, hc, hvisible⟩ := hvisible
  have hne : (trimChars m.text).isEmpty = false := by
    rw [List.isEmpty_eq_false_iff]
    exact List.ne_nil_of_mem (mem_trimChars hc hvisible)
  unfold Rule.extract? Finding.isStatement Finding.extract Finding.content Finding.span
  dsimp only
  cases rule.keep <;> simp [hne]

theorem found_eq (hrules : ∀ rule ∈ rules, rule.pattern.Shows) :
    found rules source = (findings rules source).map (Finding.extract source) := by
  unfold found findings
  rw [List.filter_flatMap, List.map_flatMap]
  refine List.flatMap_congr fun rule hrule => ?_
  rw [List.filter_map, List.map_map, ← List.filterMap_eq_map, List.filterMap_filter]
  refine List.filterMap_congr fun m hm => ?_
  rw [extract?_eq rule (Regex.exists_visible_of_mem_findAll (hrules rule hrule) hm)]
  cases hstatement : (Finding.mk rule m).isStatement <;> simp [hstatement]

theorem extract_within_iff {x y : Finding} :
    (x.extract source).Within (y.extract source) ↔ (x.span source).Within (y.span source) := Iff.rfl

theorem sameSpan_extract_iff {x y : Finding} :
    (x.extract source).sameSpan (y.extract source) = true ↔ y.span source = x.span source := by
  rw [Extract.sameSpan_iff]
  constructor
  · rintro ⟨hstart, hstop⟩
    exact (Region.mk.injEq ..).mpr ⟨hstart.symm, hstop.symm⟩
  · intro h
    simp only [Finding.extract, h, and_self]

/-- An extract is outermost exactly when it comes from a maximal match. -/
theorem outermost_iff_isMaximal {fs : List Finding} {e : Extract} :
    Outermost (fs.map (Finding.extract source)) e ↔ ∃ i x, IsMaximal source fs i x ∧ x.extract source = e := by
  constructor
  · rintro ⟨halone, hfirst⟩
    obtain ⟨-, i, hi, hget, hbefore⟩ := List.find?_eq_some_iff_getElem.1 hfirst
    rw [List.length_map] at hi
    rw [List.getElem_map] at hget
    refine ⟨i, fs[i], ⟨List.getElem?_eq_getElem hi, fun j y hy hwithin => ?_⟩, hget⟩
    subst hget
    have hsame := halone _ (List.mem_map_of_mem (List.mem_of_getElem? hy)) (extract_within_iff.2 hwithin)
    refine ⟨sameSpan_extract_iff.1 hsame, Nat.le_of_not_lt fun hlt => ?_⟩
    obtain ⟨hj, rfl⟩ := List.getElem?_eq_some_iff.1 hy
    have := hbefore j hlt
    rw [List.getElem_map, hsame] at this
    cases this
  · rintro ⟨i, x, ⟨hx, halone⟩, rfl⟩
    obtain ⟨hi, rfl⟩ := List.getElem?_eq_some_iff.1 hx
    constructor
    · intro e he hwithin
      obtain ⟨y, hy, rfl⟩ := List.mem_map.1 he
      obtain ⟨j, hj⟩ := List.mem_iff_getElem?.1 hy
      exact sameSpan_extract_iff.2 (halone j y hj (extract_within_iff.1 hwithin)).1
    · refine List.find?_eq_some_iff_getElem.2 ⟨by simp [Extract.sameSpan], i, by simpa using hi, by simp, fun j hj => ?_⟩
      rw [List.getElem_map, Bool.not_eq_true']
      refine Bool.eq_false_iff.2 fun hsame => ?_
      have hwithin := extract_within_iff.1 (Extract.within_of_sameSpan hsame)
      have := (halone j _ (List.getElem?_eq_getElem (by omega)) hwithin).2
      omega

/-! ## The order of an outline -/

theorem outermost_sublist (covered : Nat) (es : List Extract) : (outermost covered es).Sublist es := by
  induction es generalizing covered with
  | nil => exact .slnil
  | cons e es ih =>
    unfold outermost
    split
    · exact (ih covered).cons e
    · exact (ih _).cons_cons e

/-- Both the starts and the ends of an outline's extracts increase. -/
theorem outline_increasing (found : List Extract) :
    (outlineOf found).Pairwise fun a b => a.start < b.start ∧ a.stop < b.stop := by
  have hstops := outermost_stops 0 (found.mergeSort Extract.le)
  have hsorted := (sorted_extracts found).sublist (outermost_sublist 0 _)
  refine (hsorted.and hstops).imp fun {a b} ⟨hle, hstop⟩ => ⟨?_, hstop⟩
  rw [Extract.le_iff] at hle
  omega

theorem outline_eq_nil_iff {found : List Extract} (hstop : ∀ y ∈ found, 0 < y.stop) : outlineOf found = [] ↔ found = [] := by
  constructor
  · intro h
    rw [← List.length_eq_zero_iff, ← (List.mergeSort_perm found Extract.le).length_eq, List.length_eq_zero_iff]
    unfold outlineOf at h
    cases hsorted : found.mergeSort Extract.le with
    | nil => rfl
    | cons e es =>
      have := hstop e (List.mem_mergeSort.1 (hsorted ▸ List.mem_cons_self))
      rw [hsorted, outermost, if_neg (by omega)] at h
      cases h
  · rintro rfl
    simp [outlineOf, outermost]

/-- Extracts that all come from maximal matches are those of a list of maximal matches. -/
theorem exists_findings {fs : List Finding} (es : List Extract)
    (h : ∀ e ∈ es, ∃ i x, IsMaximal source fs i x ∧ x.extract source = e) :
    ∃ shown : List Finding, shown.map (Finding.extract source) = es ∧ ∀ x ∈ shown, ∃ i, IsMaximal source fs i x := by
  induction es with
  | nil => exact ⟨[], rfl, by simp⟩
  | cons e es ih =>
    obtain ⟨i, x, hx, rfl⟩ := h e (by simp)
    obtain ⟨shown, rfl, hshown⟩ := ih fun e he => h e (by simp [he])
    exact ⟨x :: shown, rfl, by simpa using ⟨⟨i, hx⟩, hshown⟩⟩

theorem IsMaximal.eq {fs : List Finding} {i j : Nat} {x y : Finding} (hx : IsMaximal source fs i x)
    (hy : IsMaximal source fs j y) (h : x.span source = y.span source) : x = y := by
  have hij := (hx.alone j y hy.here (by rw [h]; exact ⟨Nat.le_refl _, Nat.le_refl _⟩)).2
  have hji := (hy.alone i x hx.here (by rw [h]; exact ⟨Nat.le_refl _, Nat.le_refl _⟩)).2
  obtain rfl := Nat.le_antisymm hij hji
  exact Option.some.inj (hx.here.symm.trans hy.here)

end

/-! ## The outline -/

/-- An outline ends with a dashed line, and the notice that nothing was found with a full stop. -/
theorem join_ne_nothingFoundIn (language : Language) {contents : List String} (hne : contents ≠ []) :
    String.join (contents.map (· ++ separator)) ≠ nothingFoundIn language :=
  join_separated_ne hne ("// No relevant " ++ language.title) (by decide)

theorem searchOutline_eq (language : Language) (rules : List Rule) (source : String) :
    searchOutline language rules source = if extracts rules source.toList = [] then nothingFoundIn language
      else String.join ((extracts rules source.toList).map (·.content ++ separator)) := by
  unfold searchOutline
  cases extracts rules source.toList with
  | nil => simp
  | cons e es => simp [separator]

/-- The outline of a language with search rules shows the maximal matches in the order of the source: their starts
and their ends increase. What it prints is their contents, each with the separator behind it; that nothing was
found is said exactly when there is no match. -/
theorem outline_shows_maximal_matches {language : Language} {rules : List Rule} (hrules : language.rules? = some rules)
    (source : String) : ∃ shown : List Finding,
      (∀ x, x ∈ shown ↔ ∃ i, IsMaximal source.toList (findings rules source.toList) i x) ∧
      (shown.Pairwise fun x y => (x.span source.toList).start < (y.span source.toList).start ∧
        (x.span source.toList).stop < (y.span source.toList).stop) ∧
      (findings rules source.toList ≠ [] →
        ofRules language source = .ok (String.join (shown.map (·.content ++ separator)))) ∧
      (ofRules language source = .ok (nothingFoundIn language) ↔ findings rules source.toList = []) := by
  have hfound : found rules source.toList = _ := found_eq (shows_of_mem_rules hrules)
  have hstop := stop_pos_of_mem_found rules source.toList
  have hmem (e : Extract) : e ∈ extracts rules source.toList ↔
      ∃ i x, IsMaximal source.toList (findings rules source.toList) i x ∧ x.extract source.toList = e := by
    rw [extracts_eq, mem_outline_iff hstop, hfound, outermost_iff_isMaximal]
  obtain ⟨shown, hshown, hmaximal⟩ := exists_findings _ fun e he => (hmem e).1 he
  have hincreasing := outline_increasing (found rules source.toList)
  rw [← extracts_eq, ← hshown, List.pairwise_map] at hincreasing
  have hextracts : extracts rules source.toList = [] ↔ findings rules source.toList = [] := by
    rw [extracts_eq, outline_eq_nil_iff hstop, hfound, List.map_eq_nil_iff]
  have hrun : ofRules language source = .ok (if extracts rules source.toList = [] then nothingFoundIn language
      else String.join ((extracts rules source.toList).map (·.content ++ separator))) := by
    rw [ofRules, hrules, ← searchOutline_eq]
  refine ⟨shown, fun x => ⟨hmaximal x, fun ⟨i, hx⟩ => ?_⟩, hincreasing, ?_, ?_⟩
  · -- The extract of `x` is shown by some maximal match, which has its span and so is `x`.
    have hx' := (hmem _).2 ⟨i, x, hx, rfl⟩
    rw [← hshown] at hx'
    obtain ⟨y, hy, hyx⟩ := List.mem_map.1 hx'
    obtain ⟨j, hj⟩ := hmaximal y hy
    have hspan : x.span source.toList = y.span source.toList :=
      sameSpan_extract_iff.1 (by rw [hyx]; simp [Extract.sameSpan])
    rwa [hx.eq hj hspan]
  · intro hne
    rw [hrun, if_neg (hextracts.not.2 hne), ← hshown, List.map_map]
    rfl
  · refine ⟨fun h => by_contra fun hne => ?_, fun h => ?_⟩
    · rw [hrun, if_neg (hextracts.not.2 hne)] at h
      have hcontents : (extracts rules source.toList).map (·.content) ≠ [] := by simpa using hextracts.not.2 hne
      refine join_ne_nothingFoundIn language hcontents ?_
      simpa [Function.comp_def] using Except.ok.inj h
    · rw [hrun, if_pos (hextracts.2 h)]

/-- A comment with another one begun in it, and an import behind it. -/
theorem outline_of_nested_comment_shows_maximal_matches :
    let source := "/* see // inner */\nimport Foundation\n"
    Language.swift.rules? = some Swift.rules ∧ ∃ shown : List Finding,
      (∀ x, x ∈ shown ↔ ∃ i, IsMaximal source.toList (findings Swift.rules source.toList) i x) ∧
      (shown.Pairwise fun x y => (x.span source.toList).start < (y.span source.toList).start ∧
        (x.span source.toList).stop < (y.span source.toList).stop) ∧
      (findings Swift.rules source.toList ≠ [] →
        ofRules .swift source = .ok (String.join (shown.map (·.content ++ separator)))) ∧
      (ofRules .swift source = .ok (nothingFoundIn .swift) ↔ findings Swift.rules source.toList = []) :=
  ⟨rfl, outline_shows_maximal_matches rfl _⟩

end PromptPack.Outline
