import Mathlib
import PromptPack.Outline.Hit
import PromptPack.Proofs.Outline.Greedy
/-!
# Repeated hits

The rules of a language may match the same spans again and again. Of the matches with one key only the first is kept
(`KeepsFirsts`). A match with a key that came up before yields the chunks that the first one yields, and assembly drops a
chunk that came up before wherever it stands in the order of assembly: the first of the two is kept, or what dropped it
drops the other one as well. So the outline does not show whether matches are repeated (`repeats_do_not_show`).
-/

namespace PromptPack.Outline

section

variable {α β κ : Type} [BEq κ] [LawfulBEq κ] [BEq β] [LawfulBEq β] {key : α → κ} {items kept : List α}

/-! ## The first item of each key -/

/-- Keeps the first item of each key. -/
def firsts (key : α → κ) (items : List α) : List α := items.eraseDupsBy fun a b => key a == key b

/-- The items that are left are the first ones of their keys, in the order in which they came. -/
structure KeepsFirsts (key : α → κ) (items kept : List α) : Prop where
  sublist : kept.Sublist items
  distinct : kept.Pairwise fun a b => key a ≠ key b
  first : ∀ k, kept.find? (key · == k) = items.find? (key · == k)

omit [LawfulBEq κ] in
theorem firsts_cons (key : α → κ) (a : α) (items : List α) :
    firsts key (a :: items) = a :: firsts key (items.filter fun b => !key b == key a) := by
  simp [firsts, List.eraseDupsBy_cons]

omit [LawfulBEq κ] in
/-- Lists by the keys that come up in them: behind the first item, only items of other keys count. -/
@[elab_as_elim]
theorem byKeys (key : α → κ) {motive : List α → Prop} (nil : motive [])
    (cons : ∀ a items, motive (items.filter fun b => !key b == key a) → motive (a :: items)) (items : List α) :
    motive items := by
  induction h : items.length using Nat.strong_induction_on generalizing items with
  | _ n ih =>
    cases items with
    | nil => exact nil
    | cons a items =>
      refine cons a items (ih _ ?_ _ rfl)
      have := List.length_filter_le (fun b => !key b == key a) items
      rw [List.length_cons] at h
      omega

theorem keepsFirsts_firsts (key : α → κ) (items : List α) : KeepsFirsts key items (firsts key items) := by
  induction items using byKeys key with
  | nil => exact ⟨.slnil, .nil, fun _ => rfl⟩
  | cons a items ih =>
    rw [firsts_cons]
    refine ⟨(ih.sublist.trans List.filter_sublist).cons_cons a, List.pairwise_cons.2 ⟨fun b hb => ?_, ih.distinct⟩,
      fun k => ?_⟩
    · have hother : key b ≠ key a := by simpa using (List.mem_filter.1 (ih.sublist.subset hb)).2
      exact hother.symm
    · rw [List.find?_cons, List.find?_cons]
      by_cases hk : key a = k
      · subst hk
        simp
      · have hne : (key a == k) = false := by simpa using hk
        rw [hne]
        dsimp only
        rw [ih.first, List.find?_filter]
        refine congrArg (fun p => items.find? p) (funext fun b => ?_)
        -- An item of the key that is looked for has not been passed over.
        by_cases hb : key b = k
        · simp [hb, Ne.symm hk]
        · simp [hb]

theorem filter_eraseDups (p : β → Bool) (items : List β) :
    items.eraseDups.filter p = (items.filter p).eraseDups := by
  induction items using byKeys (id : β → β) with
  | nil => rfl
  | cons a items ih =>
    simp only [id_eq] at ih
    rw [List.eraseDups_cons, List.filter_cons, List.filter_cons, ih]
    by_cases ha : p a = true
    · rw [if_pos ha, if_pos ha, List.eraseDups_cons, List.filter_comm]
    · rw [if_neg ha, if_neg ha, List.filter_filter]
      refine congrArg List.eraseDups (List.filter_congr fun b _ => ?_)
      -- The filter leaves out the first item anyway.
      by_cases hb : b = a
      · simp [hb, ha]
      · simp [hb]

omit [BEq β] [LawfulBEq β] in
theorem flatMap_filter_eq {p : α → Bool} {f : α → List β} (h : ∀ a ∈ items, p a = false → f a = []) :
    (items.filter p).flatMap f = items.flatMap f := by
  induction items with
  | nil => rfl
  | cons a items ih =>
    rw [List.forall_mem_cons] at h
    rw [List.filter_cons, List.flatMap_cons, ← ih h.2]
    cases ha : p a with
    | true => rfl
    | false => simp [h.1 ha]

/-- Items with one key yield the same, so those that are repeated yield nothing new. -/
theorem eraseDups_flatMap_firsts (f : α → List β) (h : ∀ a ∈ items, ∀ b ∈ items, key a = key b → f a = f b) :
    ((firsts key items).flatMap f).eraseDups = (items.flatMap f).eraseDups := by
  induction items using byKeys key generalizing f with
  | nil => rfl
  | cons a items ih =>
    have hsub {b : α} (hb : b ∈ items.filter fun b => !key b == key a) : b ∈ a :: items :=
      List.mem_cons_of_mem _ (List.mem_filter.1 hb).1
    -- What the first item yields is taken out of what all others yield.
    have hrest := ih (fun b => (f b).removeAll (f a)) fun b hb c hc hkey => by
      rw [h b (hsub hb) c (hsub hc) hkey]
    rw [firsts_cons, List.flatMap_cons, List.flatMap_cons, List.eraseDups_append, List.eraseDups_append]
    refine congrArg _ ?_
    simp only [List.removeAll, List.filter_flatMap] at hrest ⊢
    rw [hrest, flatMap_filter_eq]
    intro b hb hkey
    rw [h b (List.mem_cons_of_mem _ hb) a List.mem_cons_self (by simpa using hkey)]
    simp

end

/-! ## Repeated chunks -/

variable {c : Chunk} {cs kept : List Chunk}

theorem sorts_eraseDups (chunks : List Chunk) : Sorts chunks.eraseDups (chunks.mergeSort Chunk.le).eraseDups := by
  have hsorts := sorts_mergeSort chunks
  have hkept (cs : List Chunk) : KeepsFirsts id cs cs.eraseDups := keepsFirsts_firsts id cs
  refine ⟨?_, hsorts.ordered.sublist (hkept _).sublist, fun c => ?_⟩
  · refine (List.perm_ext_iff_of_nodup (hkept _).distinct (hkept _).distinct).2 fun c => ?_
    rw [List.mem_eraseDups, List.mem_eraseDups, hsorts.perm.mem_iff]
  · rw [filter_eraseDups, filter_eraseDups, hsorts.stable]

/-- Copies of a chunk that a kept one accounts for are all dropped. -/
theorem select_filter (h : kept.any (fun k => k.start == c.start || k.covers.contains c.start) = true) :
    select kept (cs.filter fun d => !d == c) = select kept cs := by
  induction cs generalizing kept with
  | nil => rfl
  | cons d cs ih =>
    by_cases hd : d = c
    · subst hd
      rw [List.filter_cons_of_neg (by simp), select, if_pos h, ih h]
    · rw [List.filter_cons_of_pos (by simpa using hd), select, select, ih h, ih (by simp [h])]

theorem select_eraseDups (kept cs : List Chunk) : select kept cs.eraseDups = select kept cs := by
  induction cs using byKeys (id : Chunk → Chunk) generalizing kept with
  | nil => rfl
  | cons c cs ih =>
    simp only [id_eq] at ih
    rw [List.eraseDups_cons, select, select, ih, ih]
    split
    · rename_i hdropped
      exact select_filter hdropped
    · rw [select_filter (by simp)]

theorem assemble_eraseDups (chunks : List Chunk) : assemble chunks.eraseDups = assemble chunks := by
  have hselected : selected chunks.eraseDups = selected chunks := by
    rw [selected, ← sorts_iff.1 (sorts_eraseDups chunks), select_eraseDups, selected]
  rw [assemble, assemble, hselected]

/-- The outline does not change when items are dropped that yield the chunks of an item before. -/
theorem assemble_flatMap_firsts {α κ : Type} [BEq κ] [LawfulBEq κ] {key : α → κ} {items : List α} (f : α → List Chunk)
    (h : ∀ a ∈ items, ∀ b ∈ items, key a = key b → f a = f b) :
    assemble ((firsts key items).flatMap f) = assemble (items.flatMap f) := by
  rw [← assemble_eraseDups, eraseDups_flatMap_firsts f h, assemble_eraseDups]

/-! ## Hits -/

variable {language : Language} {source : List Char}

/-- A hit becomes the chunk that its key, its part and, in Python, its colon ask for. -/
theorem Hit.chunk?_eq {g h : Hit} (hkey : g.key = h.key) (hpart : g.part = h.part)
    (hcolon : language = .python → g.colon = h.colon) : g.chunk? language source = h.chunk? language source := by
  obtain ⟨rule, part, node, body, colon⟩ := g
  obtain ⟨rule', part', node', body', colon'⟩ := h
  simp only [Hit.key, Prod.mk.injEq] at hkey hpart hcolon
  obtain ⟨rfl, rfl, rfl⟩ := hkey
  subst hpart
  by_cases hlanguage : language = .python
  · rw [hcolon hlanguage]
  · have hend (body : Region) (colon : Option Nat) :
        Hit.signatureEnd language ⟨rule, part, node, some body, colon⟩ body = body.start := by
      unfold Hit.signatureEnd
      split
      · exact absurd rfl hlanguage
      · rfl
    cases body with
    | none => cases part <;> rfl
    | some body => cases part <;> simp only [Hit.chunk?, definitionChunk?, hend]

theorem distinctFrom_eq (seen hits : List Hit) :
    distinctFrom seen hits = firsts Hit.key (hits.filter fun h => !seen.any fun g => g.key == h.key) := by
  induction hits generalizing seen with
  | nil => rfl
  | cons h hits ih =>
    rw [distinctFrom]
    split
    · rename_i hseen
      rw [List.filter_cons_of_neg (by simpa using hseen), ih]
    · rename_i hnew
      rw [List.filter_cons_of_pos (by simpa using hnew), firsts_cons, ih, List.filter_filter]
      refine congrArg (fun rest => h :: firsts Hit.key rest) (List.filter_congr fun g _ => ?_)
      rw [List.any_cons, Bool.not_or, BEq.comm]

theorem distinctHits_eq (hits : List Hit) : distinctHits hits = firsts Hit.key hits := by
  rw [distinctHits, distinctFrom_eq]
  simp

theorem chunksOf_flatMap {α : Type} (f : α → List Hit) (items : List α) :
    chunksOf language source (items.flatMap f) = items.flatMap fun a => chunksOf language source (f a) :=
  List.filterMap_flatMap

/-! ## Matches -/

/-- A node of a syntax tree: its span, and the end of the first colon that stands right in it. -/
structure Node where
  span : Region
  colon : Option Nat
  deriving DecidableEq, Repr

/-- A match of a rule: what it captured, each node with the number of its capture. -/
structure Match where
  rule : Nat
  captures : List (Nat × Node)
  deriving DecidableEq, Repr

/-- The names of captures that are kept as they are. -/
def verbatimNames : List String :=
  ["import", "package", "comment", "definition.type", "export", "command", "rule", "declaration", "decorator",
    "attribute", "macro"]

/-- What is kept of a node captured under the name, if it is a definition. -/
def definitionPart? (name : String) : Option Part :=
  if name = "definition.function" then some .signature
  else if name = "definition.outline" then some .header
  else none

namespace Match

/-- What tells matches apart: the rule and the captured spans. -/
def key (m : Match) : Nat × List (Nat × Region) := (m.rule, m.captures.map fun x => (x.1, x.2.span))

variable (names : Nat → String) (m : Match)

/-- The definition that is captured last. -/
def definition? : Option (Part × Node) :=
  (m.captures.filterMap fun x => (definitionPart? (names x.1)).map fun part => (part, x.2)).getLast?

/-- The colon of the header of the definition. -/
def colon? : Option Nat := (m.definition? names).bind fun d => d.2.colon

/-- The body that is captured last. -/
def body? : Option Region := (m.captures.filterMap fun x => if names x.1 = "body" then some x.2.span else none).getLast?

/-- What the match keeps of its nodes: its definition, or else all that is kept as it is. -/
def hits : List Hit :=
  match m.definition? names with
  | some (part, node) => [⟨m.rule, part, node.span, m.body? names, node.colon⟩]
  | none =>
    (m.captures.filter fun x => verbatimNames.contains (names x.1)).map fun x => ⟨m.rule, .whole, x.2.span, none, none⟩

variable {names m} {m' : Match}

theorem map_definition? : (m.definition? names).map (fun d => (d.1, d.2.span)) =
    (m.key.2.filterMap fun x => (definitionPart? (names x.1)).map fun part => (part, x.2)).getLast? := by
  rw [definition?, ← List.getLast?_map, List.map_filterMap, key, List.filterMap_map]
  simp [Function.comp_def]

theorem body?_eq : m.body? names =
    (m.key.2.filterMap fun x => if names x.1 = "body" then some x.2 else none).getLast? := by
  rw [body?, key, List.filterMap_map]
  rfl

theorem whole_eq : (m.captures.filter fun x => verbatimNames.contains (names x.1)).map
      (fun x => (⟨m.rule, .whole, x.2.span, none, none⟩ : Hit)) =
    (m.key.2.filter fun x => verbatimNames.contains (names x.1)).map fun x => ⟨m.key.1, .whole, x.2, none, none⟩ := by
  rw [key, List.filter_map, List.map_map]
  rfl

/-- Matches with one key, and in Python one colon, become the same chunks. -/
theorem chunksOf_hits_eq (hkey : m.key = m'.key) (hcolon : language = .python → m.colon? names = m'.colon? names) :
    chunksOf language source (m.hits names) = chunksOf language source (m'.hits names) := by
  have hdefinition : (m.definition? names).map (fun d => (d.1, d.2.span)) =
      (m'.definition? names).map fun d => (d.1, d.2.span) := by
    rw [map_definition?, map_definition?, hkey]
  have hbody : m.body? names = m'.body? names := by rw [body?_eq, body?_eq, hkey]
  -- One of them has a definition exactly when the other has, with the same span.
  unfold hits
  unfold colon? at hcolon
  cases hd : m.definition? names with
  | none =>
    cases hd' : m'.definition? names with
    | none =>
      dsimp only
      rw [whole_eq, whole_eq, hkey]
    | some d' =>
      rw [hd, hd'] at hdefinition
      cases hdefinition
  | some d =>
    cases hd' : m'.definition? names with
    | none =>
      rw [hd, hd'] at hdefinition
      cases hdefinition
    | some d' =>
      obtain ⟨part, node⟩ := d
      obtain ⟨part', node'⟩ := d'
      rw [hd, hd'] at hdefinition hcolon
      obtain ⟨rfl, hspan⟩ : part = part' ∧ node.span = node'.span := by simpa using hdefinition
      have hrule : m.rule = m'.rule := congrArg Prod.fst hkey
      have hchunk : (⟨m.rule, part, node.span, m.body? names, node.colon⟩ : Hit).chunk? language source =
          (⟨m'.rule, part, node'.span, m'.body? names, node'.colon⟩ : Hit).chunk? language source := by
        refine Hit.chunk?_eq ?_ rfl hcolon
        simp only [Hit.key, hrule, hspan, hbody]
      simp only [chunksOf, List.filterMap_cons, hchunk]

end Match

/-- Of matches, and of hits, the first of each key are enough: the others do not show in the outline, as long as a key
stands for one part and, in Python, for one colon. -/
theorem repeats_do_not_show (language : Language) (source : List Char) :
    (∀ (names : Nat → String) (found : List Match),
      (language = .python → ∀ m ∈ found, ∀ m' ∈ found, m.key = m'.key → m.colon? names = m'.colon? names) →
        KeepsFirsts Match.key found (firsts Match.key found) ∧
          assemble (chunksOf language source ((firsts Match.key found).flatMap (·.hits names))) =
            assemble (chunksOf language source (found.flatMap (·.hits names)))) ∧
      ∀ hits : List Hit,
        (∀ g ∈ hits, ∀ h ∈ hits, g.key = h.key → g.part = h.part ∧ (language = .python → g.colon = h.colon)) →
          KeepsFirsts Hit.key hits (distinctHits hits) ∧
            assemble (chunksOf language source (distinctHits hits)) = assemble (chunksOf language source hits) := by
  refine ⟨fun names found hcolon => ⟨keepsFirsts_firsts _ _, ?_⟩, fun hits hsame => ?_⟩
  · rw [chunksOf_flatMap, chunksOf_flatMap]
    refine assemble_flatMap_firsts _ fun m hm m' hm' hkey => ?_
    exact Match.chunksOf_hits_eq hkey fun hlanguage => hcolon hlanguage m hm m' hm' hkey
  · rw [distinctHits_eq]
    refine ⟨keepsFirsts_firsts _ _, ?_⟩
    have hchunks (hits : List Hit) :
        chunksOf language source hits = hits.flatMap fun h => (h.chunk? language source).toList :=
      List.filterMap_eq_flatMap_toList _ _
    rw [hchunks, hchunks]
    refine assemble_flatMap_firsts _ fun g hg h hh hkey => ?_
    obtain ⟨hpart, hcolon⟩ := hsame g hg h hh hkey
    rw [Hit.chunk?_eq hkey hpart hcolon]

/-- The captures of a rule for classes. -/
def classNames (capture : Nat) : String := if capture = 0 then "definition.outline" else "body"

/-- The class `A` of `class A:\n pass`. -/
def classMatch : Match := ⟨3, [(0, ⟨⟨0, 14⟩, some 8⟩), (1, ⟨⟨10, 14⟩, none⟩)]⟩

/-- Its body, found by another rule. -/
def bodyMatch : Match := ⟨5, [(1, ⟨⟨10, 14⟩, none⟩)]⟩

/-- The class as a hit. -/
def outlinedClass : Hit := ⟨3, .header, ⟨0, 14⟩, some ⟨10, 14⟩, some 8⟩

theorem class_found_twice_does_not_show :
    let source := "class A:\n pass".toList
    let found := [classMatch, bodyMatch, classMatch]
    let hits := [outlinedClass, Hit.whole 5 10 14, outlinedClass]
    ((Language.python = .python → ∀ m ∈ found, ∀ m' ∈ found, m.key = m'.key →
          m.colon? classNames = m'.colon? classNames) ∧
        KeepsFirsts Match.key found (firsts Match.key found) ∧
        assemble (chunksOf .python source ((firsts Match.key found).flatMap (·.hits classNames))) =
          assemble (chunksOf .python source (found.flatMap (·.hits classNames)))) ∧
      (∀ g ∈ hits, ∀ h ∈ hits, g.key = h.key → g.part = h.part ∧ (Language.python = .python → g.colon = h.colon)) ∧
        KeepsFirsts Hit.key hits (distinctHits hits) ∧
        assemble (chunksOf .python source (distinctHits hits)) = assemble (chunksOf .python source hits) := by
  intro source found hits
  have hcolon : Language.python = .python → ∀ m ∈ found, ∀ m' ∈ found, m.key = m'.key →
      m.colon? classNames = m'.colon? classNames := by decide
  have hsame : ∀ g ∈ hits, ∀ h ∈ hits, g.key = h.key →
      g.part = h.part ∧ (Language.python = .python → g.colon = h.colon) := by decide
  exact ⟨⟨hcolon, (repeats_do_not_show .python source).1 classNames found hcolon⟩,
    hsame, (repeats_do_not_show .python source).2 hits hsame⟩

end PromptPack.Outline
