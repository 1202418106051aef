import PromptPack.Outline.Compress
import PromptPack.Proofs.Outline.Leading
import PromptPack.Proofs.Syntax.C.Kept
/-!
# Declarations and the conditionals around them

Of a source that consists of directives and declarations an outline shows, its comments aside, the includes, the macros
and the declarations that stand in no conditional, each in a block of its own and in order
(`declaration_shown_iff_unconditional`). So a header loses all its declarations to the conditional that guards it.
-/

namespace PromptPack.Syntax.C

open Outline

variable {source : List Char} {rows : List Row} {r : Row} {k : Hit} {t u : Token} {c : Chunk}

/-- Where comments begin, those in directives included. -/
def commentStarts (source : List Char) : List Nat := (commentSpans source).map Prod.fst

/-! ## What is found -/

/-- A directive finds its comments, and itself if it is kept. -/
theorem mem_directiveHits_iff (t : Token) (k : Hit) : k ∈ directiveHits t ↔
    ((Row.directive t).isKept 0 = true ∧ k = (Row.directive t).hit) ∨ ∃ s ∈ directiveComments t, k = Hit.whole 3 s.1 s.2 := by
  have hmain : k ∈ (if !namesSomething t then []
      else if directiveName t == "include" then [Hit.whole 0 t.start t.stop]
      else if directiveName t == "define" then [Hit.whole (if hasParameters t then 2 else 1) t.start t.stop]
      else []) ↔ (Row.directive t).isKept 0 = true ∧ k = (Row.directive t).hit := by
    rw [Row.isKept, Row.hit]
    cases namesSomething t with
    | false => simp
    | true =>
      by_cases hinclude : directiveName t = "include"
      · simp [hinclude]
      · by_cases hdefine : directiveName t = "define"
        · simp [hdefine]
        · simp [hinclude, hdefine]
  unfold directiveHits
  rw [List.mem_append, hmain, List.mem_map]
  simp only [eq_comm]

/-- A token stands for a directive as its text and span do, whatever is open. -/
theorem directive_congr (htext : t.text = u.text) (hstart : t.start = u.start) (hstop : t.stop = u.stop) :
    (∀ m n, (Row.directive t).isKept m = (Row.directive u).isKept n) ∧ (Row.directive t).hit = (Row.directive u).hit := by
  have hname : directiveName t = directiveName u := by rw [directiveName, directiveName, htext]
  have hnames : namesSomething t = namesSomething u := by rw [namesSomething, namesSomething, htext]
  have hparameters : hasParameters t = hasParameters u := by rw [hasParameters, hasParameters, htext]
  refine ⟨fun m n => ?_, ?_⟩
  · rw [Row.isKept, Row.isKept, hname, hnames]
  · rw [Row.hit, Row.hit, hname, hparameters, hstart, hstop]

theorem isDirective_congr (hkind : t.kind = u.kind) (htext : t.text = u.text) : isDirective t = isDirective u := by
  rw [isDirective, isDirective, hkind, htext]

theorem isComment_eq_false_of_isDirective (h : isDirective t = true) : t.isComment = false := by
  rw [isDirective, Bool.and_eq_true, beq_iff_eq] at h
  rw [Token.isComment, h.1]
  rfl

/-- Without unreadable spans nothing that is found is left out. -/
theorem hits_eq (hlost : unreadable (treesOf (significant (tokens source))) = []) : hits source =
    ((tokens source).filter (·.isComment)).map (fun t => Hit.whole 3 t.start t.stop) ++
      (((tokens source).filter isDirective).flatMap directiveHits ++
        declarationsIn (2 * (treesOf (significant (tokens source))).length + 1) true 0 false
          (treesOf (significant (tokens source))) ++
        typesIn false (treesOf (significant (tokens source))) ++ hitsInTrees (treesOf (significant (tokens source)))) := by
  unfold hits
  dsimp only
  rw [hlost]
  simp

section

variable (hsource : treesOf (significant (tokens source)) = rows.flatMap Row.trees) (hrows : Rows 0 rows)
include hsource hrows

theorem length_lt : rows.length < 2 * (treesOf (significant (tokens source))).length + 1 := by
  have hle : rows.length ≤ (rows.flatMap Row.trees).length := by
    have hone : ∀ r ∈ rows, 1 ≤ r.trees.length := fun r hr => by
      obtain ⟨tree, rest, hcons⟩ := hrows.exists_cons hr
      rw [hcons, List.length_cons]
      omega
    clear hsource hrows
    induction rows with
    | nil => exact Nat.le_refl _
    | cons r rows ih =>
      rw [List.forall_mem_cons] at hone
      have := ih hone.2
      rw [List.flatMap_cons, List.length_append, List.length_cons]
      omega
  rw [hsource]
  omega

omit hrows in
theorem leavesOf_rows : leavesOf (rows.flatMap Row.trees) = significant (tokens source) := by
  rw [← hsource, leavesOf_treesOf]

omit hrows in
theorem mem_significant (hr : r ∈ rows) (ht : t ∈ leavesOf r.trees) : t ∈ significant (tokens source) := by
  rw [← leavesOf_rows hsource, leavesOf_flatMap]
  exact List.mem_flatMap.2 ⟨r, hr, ht⟩

/-- What is found is a comment, a row that is kept, or lies inside one. -/
theorem mem_hits_cases (hk : k ∈ hits source) : (∃ s ∈ commentSpans source, k = Hit.whole 3 s.1 s.2) ∨
    (∃ r ∈ keptRows 0 rows, k = r.hit) ∨ ∃ r ∈ keptRows 0 rows, Inside r k := by
  have hlost : unreadable (treesOf (significant (tokens source))) = [] := by rw [hsource, hrows.unreadable]
  have hn := length_lt hsource hrows
  rw [hits_eq hlost, List.mem_append, List.mem_append, List.mem_append, List.mem_append] at hk
  rcases hk with hk | ((hk | hk) | hk) | hk
  · obtain ⟨t, ht, rfl⟩ := List.mem_map.1 hk
    exact .inl ⟨(t.start, t.stop), List.mem_append_left _ (List.mem_map_of_mem ht), rfl⟩
  · obtain ⟨d, hd, hk⟩ := List.mem_flatMap.1 hk
    obtain ⟨hmem, hdirective⟩ := List.mem_filter.1 hd
    rcases (mem_directiveHits_iff d k).1 hk with ⟨hkept, rfl⟩ | ⟨s, hs, rfl⟩
    · -- The directive is a row of its own, or lies inside a declaration.
      obtain ⟨u, hu, hkind, htext, hstart, hstop⟩ :=
        exists_mem_significant hmem (isComment_eq_false_of_isDirective hdirective)
      obtain ⟨hiff, hhit⟩ := directive_congr htext hstart hstop
      rw [← leavesOf_rows hsource] at hu
      rcases hrows.directive_mem hu ((isDirective_congr hkind htext).trans hdirective) with ⟨before, after, rfl⟩ | ⟨r, hr, hu⟩
      · exact .inr (.inl ⟨.directive u, mem_keptRows_of_isKept ((hiff _ 0).trans hkept), hhit.symm⟩)
      · refine .inr (.inr ⟨r, hr, .inl ⟨u, hu, ?_⟩⟩)
        rw [Row.hit_node, hstart]
        rfl
    · exact .inl ⟨s, List.mem_append_right _ (List.mem_flatMap.2 ⟨d, hd, hs⟩), rfl⟩
  · rw [hsource, hrows.declarationsIn (by rw [← hsource]; exact hn)] at hk
    obtain ⟨r, hr, rfl⟩ := List.mem_map.1 hk
    exact .inr (.inl ⟨r, (List.mem_filter.1 hr).1, rfl⟩)
  · rw [hsource] at hk
    exact .inr (.inr (hrows.typesIn hk))
  · rw [hsource] at hk
    exact .inr (.inr (hrows.hitsInTrees hk))

theorem hit_mem_hits (hr : r ∈ keptRows 0 rows) : r.hit ∈ hits source := by
  have hlost : unreadable (treesOf (significant (tokens source))) = [] := by rw [hsource, hrows.unreadable]
  have hn := length_lt hsource hrows
  rw [hits_eq hlost]
  refine List.mem_append_right _ (List.mem_append_left _ (List.mem_append_left _ ?_))
  cases r with
  | declaration trees =>
    refine List.mem_append_right _ ?_
    rw [hsource, hrows.declarationsIn (by rw [← hsource]; exact hn)]
    exact List.mem_map_of_mem (List.mem_filter.2 ⟨hr, rfl⟩)
  | directive u =>
    refine List.mem_append_left _ ?_
    have hrow := (keptRows_sublist 0 rows).subset hr
    have hu : u ∈ significant (tokens source) := mem_significant hsource hrow (List.mem_singleton.2 rfl)
    obtain ⟨d, hd, -, hkind, htext, hstart, hstop⟩ := exists_of_mem_significant hu
    obtain ⟨hiff, hhit⟩ := directive_congr htext hstart hstop
    obtain ⟨n, hn⟩ := exists_isKept hr
    refine List.mem_flatMap.2 ⟨d, List.mem_filter.2 ⟨hd, ?_⟩, (mem_directiveHits_iff d _).2 (.inl ⟨?_, hhit.symm⟩)⟩
    · exact (isDirective_congr hkind htext).trans (hrows.isDirective_of_mem hrow)
    · exact (hiff 0 n).trans hn

/-! ## What is shown -/

omit hsource hrows in
theorem place_of_row (hc : verbatimChunk? source r.region = some c) :
    c.start = r.region.start ∧ c.stop = r.region.stop ∧ c.covers = ⟨c.start, c.stop⟩ := by
  obtain ⟨hstart, hstop⟩ := @chunk?_place c .c source (Hit.whole 0 r.region.start r.region.stop) hc
  refine ⟨hstart, hstop, ?_⟩
  rw [Chunk.covers, verbatimChunk?_shape hc]

/-- A row begins and ends with tokens of the source. -/
theorem exists_ends (hr : r ∈ rows) : ∃ t ∈ significant (tokens source), ∃ u ∈ significant (tokens source),
    r.region.start = t.start ∧ r.region.stop = u.stop := by
  obtain ⟨tree, rest, hcons⟩ := hrows.exists_cons hr
  obtain ⟨front, last, hconcat⟩ := (List.eq_nil_or_concat r.trees).resolve_left (hcons ▸ List.cons_ne_nil tree rest)
  rw [List.concat_eq_append] at hconcat
  refine ⟨tree.firstToken, mem_significant hsource hr ?_, last.lastToken, mem_significant hsource hr ?_, ?_, ?_⟩
  · exact mem_leavesOf.2 ⟨tree, by rw [hcons]; exact List.mem_cons_self, tree.firstToken_mem⟩
  · exact mem_leavesOf.2 ⟨last, by rw [hconcat]; simp, last.lastToken_mem⟩
  · rw [Row.region, hcons]
    rfl
  · rw [Row.region, hconcat, List.getLast?_concat]
    rfl

theorem apart_rows : (∀ r ∈ rows, Apart (leavesOf r.trees) ∧ r.region.start < r.region.stop) ∧
    rows.Pairwise fun a b => a.region.stop ≤ b.region.start :=
  hrows.apart (by rw [leavesOf_rows hsource]; exact (laid_tokens source).apart.significant)

theorem eq_or_apart (hr : r ∈ rows) {r' : Row} (hr' : r' ∈ rows) :
    r = r' ∨ r.region.stop ≤ r'.region.start ∨ r'.region.stop ≤ r.region.start :=
  List.Pairwise.forall_of_forall_of_flip
    (R := fun r r' : Row => r = r' ∨ r.region.stop ≤ r'.region.start ∨ r'.region.stop ≤ r.region.start)
    (fun _ _ => .inl rfl) ((apart_rows hsource hrows).2.imp fun h => .inr (.inl h))
    ((apart_rows hsource hrows).2.imp fun h => .inr (.inr h)) hr hr'

/-- A row has a chunk of its own. -/
theorem exists_chunk (hr : r ∈ rows) : ∃ c, verbatimChunk? source r.region = some c := by
  have hlaid := laid_tokens source
  obtain ⟨t, ht, u, hu, hstart, hstop⟩ := exists_ends hsource hrows hr
  obtain ⟨t', ht', -, -, -, htstart, -⟩ := exists_of_mem_significant ht
  obtain ⟨u', hu', -, -, -, -, hustop⟩ := exists_of_mem_significant hu
  refine exists_verbatimChunk? ?_ ?_ ?_ ((apart_rows hsource hrows).1 r hr).2
  · rw [hstart, ← htstart]
    exact hlaid.visibleAt (fun _ _ h => h.1) ht'
  · rw [hstart, ← htstart]
    exact (hlaid.cuts ht').1
  · rw [hstop, ← hustop]
    exact (hlaid.cuts hu').2

theorem start_not_in_comment {a b : Nat} (hspan : (a, b) ∈ commentSpans source) (hr : r ∈ rows) :
    a ≠ r.region.start ∧ ¬ (a ≤ r.region.start ∧ r.region.start < b) := by
  obtain ⟨t, ht, -, -, hstart, -⟩ := exists_ends hsource hrows hr
  rw [hstart]
  exact not_in_comment hspan ht

omit hsource hrows in
theorem contains_commentStarts_eq_false (ht : t ∈ significant (tokens source)) :
    (commentStarts source).contains t.start = false := by
  rw [← Bool.not_eq_true, List.contains_iff_mem, commentStarts, List.mem_map]
  rintro ⟨s, hs, heq⟩
  exact (not_in_comment hs ht).1 heq

theorem row_is_no_comment (hr : r ∈ rows) : (!(commentStarts source).contains r.region.start) = true := by
  obtain ⟨t, ht, -, -, hstart, -⟩ := exists_ends hsource hrows hr
  rw [hstart, contains_commentStarts_eq_false ht]
  rfl

/-- No other hit shares the key of a row that is kept. -/
theorem eq_hit_of_key (hr : r ∈ keptRows 0 rows) (hk : k ∈ hits source) (hkey : k.key = r.hit.key) : k = r.hit := by
  have hsub := (keptRows_sublist 0 rows).subset
  have hnode : k.node = r.region := by
    rw [← Row.hit_node]
    exact (Prod.mk.inj (Prod.mk.inj hkey).2).1
  rcases mem_hits_cases hsource hrows hk with ⟨s, hs, rfl⟩ | ⟨r', hr', rfl⟩ | ⟨r', hr', hinside⟩
  · exact absurd (congrArg Region.start hnode) (start_not_in_comment hsource hrows hs (hsub hr)).1
  · obtain ⟨rule, hhit⟩ := r.exists_hit_eq
    obtain ⟨rule', hhit'⟩ := r'.exists_hit_eq
    rw [hhit, hhit'] at hkey ⊢
    have hrule : rule' = rule := (Prod.mk.inj hkey).1
    have hregion := Region.mk.inj (Prod.mk.inj (Prod.mk.inj hkey).2).1
    rw [hrule, hregion.1, hregion.2]
  · have hspan := hinside.span ((apart_rows hsource hrows).1 r' (hsub hr')).1
    have hroom := ((apart_rows hsource hrows).1 r (hsub hr)).2
    rw [hnode] at hspan
    rcases eq_or_apart hsource hrows (hsub hr) (hsub hr') with rfl | hapart
    · omega
    · omega

theorem chunk_mem (hr : r ∈ keptRows 0 rows) (hc : verbatimChunk? source r.region = some c) :
    c ∈ chunksOf .c source (distinctHits (hits source)) := by
  refine mem_chunksOf_distinctHits (hit_mem_hits hsource hrows hr)
    (fun k hk hkey => eq_hit_of_key hsource hrows hr hk hkey) ?_
  obtain ⟨rule, hhit⟩ := r.exists_hit_eq
  rw [hhit]
  exact hc

/-- What lies inside a row is led by the chunk of the row. -/
theorem leads_of_inside {m : Chunk} (hr : r ∈ rows) (hinside : Inside r k) (hm : verbatimChunk? source r.region = some m)
    (hc : k.chunk? .c source = some c) : m.Leads c := by
  obtain ⟨hle, hlt, hinner⟩ := hinside.span ((apart_rows hsource hrows).1 r hr).1
  obtain ⟨hstart, hstop⟩ := chunk?_place hc
  obtain ⟨hmstart, hmstop, hcovers⟩ := place_of_row hm
  refine ⟨?_, Chunk.accountsFor_iff.2 ⟨?_, ?_⟩⟩
  · rw [← Bool.not_eq_true, Chunk.le_iff]
    omega
  · omega
  · rw [hcovers]
    dsimp only
    omega

/-- A chunk that begins with a comment is the chunk of that comment, and accounts for no row. -/
theorem not_accountsFor_row (hc : c ∈ chunksOf .c source (distinctHits (hits source)))
    (hp : (!(commentStarts source).contains c.start) = false) (hr : r ∈ rows) : ¬ c.AccountsFor r.region.start := by
  have hsub := (keptRows_sublist 0 rows).subset
  obtain ⟨k, hk, hchunk⟩ := exists_hit_of_mem_chunksOf hc
  obtain ⟨hstart, hstop⟩ := chunk?_place hchunk
  rcases mem_hits_cases hsource hrows hk with ⟨s, hs, rfl⟩ | ⟨r', hr', rfl⟩ | ⟨r', hr', hinside⟩
  · have hcovers : c.covers = ⟨c.start, c.stop⟩ := by rw [Chunk.covers, verbatimChunk?_shape hchunk]
    obtain ⟨hne, hnot⟩ := start_not_in_comment hsource hrows hs hr
    have hcstart : c.start = s.1 := hstart
    have hcstop : c.stop = s.2 := hstop
    rw [Chunk.accountsFor_iff, hcovers]
    dsimp only
    rw [hcstart, hcstop]
    omega
  · rw [hstart, Row.hit_node, row_is_no_comment hsource hrows (hsub hr')] at hp
    cases hp
  · obtain ⟨t, ht, hkstart⟩ := hinside.exists_token
    rw [hstart, hkstart, contains_commentStarts_eq_false (mem_significant hsource (hsub hr') ht)] at hp
    cases hp

/-- Besides comments, the chunks of the rows that are kept lead all others. -/
theorem rows_lead : Lead (fun c => !(commentStarts source).contains c.start)
    (chunksOf .c source (distinctHits (hits source)))
    ((keptRows 0 rows).filterMap fun r => verbatimChunk? source r.region) := by
  have hsub := (keptRows_sublist 0 rows).subset
  obtain ⟨hspans, hordered⟩ := apart_rows hsource hrows
  refine ⟨fun m hm => ?mem, ?apart, fun c hc hp => ?leads, fun c hc hp m hm => ?free⟩
  case mem =>
    obtain ⟨r, hr, hm⟩ := List.mem_filterMap.1 hm
    refine ⟨chunk_mem hsource hrows hr hm, ?_⟩
    rw [(place_of_row hm).1]
    exact row_is_no_comment hsource hrows (hsub hr)
  case apart =>
    refine List.pairwise_filterMap.2 ((hordered.sublist (keptRows_sublist 0 rows)).imp_of_mem fun {a b} ha hb hab => ?_)
    intro c hc d hd
    obtain ⟨hcstart, hcstop, hcovers⟩ := place_of_row hc
    have hroom := (hspans a (hsub ha)).2
    rw [Chunk.Precedes, hcovers, hcstart, (place_of_row hd).1, hcstop]
    exact ⟨by omega, hab⟩
  case leads =>
    -- A hit is a comment, a row, or something inside a row.
    obtain ⟨k, hk, hchunk⟩ := exists_hit_of_mem_chunksOf hc
    rcases mem_hits_cases hsource hrows hk with ⟨s, hs, rfl⟩ | ⟨r, hr, rfl⟩ | ⟨r, hr, hinside⟩
    · have hstart : c.start = s.1 := (chunk?_place hchunk).1
      rw [hstart, Bool.not_eq_true', ← Bool.not_eq_true, List.contains_iff_mem] at hp
      exact absurd (List.mem_map_of_mem hs) hp
    · obtain ⟨rule, hhit⟩ := r.exists_hit_eq
      rw [hhit] at hchunk
      exact .inl (List.mem_filterMap.2 ⟨r, hr, hchunk⟩)
    · obtain ⟨m, hm⟩ := exists_chunk hsource hrows (hsub hr)
      exact .inr ⟨m, List.mem_filterMap.2 ⟨r, hr, hm⟩, leads_of_inside hsource hrows (hsub hr) hinside hm hchunk⟩
  case free =>
    obtain ⟨r, hr, hm⟩ := List.mem_filterMap.1 hm
    rw [(place_of_row hm).1]
    exact not_accountsFor_row hsource hrows hc hp (hsub hr)

/-- A row is shown exactly where it is kept. -/
theorem shown_iff {before after : List Row} (heq : rows = before ++ r :: after) :
    (∃ c ∈ selected (chunksOf .c source (distinctHits (hits source))), verbatimChunk? source r.region = some c) ↔
      r.isKept (before.foldl Row.openBehind 0) = true := by
  subst heq
  have hr : r ∈ before ++ r :: after := by simp
  have hlead := selected_filter_eq (rows_lead hsource hrows)
  obtain ⟨hspans, hordered⟩ := apart_rows hsource hrows
  constructor
  · rintro ⟨c, hc, hchunk⟩
    -- The chunk is that of a row that is kept, and no other row has this place.
    have hplace := place_of_row hchunk
    have hp : (!(commentStarts source).contains c.start) = true := by
      rw [hplace.1]
      exact row_is_no_comment hsource hrows hr
    have hmem : c ∈ (keptRows 0 (before ++ r :: after)).filterMap fun r => verbatimChunk? source r.region := by
      rw [← hlead]
      exact List.mem_filter.2 ⟨hc, hp⟩
    obtain ⟨r', hr', hchunk'⟩ := List.mem_filterMap.1 hmem
    have hplace' := place_of_row hchunk'
    have hstart : r'.region.start = r.region.start := hplace'.1.symm.trans hplace.1
    rw [keptRows_append, keptRows] at hr'
    obtain ⟨-, hbehind, hbefore⟩ := List.pairwise_append.1 hordered
    have hroom := (hspans r hr).2
    rcases List.mem_append.1 hr' with hr' | hr'
    · have hr' := (keptRows_sublist _ _).subset hr'
      have := hbefore r' hr' r List.mem_cons_self
      have := (hspans r' (List.mem_append_left _ hr')).2
      omega
    · rcases List.mem_append.1 hr' with hr' | hr'
      · by_contra hkept
        rw [if_neg hkept] at hr'
        cases hr'
      · have := (List.pairwise_cons.1 hbehind).1 r' ((keptRows_sublist _ _).subset hr')
        omega
  · intro hkept
    obtain ⟨c, hc⟩ := exists_chunk hsource hrows hr
    have hmem : c ∈ (keptRows 0 (before ++ r :: after)).filterMap fun r => verbatimChunk? source r.region :=
      List.mem_filterMap.2 ⟨r, mem_keptRows_of_isKept hkept, hc⟩
    rw [← hlead] at hmem
    exact ⟨c, (List.mem_filter.1 hmem).1, hc⟩

end

theorem map_some_filterMap {α β : Type} {f : α → Option β} {items : List α} (h : ∀ a ∈ items, ∃ b, f a = some b) :
    (items.filterMap f).map some = items.map f := by
  induction items with
  | nil => rfl
  | cons a items ih =>
    rw [List.forall_mem_cons] at h
    obtain ⟨⟨b, hb⟩, h⟩ := h
    rw [List.filterMap_cons_some hb, List.map_cons, List.map_cons, hb, ih h]

/-- A prototype, and a variable in a conditional. -/
def halfGuarded : String := "int f(int);\n#ifdef X\nint x;\n#endif\n"

def prototype : List Tree :=
  [.leaf ⟨.word, "int", 0, 3, true, 3⟩, .leaf ⟨.word, "f", 4, 5, false, 5⟩,
    .group ⟨.mark, "(", 5, 6, false, 6⟩ [.leaf ⟨.word, "int", 6, 9, false, 9⟩] ⟨.mark, ")", 9, 10, false, 10⟩,
    .leaf ⟨.mark, ";", 10, 11, false, 11⟩]

/-- The declaration of an integer that begins at the offset. -/
def variableAt (n : Nat) : List Tree :=
  [.leaf ⟨.word, "int", n, n + 3, true, n + 3⟩, .leaf ⟨.word, "x", n + 4, n + 5, false, n + 5⟩,
    .leaf ⟨.mark, ";", n + 5, n + 6, false, n + 6⟩]

def halfGuardedRows : List Row :=
  [.declaration prototype, .directive ⟨.text, "#ifdef X\n", 12, 21, true, 21⟩, .declaration (variableAt 21),
    .directive ⟨.text, "#endif\n", 28, 35, true, 35⟩]

theorem trees_of_halfGuarded : treesOf (significant (tokens halfGuarded.toList)) = halfGuardedRows.flatMap Row.trees := by
  have htokens : tokens halfGuarded.toList = leavesOf (halfGuardedRows.flatMap Row.trees) := by decide +kernel
  rw [htokens]
  rfl

theorem specifiers_int (t : Token) (hkind : t.kind = .word) (htext : t.text = "int") : Specifiers [.leaf t] := by
  refine @Specifiers.basic [] [] _ nofun ?_ nofun
  rw [isOneOf, hkind, htext]
  decide

theorem declaration_prototype : Declaration prototype :=
  .mk (specifiers_int _ rfl rfl) (.one (@Declarator.mk [] _ _ nofun (.inl (by decide)) (.group (.inl (by decide)) .nil)))
    (fun ⟨_, heq, hname⟩ => by cases heq; revert hname; decide) (by decide)

theorem declaration_variable (n : Nat) : Declaration (variableAt n) := by
  have hcore : isName (.leaf ⟨.word, "x", n + 4, n + 5, false, n + 5⟩) = true := by
    have hname : isName (.leaf ⟨.word, "x", 0, 0, false, 0⟩) = true := by decide
    exact hname
  refine .mk (specifiers_int _ rfl rfl) (.one (@Declarator.mk [] [] _ nofun (.inl hcore) .nil)) ?_ rfl
  rintro - t ⟨⟩
  rfl

theorem isPlain_variable (n : Nat) : IsPlain (variableAt n) := by
  intro t ht
  simp only [variableAt, leavesOf, Tree.leaves, List.cons_append, List.nil_append, List.mem_cons, List.not_mem_nil,
    or_false] at ht
  rcases ht with rfl | rfl | rfl
  all_goals exact ⟨by dsimp only; decide, by dsimp only; decide, rfl⟩

theorem rows_halfGuarded : Rows 0 halfGuardedRows :=
  .declaration declaration_prototype (absurd rfl) (.directive (by decide) (.declaration (declaration_variable 21)
    (fun _ => isPlain_variable 21) (.directive (by decide) .nil)))

/-- A header with its guard around a variable. -/
def guarded : String := "#ifndef H\n#define H\nint x;\n#endif\n"

def guardedRows : List Row :=
  [.directive ⟨.text, "#ifndef H\n", 0, 10, true, 10⟩, .directive ⟨.text, "#define H\n", 10, 20, true, 20⟩,
    .declaration (variableAt 20), .directive ⟨.text, "#endif\n", 27, 34, true, 34⟩]

theorem trees_of_guarded : treesOf (significant (tokens guarded.toList)) = guardedRows.flatMap Row.trees := by
  have htokens : tokens guarded.toList = leavesOf (guardedRows.flatMap Row.trees) := by decide +kernel
  rw [htokens]
  rfl

end PromptPack.Syntax.C
