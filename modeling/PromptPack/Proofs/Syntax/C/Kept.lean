import PromptPack.Proofs.Syntax.C.Rows
import PromptPack.Proofs.Syntax.C.Starts
import PromptPack.Proofs.Syntax.C.Tokens
/-!
# The rows that are kept

Of the rows of a source the includes, the macros and the declarations outside conditionals are kept. All other hits are
comments, or lie inside a row that is kept (`Rows.typesIn`, `Rows.hitsInTrees`, `Rows.directive_mem`).
-/

namespace PromptPack.Syntax.C

open Outline (Hit Region)

/-! ## The rows that are kept -/

namespace Row

/-- Whether the row is kept, given how many conditionals are open in front of it. -/
def isKept (open_ : Nat) : Row → Bool
  | directive t => namesSomething t && ["include", "define"].contains (directiveName t)
  | declaration _ => open_ == 0

/-- The hit of a row that is kept. -/
def hit : Row → Hit
  | directive t => Hit.whole (if directiveName t == "include" then 0 else if hasParameters t then 2 else 1) t.start t.stop
  | declaration trees => Hit.whole 9 (declaration trees).region.start (declaration trees).region.stop

theorem exists_hit_eq (r : Row) : ∃ rule, r.hit = Hit.whole rule r.region.start r.region.stop := by
  cases r <;> exact ⟨_, rfl⟩

theorem hit_node (r : Row) : r.hit.node = r.region := by
  obtain ⟨rule, hhit⟩ := r.exists_hit_eq
  rw [hhit]
  rfl

end Row

/-- The rows that are kept, in order. -/
def keptRows (open_ : Nat) : List Row → List Row
  | [] => []
  | r :: rows => (if r.isKept open_ then [r] else []) ++ keptRows (r.openBehind open_) rows

variable {rows before after : List Row} {r : Row} {open_ n : Nat} {source : List Char} {k : Hit} {u : Row} {trees : List Tree} {t : Token}

theorem keptRows_append (open_ : Nat) (before after : List Row) :
    keptRows open_ (before ++ after) = keptRows open_ before ++ keptRows (before.foldl Row.openBehind open_) after := by
  induction before generalizing open_ with
  | nil => rfl
  | cons r before ih => rw [List.cons_append, keptRows, ih, keptRows, List.append_assoc, List.foldl_cons]

theorem keptRows_sublist (open_ : Nat) (rows : List Row) : (keptRows open_ rows).Sublist rows := by
  induction rows generalizing open_ with
  | nil => exact .slnil
  | cons r rows ih =>
    rw [keptRows]
    split
    · exact (ih _).cons_cons r
    · exact (ih _).cons r

theorem mem_keptRows_head (h : r.isKept open_ = true) : r ∈ keptRows open_ (r :: rows) := by
  rw [keptRows, h]
  exact List.mem_append_left _ (List.mem_singleton.2 rfl)

/-- A row is kept as its place asks. -/
theorem mem_keptRows_of_isKept (h : r.isKept (before.foldl Row.openBehind open_) = true) :
    r ∈ keptRows open_ (before ++ r :: after) := by
  rw [keptRows_append]
  exact List.mem_append_right _ (mem_keptRows_head h)

theorem exists_isKept (h : r ∈ keptRows open_ rows) : ∃ n, r.isKept n = true := by
  induction rows generalizing open_ with
  | nil => cases h
  | cons u rows ih =>
    rw [keptRows] at h
    rcases List.mem_append.1 h with h | h
    · split at h
      · rename_i hkept
        exact ⟨open_, List.mem_singleton.1 h ▸ hkept⟩
      · cases h
    · exact ih h

theorem mem_keptRows_of_tail (h : r ∈ keptRows (Row.openBehind open_ u) rows) : r ∈ keptRows open_ (u :: rows) :=
  List.mem_append_right _ h

theorem Rows.exists_cons (h : Rows open_ rows) (hr : r ∈ rows) : ∃ tree trees, r.trees = tree :: trees := by
  induction h with
  | nil => cases hr
  | @directive open_ t rows _ _ ih =>
    rcases List.mem_cons.1 hr with rfl | hr
    · exact ⟨.leaf t, [], rfl⟩
    · exact ih hr
  | @declaration open_ trees rows hd _ _ ih =>
    rcases List.mem_cons.1 hr with rfl | hr
    · obtain ⟨t, ts, rfl, -⟩ := hd.exists_cons
      exact ⟨t, ts, rfl⟩
    · exact ih hr

theorem Rows.isDirective_of_mem (h : Rows open_ rows) (ht : .directive t ∈ rows) : isDirective t = true := by
  induction h with
  | nil => cases ht
  | directive hd _ ih =>
    rcases List.mem_cons.1 ht with heq | ht
    · exact Row.directive.inj heq ▸ hd
    · exact ih ht
  | declaration _ _ _ ih =>
    rcases List.mem_cons.1 ht with heq | ht
    · cases heq
    · exact ih ht

/-! ## The hits of rows -/

/-- The declarations are found that no conditional encloses. -/
theorem Rows.declarationsIn (h : Rows open_ rows) (hn : rows.length < n) :
    declarationsIn n true open_ false (rows.flatMap Row.trees) =
      ((keptRows open_ rows).filter fun | .directive _ => false | .declaration _ => true).map Row.hit := by
  induction h generalizing n with
  | nil =>
    obtain ⟨n, rfl⟩ := Nat.exists_eq_succ_of_ne_zero (Nat.ne_of_gt hn)
    rfl
  | @directive open_ t rows hdirective _ ih =>
    obtain ⟨n, rfl⟩ := Nat.exists_eq_succ_of_ne_zero (Nat.ne_of_gt (Nat.lt_of_le_of_lt (Nat.zero_le _) hn))
    have htree : isDirectiveTree (.leaf t) = true := hdirective
    rw [List.flatMap_cons, Row.trees, List.singleton_append, declarationsIn_directive htree]
    rw [List.length_cons] at hn
    rw [keptRows, List.filter_append, List.map_append]
    have hnone : ((if (Row.directive t).isKept open_ then [Row.directive t] else []).filter
        fun | .directive _ => false | .declaration _ => true) = [] := by
      split <;> rfl
    rw [hnone]
    exact ih (by omega)
  | @declaration open_ trees rows hd _ _ ih =>
    obtain ⟨n, rfl⟩ := Nat.exists_eq_succ_of_ne_zero (Nat.ne_of_gt (Nat.lt_of_le_of_lt (Nat.zero_le _) hn))
    rw [List.length_cons] at hn
    rw [List.flatMap_cons, Row.trees, hd.found, ih (by omega), keptRows, List.filter_append, List.map_append]
    refine congrArg (· ++ _) ?_
    by_cases hopen : open_ = 0
    · rw [if_pos hopen, if_pos (show (Row.declaration trees).isKept open_ = true by simp [Row.isKept, hopen])]
      rfl
    · rw [if_neg hopen, if_neg (show ¬ (Row.declaration trees).isKept open_ = true by simp [Row.isKept, hopen])]
      rfl

theorem IsPlain.noBlocks (h : IsPlain trees) : NoBlocks (leavesOf trees) := fun t ht => ⟨(h t ht).1, (h t ht).2.1⟩

/-- A hit lies inside a row: it begins with a token behind the first, or ends before the last tree. -/
def Inside (r : Row) (h : Hit) : Prop :=
  (∃ t ∈ (leavesOf r.trees).tail, h.node.start = t.start) ∨
    ∃ key ∈ r.trees.dropLast, ∃ body ∈ r.trees.dropLast, h.node = ⟨key.start, body.stop⟩

/-- The types that are found lie inside declarations that are kept. -/
theorem Rows.typesIn (h : Rows open_ rows) (hh : k ∈ typesIn false (rows.flatMap Row.trees)) :
    ∃ r ∈ keptRows open_ rows, Inside r k := by
  induction h with
  | nil => cases hh
  | @directive open_ t rows hdirective _ ih =>
    have his (w : String) : (Tree.leaf t).is w = false := by
      rw [isDirective, Bool.and_eq_true, beq_iff_eq] at hdirective
      rw [Tree.is, Token.is, hdirective.1]
      rfl
    have hkey : isTypeWord (.leaf t) = false := by rw [isTypeWord, his, his, his, his]; rfl
    rw [List.flatMap_cons, Row.trees, List.singleton_append, typesIn_cons_of_no_key (his _) hkey] at hh
    obtain ⟨r, hr, hinside⟩ := ih hh
    exact ⟨r, mem_keptRows_of_tail hr, hinside⟩
  | @declaration open_ trees rows hd hplain _ ih =>
    obtain ⟨hs, htypes, hmem⟩ := hd.typesIn (rows.flatMap Row.trees)
    rw [List.flatMap_cons, Row.trees, htypes] at hh
    rcases List.mem_append.1 hh with hh | hh
    · obtain ⟨key, hkey, body, hbody, hblock, rule, rfl⟩ := hmem k hh
      refine ⟨.declaration trees, ?_, .inr ⟨key, hkey, body, hbody, rfl⟩⟩
      refine mem_keptRows_head ?_
      by_contra hopen
      have hno := (hplain (by simpa [Row.isKept] using hopen)).noBlocks.forall_mem body ((List.dropLast_sublist _).subset hbody)
      rw [hno.1] at hblock
      cases hblock
    · obtain ⟨r, hr, hinside⟩ := ih hh
      exact ⟨r, mem_keptRows_of_tail hr, hinside⟩

/-- What is found in groups lies inside declarations that are kept. -/
theorem Rows.hitsInTrees (h : Rows open_ rows) (hh : k ∈ hitsInTrees (rows.flatMap Row.trees)) :
    ∃ r ∈ keptRows open_ rows, Inside r k := by
  induction h with
  | nil => cases hh
  | @directive open_ t rows _ _ ih =>
    obtain ⟨r, hr, hinside⟩ := ih hh
    exact ⟨r, mem_keptRows_of_tail hr, hinside⟩
  | @declaration open_ trees rows hd hplain _ ih =>
    rw [List.flatMap_cons, Row.trees, hitsInTrees_append] at hh
    rcases List.mem_append.1 hh with hh | hh
    · refine ⟨.declaration trees, mem_keptRows_head ?_, .inl (start_mem_of_mem_hitsInTrees trees hh)⟩
      by_contra hopen
      rw [hitsInTrees_eq_nil trees (hplain (by simpa [Row.isKept] using hopen)).noBlocks] at hh
      cases hh
    · obtain ⟨r, hr, hinside⟩ := ih hh
      exact ⟨r, mem_keptRows_of_tail hr, hinside⟩

/-- A directive is a row of its own or lies inside a declaration that is kept. -/
theorem Rows.directive_mem (h : Rows open_ rows) (ht : t ∈ leavesOf (rows.flatMap Row.trees)) (hdirective : isDirective t = true) :
    (∃ before after, rows = before ++ .directive t :: after) ∨ ∃ r ∈ keptRows open_ rows, t ∈ (leavesOf r.trees).tail := by
  induction h with
  | nil => cases ht
  | @directive open_ u rows _ _ ih =>
    rw [List.flatMap_cons, leavesOf_append] at ht
    rcases List.mem_append.1 ht with ht | ht
    · obtain rfl : t = u := by simpa [Row.trees, leavesOf, Tree.leaves] using ht
      exact .inl ⟨[], rows, rfl⟩
    · rcases ih ht with ⟨before, after, rfl⟩ | ⟨r, hr, hmem⟩
      · exact .inl ⟨.directive u :: before, after, rfl⟩
      · exact .inr ⟨r, mem_keptRows_of_tail hr, hmem⟩
  | @declaration open_ trees rows hd hplain _ ih =>
    rw [List.flatMap_cons, leavesOf_append] at ht
    rcases List.mem_append.1 ht with ht | ht
    · refine .inr ⟨.declaration trees, mem_keptRows_head ?_, ?_⟩
      · by_contra hopen
        have hno := (hplain (by simpa [Row.isKept] using hopen) t ht).2.2
        rw [hdirective] at hno
        cases hno
      · -- A declaration begins with a word.
        obtain ⟨tree, ts, rfl, hword⟩ := hd.exists_cons
        rw [Row.trees, leavesOf_cons_eq] at ht
        rcases List.mem_cons.1 ht with rfl | ht
        · have hfirst := isDirectiveTree_of_isWord hword
          cases tree with
          | group => cases hword
          | leaf token =>
            rw [isDirectiveTree] at hfirst
            rw [show isDirective token = true from hdirective] at hfirst
            cases hfirst
        · exact ht
    · rcases ih ht with ⟨before, after, rfl⟩ | ⟨r, hr, hmem⟩
      · exact .inl ⟨.declaration trees :: before, after, rfl⟩
      · exact .inr ⟨r, mem_keptRows_of_tail hr, hmem⟩

theorem Rows.unreadable (h : Rows open_ rows) : unreadable (rows.flatMap Row.trees) = [] := by
  induction h with
  | nil => rfl
  | @directive open_ t rows hdirective _ ih =>
    rw [List.flatMap_cons, Row.trees, List.singleton_append, unreadable_cons_of_no_word, ih]
    rw [isDirective, Bool.and_eq_true, beq_iff_eq] at hdirective
    rw [Tree.isWord, hdirective.1]
    rfl
  | declaration hd _ _ ih => rw [List.flatMap_cons, Row.trees, hd.unreadable, ih]

/-! ## The spans of rows -/

/-- The tokens of a row lie in its span, from the first to the last. -/
theorem span_of_mem_leavesOf (h : Apart (leavesOf r.trees)) (ht : t ∈ leavesOf r.trees) :
    r.region.start ≤ t.start ∧ t.start < t.stop ∧ t.stop ≤ r.region.stop := by
  have hne : r.trees ≠ [] := by
    intro hnil
    rw [hnil] at ht
    cases ht
  have hroom := h.room t ht
  obtain ⟨tree, rest, hcons⟩ := List.exists_cons_of_ne_nil hne
  obtain ⟨front, last, hconcat⟩ := (List.eq_nil_or_concat r.trees).resolve_left hne
  rw [List.concat_eq_append] at hconcat
  refine ⟨?_, hroom, ?_⟩
  · rw [Row.region, hcons]
    rw [hcons] at h ht
    exact h.start_le ht
  · rw [Row.region, hconcat, List.getLast?_concat]
    rw [hconcat] at h ht
    exact h.stop_le ht

theorem Inside.exists_token (h : Inside r k) : ∃ t ∈ leavesOf r.trees, k.node.start = t.start := by
  rcases h with ⟨t, ht, hstart⟩ | ⟨key, hkey, body, -, hnode⟩
  · exact ⟨t, List.mem_of_mem_tail ht, hstart⟩
  · refine ⟨key.firstToken, ?_, by rw [hnode]; rfl⟩
    exact mem_leavesOf.2 ⟨key, (List.dropLast_sublist _).subset hkey, key.firstToken_mem⟩

theorem Inside.span (h : Apart (leavesOf r.trees)) (hinside : Inside r k) :
    r.region.start ≤ k.node.start ∧ k.node.start < r.region.stop ∧
      (r.region.start < k.node.start ∨ k.node.stop < r.region.stop) := by
  rcases hinside with ⟨t, ht, hstart⟩ | ⟨key, hkey, body, hbody, hnode⟩
  · obtain ⟨hle, hlt, hstop⟩ := span_of_mem_leavesOf h (List.mem_of_mem_tail ht)
    refine ⟨by omega, by omega, .inl ?_⟩
    cases hcons : r.trees with
    | nil =>
      rw [hcons] at ht
      cases ht
    | cons tree rest =>
      rw [hcons] at h ht
      rw [Row.region, hcons, hstart]
      exact h.start_lt ht
  · have hmem : key.firstToken ∈ leavesOf r.trees := mem_leavesOf.2 ⟨key, (List.dropLast_sublist _).subset hkey, key.firstToken_mem⟩
    obtain ⟨hle, hlt, hstop⟩ := span_of_mem_leavesOf h hmem
    have hstart : key.start = key.firstToken.start := rfl
    rw [hnode]
    refine ⟨hle, Nat.lt_of_lt_of_le hlt hstop, .inr ?_⟩
    rcases List.eq_nil_or_concat r.trees with hnil | ⟨front, last, hconcat⟩
    · rw [hnil] at hbody
      cases hbody
    · rw [List.concat_eq_append] at hconcat
      rw [hconcat, List.dropLast_concat] at hbody
      rw [Row.region, hconcat, List.getLast?_concat]
      rw [hconcat] at h
      exact h.stop_lt hbody

/-- No row begins before the one in front of it ends. -/
theorem Rows.apart (h : Rows open_ rows) (happart : Apart (leavesOf (rows.flatMap Row.trees))) :
    (∀ r ∈ rows, Apart (leavesOf r.trees) ∧ r.region.start < r.region.stop) ∧
      rows.Pairwise fun a b => a.region.stop ≤ b.region.start := by
  have hordered := happart.ordered
  rw [leavesOf_flatMap, List.pairwise_flatMap] at hordered
  have hapart (r : Row) (hr : r ∈ rows) : Apart (leavesOf r.trees) := by
    refine ⟨hordered.1 r hr, fun t ht => happart.room t ?_⟩
    rw [leavesOf_flatMap]
    exact List.mem_flatMap.2 ⟨r, hr, ht⟩
  have hends (r : Row) (hr : r ∈ rows) : ∃ t ∈ leavesOf r.trees, ∃ u ∈ leavesOf r.trees,
      r.region.start = t.start ∧ r.region.stop = u.stop := by
    obtain ⟨tree, rest, hcons⟩ := h.exists_cons hr
    obtain ⟨front, last, hconcat⟩ := (List.eq_nil_or_concat r.trees).resolve_left (hcons ▸ List.cons_ne_nil tree rest)
    rw [List.concat_eq_append] at hconcat
    refine ⟨tree.firstToken, ?_, last.lastToken, ?_, ?_, ?_⟩
    · exact mem_leavesOf.2 ⟨tree, by rw [hcons]; exact List.mem_cons_self, tree.firstToken_mem⟩
    · exact mem_leavesOf.2 ⟨last, by rw [hconcat]; simp, last.lastToken_mem⟩
    · rw [Row.region, hcons]
      rfl
    · rw [Row.region, hconcat, List.getLast?_concat]
      rfl
  refine ⟨fun r hr => ⟨hapart r hr, ?_⟩, ?_⟩
  · obtain ⟨t, ht, -⟩ := hends r hr
    obtain ⟨hle, hlt, hstop⟩ := span_of_mem_leavesOf (hapart r hr) ht
    omega
  · refine hordered.2.imp_of_mem fun {a b} ha hb hab => ?_
    obtain ⟨-, -, u, hu, -, hstop⟩ := hends a ha
    obtain ⟨t, ht, -, -, hstart, -⟩ := hends b hb
    rw [hstop, hstart]
    exact hab u hu t ht

/-! ## Comments -/

/-- The spans of the comments, those in directives included. -/
def commentSpans (source : List Char) : List (Nat × Nat) :=
  ((tokens source).filter (·.isComment)).map (fun t => (t.start, t.stop)) ++
    ((tokens source).filter isDirective).flatMap directiveComments

/-- No token but a comment begins in a comment. -/
theorem not_in_comment {a b : Nat} (hspan : (a, b) ∈ commentSpans source) (ht : t ∈ significant (tokens source)) :
    a ≠ t.start ∧ ¬ (a ≤ t.start ∧ t.start < b) := by
  have hlaid := laid_tokens source
  obtain ⟨u, hu, hcomment, -, -, hstart, hstop⟩ := exists_of_mem_significant ht
  have hroom := hlaid.start_lt_stop hu
  rw [← hstart]
  rcases List.mem_append.1 hspan with hspan | hspan
  · obtain ⟨c, hc, heq⟩ := List.mem_map.1 hspan
    obtain ⟨rfl, rfl⟩ := Prod.mk.inj heq
    obtain ⟨hc, hkind⟩ := List.mem_filter.1 hc
    have hne : u ≠ c := by
      rintro rfl
      rw [hkind] at hcomment
      cases hcomment
    have hroom' := hlaid.start_lt_stop hc
    have hapart := (hlaid.eq_or_apart hu hc).resolve_left hne
    omega
  · obtain ⟨d, hd, hcomments⟩ := List.mem_flatMap.1 hspan
    obtain ⟨hd, hdirective⟩ := List.mem_filter.1 hd
    obtain ⟨hbehind, hbefore, hend⟩ := directiveComments_within hd hdirective hcomments
    rcases hlaid.eq_or_apart hu hd with rfl | hapart
    · omega
    · omega

end PromptPack.Syntax.C
