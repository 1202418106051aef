import PromptPack.Outline.Compress
import PromptPack.Proofs.Outline.Leading
import PromptPack.Proofs.Syntax.JavaScript.Shifted
import PromptPack.Proofs.Syntax.JavaScript.Starts
/-!
# Exported bindings of functions

A source that is one statement is shown by one chunk, if one of what is found of the statement leads
(`compress_of_first`). So a statement that binds a function is shown by its signature, and its export where the rules
for exports look for such a binding (`bindings_of_functions_elided`).
-/

namespace PromptPack.Syntax.JavaScript

open Outline
open String (utf8Len)

variable {source : List Char} {k t : Token} {ts : List Tree} {g h : Hit} {m : Chunk}

/-! ## Sources that are one statement -/

theorem closeLast_eq {tokens : List Token} (h : stillOpen? [] tokens = some []) : closeLast tokens = tokens := by
  unfold closeLast
  rw [h]
  cases tokens.getLast? <;> rfl

theorem getLast?_significant {ts : List Token} (ht : t ∈ ts.getLast?) (hcomment : t.isComment = false) :
    ∃ u ∈ (significant ts).getLast?, u.stop = t.stop ∧ u.reach = t.reach := by
  have hmap := congrArg List.getLast? (map_significant (f := fun t => (t.stop, t.reach)) (fun _ _ => rfl) ts)
  obtain ⟨front, rfl⟩ := List.getLast?_eq_some_iff.1 ht
  rw [List.filter_append, List.filter_cons_of_pos (by simp [hcomment]), List.filter_nil, List.map_append,
    List.map_singleton, List.getLast?_concat, List.getLast?_map, Option.map_eq_some_iff] at hmap
  obtain ⟨u, hu, heq⟩ := hmap
  exact ⟨u, hu, (Prod.mk.inj heq).1, (Prod.mk.inj heq).2⟩

/-- The trees of a source that ends with a token that is no comment reach up to the end of that token. -/
theorem stopOf_eq {trees : List Tree} (htrees : leavesOf trees = significant (tokens source))
    (ht : t ∈ (tokens source).getLast?) (hcomment : t.isComment = false) :
    stopOf trees = t.stop ∧ freeStopOf trees = t.stop := by
  obtain ⟨u, hu, hstop, hreach⟩ := getLast?_significant ht hcomment
  rw [← htrees] at hu
  rcases List.eq_nil_or_concat trees with rfl | ⟨front, last, rfl⟩
  · cases hu
  · rw [List.concat_eq_append, leavesOf_concat, List.getLast?_concat] at hu
    cases hu
    rw [List.concat_eq_append, stopOf, freeStopOf, List.getLast?_concat]
    refine ⟨hstop, ?_⟩
    dsimp only [Option.map_some, Option.getD_some]
    split
    · exact hstop
    · rw [hreach, reach_of_getLast? ht]

section

variable (hclosed : stillOpen? [] (significant (tokens source)) = some [])
  (htrees : treesOf (significant (tokens source)) = .leaf k :: ts) (hk : k.start = 0)
  (hends : ∀ t ∈ (tokens source).getLast?, t.isComment = false)

include hclosed htrees in
theorem hits_eq : ∃ next, hits source =
    (((tokens source).filter fun t => t.isComment && Text.startsWith t.text "/").map fun t => Hit.whole 1 t.start t.stop) ++
      (statementHits (.leaf k :: ts) ++ hitsInTrees next ts) := by
  unfold hits
  dsimp only
  rw [closeLast_eq hclosed, htrees, hitsInTrees]
  refine ⟨_, congrArg _ (congrArg (· ++ _) ?_)⟩
  exact (List.append_nil _).trans (List.append_nil _)

include htrees in
theorem leavesOf_eq : leavesOf (.leaf k :: ts) = significant (tokens source) := by rw [← htrees, leavesOf_treesOf]

include htrees in
theorem exists_token (ht : t ∈ leavesOf (.leaf k :: ts)) :
    ∃ u ∈ tokens source, u.isComment = false ∧ u.start = t.start := by
  rw [leavesOf_eq htrees] at ht
  obtain ⟨u, hu, hcomment, -, -, hstart, -⟩ := exists_of_mem_significant ht
  exact ⟨u, hu, hcomment, hstart⟩

include htrees hends in
/-- The statement ends where the last token does. -/
theorem exists_last : ∃ last ∈ (tokens source).getLast?,
    stopOf (.leaf k :: ts) = last.stop ∧ freeStopOf (.leaf k :: ts) = last.stop := by
  obtain ⟨u, hu, -⟩ := exists_token htrees (t := k) List.mem_cons_self
  obtain ⟨last, hlast⟩ := Option.isSome_iff_exists.1 (List.getLast?_isSome.2 (List.ne_nil_of_mem hu))
  exact ⟨last, hlast, stopOf_eq (leavesOf_eq htrees) hlast (hends last hlast)⟩

include htrees hends in
theorem freeStopOf_eq : freeStopOf (.leaf k :: ts) = stopOf (.leaf k :: ts) := by
  obtain ⟨last, -, hstop, hfree⟩ := exists_last htrees hends
  rw [hstop, hfree]

include htrees hends in
theorem start_lt_stop (ht : t ∈ tokens source) : t.start < stopOf (.leaf k :: ts) := by
  have hlaid := laid_tokens source
  obtain ⟨last, hlast, hstop, -⟩ := exists_last htrees hends
  rw [hstop]
  have hordered := hlaid.ordered.2
  have hroom := hlaid.start_lt_stop ht
  have hlastRoom := hlaid.start_lt_stop (List.mem_of_getLast? hlast)
  obtain ⟨front, heq⟩ := List.getLast?_eq_some_iff.1 hlast
  rw [heq] at ht hordered
  rcases List.mem_append.1 ht with ht | ht
  · have := (List.pairwise_append.1 hordered).2.2 t ht last (List.mem_singleton_self last)
    omega
  · rwa [List.mem_singleton.1 ht]

include htrees hk in
theorem start_pos_of_comment (ht : t ∈ tokens source) (hcomment : t.isComment = true) : 0 < t.start := by
  have hlaid := laid_tokens source
  obtain ⟨u, hu, hword, hstart⟩ := exists_token htrees (t := k) List.mem_cons_self
  have hroom := hlaid.start_lt_stop hu
  rcases hlaid.eq_or_apart ht hu with rfl | happart
  · rw [hcomment] at hword
    cases hword
  · have := hlaid.start_lt_stop ht
    omega

include htrees hk in
theorem start_pos_of_mem (ht : t ∈ leavesOf ts) : 0 < t.start := by
  have happart : Apart (leavesOf (.leaf k :: ts)) := by
    rw [leavesOf_eq htrees]
    exact (laid_tokens source).apart.significant
  have hlt : (Tree.leaf k).start < t.start := happart.start_lt ht
  rwa [show (Tree.leaf k).start = 0 from hk] at hlt

/-- A hit gives way to the first one and its chunk: it is not the same, and begins in the statement, behind the start or
with all of the statement where the chunk leaves out a body. -/
structure GivesWay (h : Hit) (m : Chunk) (stop : Nat) (g : Hit) : Prop where
  key_ne : g.key ≠ h.key
  start_lt : g.node.start < stop
  behind : 0 < g.node.start ∨ g.node = h.node ∧ g.part = .whole ∧ m.shape = .elided

theorem GivesWay.of_start_pos {stop : Nat} (hstart : h.node.start = 0) (hpos : 0 < g.node.start)
    (hlt : g.node.start < stop) : GivesWay h m stop g where
  key_ne heq := by
    have hsame : g.node.start = h.node.start := congrArg (fun key => key.2.1.start) heq
    omega
  start_lt := hlt
  behind := .inl hpos

theorem GivesWay.leads {stop : Nat} {c : Chunk} (hg : GivesWay h m stop g) (hnode : h.node = ⟨0, stop⟩)
    (hchunk : h.chunk? .javascript source = some m) (hshape : m.shape = .elided ∨ m.shape = .verbatim)
    (hc : g.chunk? .javascript source = some c) : m.Leads c := by
  obtain ⟨hstart, hstop⟩ := chunk?_place hchunk
  obtain ⟨hcstart, hcstop⟩ := chunk?_place hc
  have hcovers : m.covers = ⟨m.start, m.stop⟩ := by
    rcases hshape with hshape | hshape <;> rw [Chunk.covers, hshape]
  refine ⟨?before, Chunk.accountsFor_iff.2 ⟨?_, ?_⟩⟩
  case before =>
    have hmstart : m.start = 0 := by rw [hstart, hnode]
    rw [← Bool.not_eq_true, Chunk.le_iff]
    rcases hg.behind with hpos | ⟨hsame, hwhole, helided⟩
    · omega
    · -- Of two chunks for the same the one without the body comes first.
      have hverbatim : c.shape = .verbatim := by
        rw [Hit.chunk?, hwhole] at hc
        exact verbatimChunk?_shape hc
      have hrank : ¬ c.shape.rank ≤ m.shape.rank := by
        rw [hverbatim, helided]
        decide
      rw [hcstart, hcstop, hsame, hstart, hstop]
      omega
  · rw [hstart, hnode]
    exact Nat.zero_le _
  · rw [hcovers, hstop, hnode, hcstart]
    exact Nat.lt_of_lt_of_le hg.start_lt (Nat.le_max_left _ _)

section

variable {others : List Hit} (hfirst : statementHits (.leaf k :: ts) = h :: others)
  (hnode : h.node = ⟨0, stopOf (.leaf k :: ts)⟩) (hothers : ∀ g ∈ others, GivesWay h m (stopOf (.leaf k :: ts)) g)

include hclosed htrees hk hends hfirst hnode hothers in
/-- All that is found gives way to the first, if the rest of what is found of the statement does. -/
theorem eq_or_givesWay (hg : g ∈ hits source) : g = h ∨ GivesWay h m (stopOf (.leaf k :: ts)) g := by
  have hstart : h.node.start = 0 := by rw [hnode]
  obtain ⟨next, hhits⟩ := hits_eq hclosed htrees
  rw [hhits, hfirst, List.mem_append, List.mem_append, List.mem_cons] at hg
  rcases hg with hg | (rfl | hg) | hg
  · obtain ⟨t, ht, rfl⟩ := List.mem_map.1 hg
    obtain ⟨ht, hcomment⟩ := List.mem_filter.1 ht
    rw [Bool.and_eq_true] at hcomment
    exact .inr (.of_start_pos hstart (start_pos_of_comment htrees hk ht hcomment.1) (start_lt_stop htrees hends ht))
  · exact .inl rfl
  · exact .inr (hothers g hg)
  · obtain ⟨u, hu, hgstart⟩ := start_mem_of_mem_hitsInTrees next ts hg
    obtain ⟨t, ht, -, htstart⟩ := exists_token htrees (List.mem_cons_of_mem k hu)
    have hpos := start_pos_of_mem htrees hk hu
    have hlt := start_lt_stop htrees hends ht
    rw [htstart, ← hgstart] at hlt
    exact .inr (.of_start_pos hstart (hgstart ▸ hpos) hlt)

include hclosed htrees hk hends hfirst hnode hothers in
/-- A source that is one statement is shown by the first of what is found of it, if that is all of the statement and
the others give way. -/
theorem compress_of_first (hchunk : h.chunk? .javascript source = some m)
    (hshape : m.shape = .elided ∨ m.shape = .verbatim) :
    compress .javascript (String.ofList source) = .ok (m.content ++ separator) := by
  have hcases {g : Hit} (hg : g ∈ hits source) : g = h ∨ GivesWay h m (stopOf (.leaf k :: ts)) g :=
    eq_or_givesWay hclosed htrees hk hends hfirst hnode hothers hg
  have hmem : h ∈ hits source := by
    obtain ⟨next, hhits⟩ := hits_eq hclosed htrees
    rw [hhits, hfirst]
    simp
  have hlead : Lead (fun _ => true) (chunksOf .javascript source (distinctHits (hits source))) [m] := by
    refine ⟨fun c hc => ?mem, List.pairwise_singleton _ _, fun c hc _ => ?leads,
      fun _ _ h => absurd h.symm Bool.false_ne_true⟩
    case mem =>
      rw [List.mem_singleton.1 hc]
      exact ⟨mem_chunksOf_distinctHits hmem (fun g hg hkey => (hcases hg).resolve_right fun h => h.key_ne hkey) hchunk, rfl⟩
    case leads =>
      obtain ⟨g, hg, hgchunk⟩ := exists_hit_of_mem_chunksOf hc
      rcases hcases hg with rfl | hway
      · rw [hgchunk] at hchunk
        cases hchunk
        exact .inl (List.mem_singleton_self m)
      · exact .inr ⟨m, List.mem_singleton_self m, hway.leads hnode hchunk hshape hgchunk⟩
  have hchunks : chunks .javascript (String.ofList source) = chunksOf .javascript source (distinctHits (hits source)) := by
    rw [chunks, String.toList_ofList]
    rfl
  rw [← assemble_of_lead hlead, ← hchunks]
  rfl

end

end

/-! ## Sources that bind a function -/

/-- The source is one statement, which binds a function by the keyword. It begins with the keyword, ends with no comment,
and closes its brackets. -/
structure Declares (source : List Char) (keyword : String) (b : Binding) : Prop where
  keyword_mem : keyword ∈ keywords
  begins : ∃ rest, source = keyword.toList ++ rest ∧ ∀ c ∈ rest.head?, isName c = false
  trees : ∃ k, treesOf (significant (tokens source)) = .leaf k :: b.trees
  one : statement (treesOf (significant (tokens source))) = treesOf (significant (tokens source))
  ends : ∀ t ∈ (tokens source).getLast?, t.isComment = false
  closed : stillOpen? [] (significant (tokens source)) = some []

theorem exists_cons_of_keyword {keyword : String} (h : keyword ∈ keywords) :
    ∃ c word, keyword.toList = c :: word ∧ c.isLower = true ∧ ∀ d ∈ c :: word, isName d = true := by
  have hname : ∀ keyword ∈ keywords, keyword.toList.all isName = true := by decide
  have hletters := List.all_eq_true.1 (hname keyword h)
  simp only [keywords, List.mem_cons, List.not_mem_nil, or_false] at h
  rcases h with rfl | rfl | rfl
  · exact ⟨'c', "onst".toList, rfl, by decide, hletters⟩
  · exact ⟨'l', "et".toList, rfl, by decide, hletters⟩
  · exact ⟨'v', "ar".toList, rfl, by decide, hletters⟩

theorem stillOpen?_shift (d : Nat) (open_ : List String) (ts : List Token) :
    stillOpen? open_ (ts.map (shift d)) = stillOpen? open_ ts := by
  induction ts generalizing open_ with
  | nil => rfl
  | cons t ts ih =>
    have hkind : (shift d t).kind = t.kind := rfl
    have htext : (shift d t).text = t.text := rfl
    simp only [List.map_cons, stillOpen?, hkind, htext, ih]

namespace Declares

variable {keyword : String} {b : Binding} (hb : Declares source keyword b)
include hb

theorem exists_tokens : ∃ reach behind,
    significant (tokens source) = { wordAt keyword.toList 0 true with reach } :: behind ∧ treesOf behind = b.trees ∧
      significant (tokens (exported source)) = wordAt "export".toList 0 true ::
        { wordAt keyword.toList 7 false with reach := reach + 7 } :: behind.map (shift 7) := by
  obtain ⟨rest, rfl, hrest⟩ := hb.begins
  obtain ⟨c, word, heq, hc, hword⟩ := exists_cons_of_keyword hb.keyword_mem
  obtain ⟨k, htrees⟩ := hb.trees
  rw [heq] at htrees ⊢
  obtain ⟨reach, behind, htokens, hexported⟩ := significant_exported hc hword hrest
  have hkind : ({ wordAt (c :: word) 0 true with reach } : Token).kind ≠ .mark := (by decide : Kind.word ≠ .mark)
  refine ⟨reach, behind, htokens, ?_, hexported⟩
  rw [htokens, treesOf_cons hkind] at htrees
  exact (List.cons.inj htrees).2

theorem ends_exported (ht : t ∈ (tokens (exported source)).getLast?) : t.isComment = false := by
  have hends := hb.ends
  obtain ⟨rest, rfl, hrest⟩ := hb.begins
  obtain ⟨c, word, heq, hc, hword⟩ := exists_cons_of_keyword hb.keyword_mem
  rw [heq] at hends ht
  obtain ⟨reach, behind, htokens, hexported⟩ := tokens_exported hc hword hrest
  rw [htokens] at hends
  rw [hexported, List.getLast?_cons_cons] at ht
  cases behind with
  | nil =>
    rw [List.map_nil, List.getLast?_singleton] at ht
    rw [← Option.some.inj ht]
    rfl
  | cons u us =>
    rw [List.getLast?_cons_cons] at hends
    rw [List.map_cons, List.getLast?_cons_cons, ← List.map_cons, List.getLast?_map] at ht
    obtain ⟨v, hv, rfl⟩ := Option.map_eq_some_iff.1 ht
    exact hends v hv

theorem closed_exported : stillOpen? [] (significant (tokens (exported source))) = some [] := by
  have hclosed := hb.closed
  obtain ⟨reach, behind, htokens, -, hexported⟩ := hb.exists_tokens
  rw [htokens] at hclosed
  rw [hexported, ← hclosed]
  exact stillOpen?_shift 7 [] behind

/-- The source and its export are read as the keyword and the binding, which stands further on in the export. -/
theorem exists_trees : ∃ k k' : Token,
    (treesOf (significant (tokens source)) = .leaf k :: b.trees ∧ k.start = 0 ∧ (Tree.leaf k).is keyword = true) ∧
    treesOf (significant (tokens (exported source))) =
      .leaf (wordAt "export".toList 0 true) :: .leaf k' :: (b.shift 7).trees ∧
    k'.start = 7 ∧ k'.fresh = false ∧ (Tree.leaf k').is keyword = true ∧
    statement (.leaf k' :: (b.shift 7).trees) = .leaf k' :: (b.shift 7).trees := by
  obtain ⟨reach, behind, htokens, htrees, hexported⟩ := hb.exists_tokens
  have hone := hb.one
  have hword (pos reach : Nat) (fresh : Bool) :
      ({ wordAt keyword.toList pos fresh with reach } : Token).kind = .word ∧
        (Tree.leaf { wordAt keyword.toList pos fresh with reach }).is keyword = true := by
    refine ⟨rfl, ?_⟩
    rw [Tree.is, Token.is, wordAt]
    simp
  have hkind (pos reach : Nat) (fresh : Bool) : ({ wordAt keyword.toList pos fresh with reach } : Token).kind ≠ .mark := by
    rw [(hword pos reach fresh).1]
    decide
  rw [htokens, treesOf_cons (hkind 0 reach true), htrees] at hone ⊢
  rw [hexported, treesOf_cons (by decide), treesOf_cons (hkind 7 (reach + 7) false), treesOf_map (f := shift 7) (fun _ => rfl)
    (fun _ => rfl), htrees, b.trees_shift]
  refine ⟨_, _, ⟨rfl, rfl, (hword 0 reach true).2⟩, rfl, rfl, rfl, (hword 7 (reach + 7) false).2, ?_⟩
  refine statement_shift 7 ?_ ?_ hone <;> rfl

/-- The text of the statement up to the body of the function, and from there on. -/
theorem exists_text : ∃ signature body rest, source = signature ++ (body ++ rest) ∧
    utf8Len signature = b.region.start ∧ utf8Len (signature ++ body) = stopOf b.trees ∧ 0 < b.region.start := by
  obtain ⟨k, k', ⟨htrees, hk, -⟩, -⟩ := hb.exists_trees
  obtain ⟨t, ht, hstart⟩ := b.exists_region_start
  have hleaf : t.firstToken ∈ leavesOf b.trees := mem_leavesOf.2 ⟨t, ht, t.firstToken_mem⟩
  have hpos : 0 < b.region.start := hstart ▸ start_pos_of_mem htrees hk hleaf
  obtain ⟨u, hu, -, hustart⟩ := exists_token htrees (List.mem_cons_of_mem k hleaf)
  obtain ⟨last, hlast, hstop, -⟩ := exists_last htrees hb.ends
  have hcut : b.region.start = u.start := hstart.trans hustart.symm
  have hlt := start_lt_stop htrees hb.ends hu
  have hlaid := laid_tokens source
  rw [stopOf_cons _ b.trees_ne_nil] at hstop hlt
  obtain ⟨body, hslice⟩ := (hlaid.cuts hu).1.exists_slice (hlaid.cuts (List.mem_of_getLast? hlast)).2
    (Nat.le_of_lt (hstop ▸ hlt))
  obtain ⟨signature, rest, hsource, hlength, hend⟩ := slice?_eq_some_iff.1 hslice
  exact ⟨signature, body, rest, hsource, hlength.trans hcut.symm, hend.trans hstop.symm, hpos⟩

end Declares

/-! ## Their chunks -/

variable {signature body rest : List Char} {rule stop bodyStop : Nat}

/-- The text without the blanks at its ends. -/
def shown (text : List Char) : String := String.ofList (Text.trimChars text)

/-- The text without the blanks at its ends, and the placeholder for a body. -/
def elided (text : List Char) : String := shown text ++ Language.javascript.placeholder

theorem chunk?_signature (hpos : 0 < utf8Len signature) (hle : utf8Len signature ≤ stop) :
    (Hit.signature rule 0 stop (utf8Len signature) bodyStop).chunk? .javascript (signature ++ rest) =
      some ⟨elided signature, 0, stop, .elided⟩ := by
  have hinside : ¬ (utf8Len signature ≤ 0 || stop < utf8Len signature) = true := by
    simp only [Bool.or_eq_true, decide_eq_true_eq]
    omega
  have hchunk : (Hit.signature rule 0 stop (utf8Len signature) bodyStop).chunk? .javascript (signature ++ rest) =
      if utf8Len signature ≤ 0 || stop < utf8Len signature then verbatimChunk? (signature ++ rest) ⟨0, stop⟩
      else (slice? (signature ++ rest) 0 (utf8Len signature)).map fun text => ⟨elided text, 0, stop, .elided⟩ := rfl
  rw [hchunk, if_neg hinside, slice?_zero_utf8Len, Option.map_some]

theorem chunk?_exported (text : List Char) : (Hit.whole rule 0 (utf8Len (exported text))).chunk? .javascript
    (exported text ++ rest) = some ⟨shown (exported text), 0, utf8Len (exported text), .verbatim⟩ := by
  have hslice := slice?_zero_utf8Len (exported text) rest
  have hvisible : VisibleAt (exported text ++ rest) 0 :=
    ⟨'e', slice?_zero_utf8Len ['e'] ("xport ".toList ++ text ++ rest), by decide⟩
  have hpos : 0 < utf8Len (exported text) := by
    unfold exported
    rw [String.utf8Len_append]
    exact Nat.lt_of_lt_of_le (by decide) (Nat.le_add_right 7 _)
  have hne := trimChars_ne_nil hvisible hslice hpos
  have hchunk : (Hit.whole rule 0 (utf8Len (exported text))).chunk? .javascript (exported text ++ rest) =
      verbatimChunk? (exported text ++ rest) ⟨0, utf8Len (exported text)⟩ := rfl
  rw [hchunk, verbatimChunk?]
  dsimp only
  rw [hslice]
  exact if_neg (by simpa using hne)

theorem exported_append (text rest : List Char) : exported (text ++ rest) = exported text ++ rest := by
  unfold exported
  rw [List.append_assoc]

theorem utf8Len_exported (text : List Char) : utf8Len (exported text) = utf8Len text + 7 := by
  unfold exported
  rw [String.utf8Len_append, Nat.add_comm]
  rfl

namespace Declares

variable {keyword : String} {b : Binding}

section

variable (hb : Declares (signature ++ (body ++ rest)) keyword b) (hsignature : utf8Len signature = b.region.start)
  (hbody : utf8Len (signature ++ body) = stopOf b.trees)
include hb hsignature hbody

/-- A statement that binds a function is shown by its signature. -/
theorem compress_eq (hpos : 0 < b.region.start) :
    compress .javascript (String.ofList (signature ++ (body ++ rest))) = .ok (elided signature ++ separator) := by
  obtain ⟨k, -, ⟨htrees, hk, hkeyword⟩, -⟩ := hb.exists_trees
  have hone := hb.one
  rw [htrees] at hone
  have hstop : stopOf (.leaf k :: b.trees) = utf8Len (signature ++ body) := by
    rw [stopOf_cons _ b.trees_ne_nil, hbody]
  refine compress_of_first hb.closed htrees hk hb.ends (b.statementHits_eq hkeyword hb.keyword_mem hone) ?_ nofun
    (m := ⟨elided signature, 0, stopOf (.leaf k :: b.trees), .elided⟩) ?_ (.inl rfl)
  · rw [freeStopOf_eq htrees hb.ends]
    exact congrArg (Region.mk · _) hk
  · have hstart : (Tree.leaf k).start = 0 := hk
    rw [hstart, freeStopOf_eq htrees hb.ends, ← hsignature, hstop]
    refine chunk?_signature (hsignature ▸ hpos) ?_
    rw [String.utf8Len_append]
    exact Nat.le_add_right _ _

/-- An exported one is found as a whole, by its signature before that if it is an arrow function and no old variable, and
once more behind the word for exports. -/
theorem exists_statementHits_exported : ∃ (trees : List Tree) (bodyStop : Nat) (inner : Hit),
    treesOf (significant (tokens (exported (signature ++ (body ++ rest))))) =
      .leaf (wordAt "export".toList 0 true) :: trees ∧
    stopOf (.leaf (wordAt "export".toList 0 true) :: trees) = utf8Len (exported (signature ++ body)) ∧
    inner.node.start = 7 ∧
    statementHits (.leaf (wordAt "export".toList 0 true) :: trees) =
      (if keyword = "var" then [Hit.whole 17 0 (utf8Len (exported (signature ++ body)))]
        else (if b.arrow then [Hit.signature 15 0 (utf8Len (exported (signature ++ body))) (utf8Len (exported signature))
          bodyStop] else []) ++ [Hit.whole 16 0 (utf8Len (exported (signature ++ body)))]) ++ [inner] := by
  obtain ⟨-, k, -, htrees, hk, hfresh, hkeyword, hone⟩ := hb.exists_trees
  have hstop : stopOf (.leaf (wordAt "export".toList 0 true) :: .leaf k :: (b.shift 7).trees) =
      utf8Len (exported (signature ++ body)) := by
    rw [stopOf_cons _ (List.cons_ne_nil _ _), stopOf_cons _ (b.shift 7).trees_ne_nil, b.trees_shift,
      stopOf_shift 7 b.trees_ne_nil, utf8Len_exported, hbody]
  have hexport : (Tree.leaf (wordAt "export".toList 0 true)).is "export" = true := by decide
  have hhits := (b.shift 7).statementHits_exported hkeyword hb.keyword_mem hone hexport hfresh
  have hstart : (Tree.leaf (wordAt "export".toList 0 true)).start = 0 := rfl
  have hbodyStart : (b.shift 7).region.start = utf8Len (exported signature) := by
    rw [b.region_start_shift, ← hsignature, utf8Len_exported]
  rw [freeStopOf_eq htrees fun _ => hb.ends_exported, hstop, hbodyStart, hstart] at hhits
  simp only [beq_iff_eq] at hhits
  have hinner {rule stop bodyStart bodyStop : Nat} :
      (Hit.signature rule (Tree.leaf k).start stop bodyStart bodyStop).node.start = 7 := hk
  exact ⟨_, _, _, htrees, hstop, hinner, hhits⟩

/-- An exported one is shown by its signature if it is an arrow function and no old variable, else as a whole. -/
theorem compress_exported (hpos : 0 < b.region.start) :
    compress .javascript (String.ofList (exported (signature ++ (body ++ rest)))) =
      .ok ((if b.arrow = true ∧ keyword ≠ "var" then elided (exported signature)
        else shown (exported (signature ++ body))) ++ separator) := by
  obtain ⟨trees, bodyStop, inner, htrees, hstop, hinner, hhits⟩ := hb.exists_statementHits_exported hsignature hbody
  have hlength : utf8Len (exported (signature ++ body)) = utf8Len signature + utf8Len body + 7 := by
    rw [utf8Len_exported, String.utf8Len_append]
  have hnode (h : Hit) (hh : h.node = ⟨0, utf8Len (exported (signature ++ body))⟩) :
      h.node = ⟨0, stopOf (.leaf (wordAt "export".toList 0 true) :: trees)⟩ := by rw [hh, hstop]
  have hway {h : Hit} {m : Chunk} (hh : h.node.start = 0) :
      GivesWay h m (stopOf (.leaf (wordAt "export".toList 0 true) :: trees)) inner :=
    .of_start_pos hh (by omega) (by omega)
  have hwhole {rule : Nat} (hhits : statementHits (.leaf (wordAt "export".toList 0 true) :: trees) =
      [Hit.whole rule 0 (utf8Len (exported (signature ++ body))), inner]) :
      compress .javascript (String.ofList (exported (signature ++ (body ++ rest)))) =
        .ok (shown (exported (signature ++ body)) ++ separator) := by
    refine compress_of_first hb.closed_exported htrees rfl (fun _ => hb.ends_exported) hhits (hnode _ rfl)
      (m := ⟨shown (exported (signature ++ body)), 0, utf8Len (exported (signature ++ body)), .verbatim⟩)
      (List.forall_mem_singleton.2 (hway rfl)) ?_ (.inr rfl)
    rw [← List.append_assoc, exported_append]
    exact chunk?_exported _
  by_cases hvar : keyword = "var"
  · rw [if_pos hvar, List.singleton_append] at hhits
    rw [if_neg fun h => h.2 hvar]
    exact hwhole hhits
  · rw [if_neg hvar] at hhits
    cases hkind : b.arrow with
    | false =>
      rw [hkind, if_neg Bool.false_ne_true, List.nil_append, List.singleton_append] at hhits
      rw [if_neg fun h => Bool.false_ne_true h.1]
      exact hwhole hhits
    | true =>
      rw [hkind, if_pos rfl, List.singleton_append, List.cons_append, List.singleton_append] at hhits
      rw [if_pos ⟨rfl, hvar⟩]
      refine compress_of_first hb.closed_exported htrees rfl (fun _ => hb.ends_exported) hhits (hnode _ rfl)
        (m := ⟨elided (exported signature), 0, utf8Len (exported (signature ++ body)), .elided⟩)
        (List.forall_mem_cons.2 ⟨⟨?_, ?_, .inr ⟨rfl, rfl, rfl⟩⟩, List.forall_mem_singleton.2 (hway rfl)⟩) ?_ (.inl rfl)
      · -- The export as a whole stands in the same place, but with its body.
        simp [Hit.key, Hit.whole, Hit.signature]
      · show 0 < _
        omega
      · rw [exported_append]
        refine chunk?_signature ?_ ?_ <;> rw [utf8Len_exported] <;> omega

end

end Declares

/-- A function without parameters behind a keyword of three letters. -/
def constantFunction : Binding where
  name := .leaf ⟨.word, "f", 4, 5, false, 5⟩
  sign := .leaf ⟨.mark, "=", 6, 7, false, 7⟩
  arrow := true
  head := [.group ⟨.mark, "(", 8, 9, false, 9⟩ [] ⟨.mark, ")", 9, 10, false, 10⟩, .leaf ⟨.mark, "=>", 11, 13, false, 13⟩]
  body := [.leaf ⟨.number, "1", 14, 15, false, 15⟩]
  semicolon := some (.leaf ⟨.mark, ";", 15, 16, false, 16⟩)
  name_isBindable := by decide
  sign_is := rfl
  value := .arrow none nofun (.inr rfl) rfl (fun _ => rfl) (by decide)
  semicolon_is := by rintro t ⟨⟩; rfl

theorem declares_constantFunction {keyword : String} (h : keyword = "let" ∨ keyword = "var") :
    Declares (keyword ++ " f = () => 1;\n").toList keyword constantFunction := by
  have htrees : significant (tokens (keyword ++ " f = () => 1;\n").toList) =
      ⟨.word, keyword, 0, 3, true, 3⟩ :: leavesOf constantFunction.trees := by
    rcases h with rfl | rfl <;> decide +kernel
  have hword : keyword ∈ keywords := by rcases h with rfl | rfl <;> decide
  have htreesOf : treesOf (significant (tokens (keyword ++ " f = () => 1;\n").toList)) =
      .leaf ⟨.word, keyword, 0, 3, true, 3⟩ :: constantFunction.trees := by
    rw [htrees]
    rfl
  refine ⟨hword, ⟨" f = () => 1;\n".toList, String.toList_append, ?_⟩, ⟨_, htreesOf⟩, ?_, ?_, ?_⟩
  · rintro c ⟨⟩
    decide
  · rw [htreesOf]
    rcases h with rfl | rfl <;> rfl
  · rcases h with rfl | rfl <;> decide +kernel
  · rw [htrees]
    rfl

end PromptPack.Syntax.JavaScript
