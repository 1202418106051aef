import PromptPack.Outline.Compress
import PromptPack.Proofs.EscapeFree.Packing
import PromptPack.Proofs.Outline.Maximal
import PromptPack.Proofs.Outline.Shown
import PromptPack.Proofs.Outline.Slices
import PromptPack.Proofs.Regex.Language
/-!
# Outlines without escapes

Whatever a grammar or a search rule finds, an outline shows pieces of its source, and placeholders and separators
that are fixed texts. So the outline of a source without escapes is free of them.
-/

namespace PromptPack.Outline

open Text

variable {language : Language} {source : String}

theorem slice?_subset {cs text : List Char} {start stop : Nat} (h : slice? cs start stop = some text) : text ⊆ cs := by
  obtain ⟨front, back, rfl, -, -⟩ := slice?_eq_some_iff.1 h
  intro c hc
  simp [hc]

/-- What stands somewhere in a source, trimmed. -/
theorem escapeFree_trimmed {text : List Char} (h : EscapeFree source) (htext : text ⊆ source.toList) :
    EscapeFree (String.ofList (trimChars text)) :=
  escapeFree_ofList.2 fun hmark => h (htext (trimChars_subset text hmark))

/-! ## Outlines by grammars -/

theorem escapeFree_placeholder (language : Language) : EscapeFree language.placeholder := by
  cases language <;> exact escapeFree_literal rfl

theorem escapeFree_separator : EscapeFree separator := escapeFree_literal rfl

theorem escapeFree_chunk {h : Hit} {c : Chunk} (hsource : EscapeFree source)
    (hc : h.chunk? language source.toList = some c) : EscapeFree c.content := by
  obtain ⟨shown, hshows⟩ := exists_shows hc
  cases hshows with
  | whole htext => exact escapeFree_trimmed hsource (slice?_subset htext)
  | signature _ _ _ htext =>
    exact (escapeFree_trimmed hsource (slice?_subset htext)).append (escapeFree_placeholder language)

theorem escapeFree_assemble {chunks : List Chunk} (h : ∀ c ∈ chunks, EscapeFree c.content) :
    EscapeFree (assemble chunks) := by
  rw [assemble_eq]
  split
  · exact escapeFree_literal rfl
  · refine escapeFree_join fun block hblock => ?_
    obtain ⟨c, hc, rfl⟩ := List.mem_map.1 hblock
    exact (h c (mem_of_mem_selected hc)).append escapeFree_separator

/-! ## Outlines by search rules -/

theorem escapeFree_signatureLine {text : List Char} (h : escapeMark ∉ text) : EscapeFree (signatureLine text) := by
  have hbody : EscapeFree " \x7b ... \x7d // Body removed" := escapeFree_literal rfl
  refine (escapeFree_ofList.2 fun hmark => h ?_).append hbody
  have := trimEndChars_subset _ hmark
  rw [List.mem_reverse] at this
  simpa using (List.dropWhile_sublist _).subset this

theorem escapeFree_extract {rule : Rule} {m : Regex.Match} {e : Extract} (hsource : EscapeFree source)
    (hm : m.text ⊆ source.toList) (he : rule.extract? source.toList m = some e) : EscapeFree e.content := by
  have htrimmed := escapeFree_trimmed hsource hm
  unfold Rule.extract? at he
  dsimp only at he
  split at he
  · split at he
    · cases he
    · cases he
      exact htrimmed
  · split at he
    · cases he
    · cases he
      exact escapeFree_signatureLine (escapeFree_ofList.1 htrimmed)

theorem escapeFree_found {rules : List Rule} (hsource : EscapeFree source) :
    ∀ e ∈ found rules source.toList, EscapeFree e.content := by
  intro e he
  obtain ⟨rule, -, he⟩ := List.mem_flatMap.1 he
  obtain ⟨m, hm, he⟩ := List.mem_filterMap.1 he
  exact escapeFree_extract hsource (Regex.text_infix_of_mem_findAll hm).subset he

theorem escapeFree_nothingFoundIn (language : Language) : EscapeFree (nothingFoundIn language) := by
  cases language <;> decide +kernel

theorem escapeFree_searchOutline {rules : List Rule} (hsource : EscapeFree source) :
    EscapeFree (searchOutline language rules source) := by
  have hblocks : EscapeFree (String.join ((extracts rules source.toList).map (·.content ++ separator))) := by
    refine escapeFree_join fun block hblock => ?_
    obtain ⟨e, he, rfl⟩ := List.mem_map.1 hblock
    have hfound : e ∈ found rules source.toList := List.mem_mergeSort.1 ((outermost_sublist 0 _).subset he)
    exact (escapeFree_found hsource e hfound).append escapeFree_separator
  unfold searchOutline
  dsimp only
  split
  · exact escapeFree_nothingFoundIn language
  · exact hblocks

/-! ## Outlines of files -/

theorem escapeFree_compress {outline : String} (hsource : EscapeFree source)
    (h : compress language source = .ok outline) : EscapeFree outline := by
  unfold compress at h
  split at h
  · unfold ofRules at h
    split at h
    · cases h
      exact escapeFree_searchOutline hsource
    · cases h
  · cases h
    refine escapeFree_assemble fun c hc => ?_
    obtain ⟨hit, -, hc⟩ := List.mem_filterMap.1 hc
    exact escapeFree_chunk hsource hc

theorem plain_compressPath : Outliner.Plain compressPath := by
  intro p text outline htext h
  unfold compressPath at h
  cases hlanguage : Language.identify p with
  | error e =>
    rw [hlanguage] at h
    cases h
  | ok language =>
    rw [hlanguage] at h
    exact escapeFree_compress htext h

end PromptPack.Outline
