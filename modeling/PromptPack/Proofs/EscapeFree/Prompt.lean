import PromptPack.Proofs.EscapeFree.Packing
import PromptPack.Proofs.EscapeFree.Template
import PromptPack.Proofs.Prompt.Builtin
import PromptPack.Report
/-!
# Prompts without escapes

A prompt is free of escapes when its template and what it is rendered from are; the built-in template always is. In a
JSON document a character that begins an escape sequence is itself written with an escape of JSON, so a document is
free of escapes whatever it says.
-/

namespace PromptPack

/-! ## Prompts -/

theorem FileEntry.Plain.toData {f : FileEntry} (h : f.Plain) : f.toData.Plain := by
  have hcode : EscapeFree "code" := escapeFree_literal rfl
  have hextension : EscapeFree "extension" := escapeFree_literal rfl
  have hpath : EscapeFree "path" := escapeFree_literal rfl
  refine Data.Plain.ofFields ?_
  simp only [List.forall_mem_cons]
  exact ⟨⟨hcode, .text h.code⟩, ⟨hextension, .text h.extension⟩, ⟨hpath, .text h.path⟩, List.forall_mem_nil _⟩

namespace PromptContext

/-- All texts that a template can refer to are free of escapes. -/
structure Plain (c : PromptContext) : Prop where
  absoluteCodePath : EscapeFree c.absoluteCodePath
  sourceTrees : EscapeFree c.sourceTrees
  files : ∀ f ∈ c.files, f.Plain
  gitDiff : EscapeFree c.gitDiff
  gitDiffBranch : EscapeFree c.gitDiffBranch
  gitLogBranch : EscapeFree c.gitLogBranch

theorem Plain.toData {c : PromptContext} (h : c.Plain) : c.toData.Plain := by
  have hfiles : ∀ d ∈ c.files.map FileEntry.toData, d.Plain := by
    intro d hd
    obtain ⟨f, hf, rfl⟩ := List.mem_map.1 hd
    exact (h.files f hf).toData
  have hnames : ∀ name ∈ ["absolute_code_path", "files", "git_diff", "git_diff_branch", "git_log_branch", "source_trees"],
      EscapeFree name := by decide +kernel
  simp only [List.forall_mem_cons] at hnames
  obtain ⟨h₁, h₂, h₃, h₄, h₅, h₆, -⟩ := hnames
  refine Data.Plain.ofFields ?_
  simp only [List.forall_mem_cons]
  exact ⟨⟨h₁, .text h.absoluteCodePath⟩, ⟨h₂, .list hfiles⟩, ⟨h₃, .text h.gitDiff⟩, ⟨h₄, .text h.gitDiffBranch⟩,
    ⟨h₅, .text h.gitLogBranch⟩, ⟨h₆, .text h.sourceTrees⟩, List.forall_mem_nil _⟩

end PromptContext

namespace PromptTemplate

open Template

/-- The template says no escapes, in its texts or in its literals. -/
def Plain (t : PromptTemplate) : Prop := ∀ nodes, parse? t.source = some nodes → ∀ n ∈ nodes, n.Plain

theorem plain_fieldNode (name : String) : (fieldNode name).Plain := .value _ ⟨by simp, by simp, by simp⟩

theorem plain_blockNode {helper name : String} {body : List Node} (h : ∀ n ∈ body, n.Plain) :
    (blockNode helper name body).Plain :=
  .block false ⟨by simpa using .ref _, by simp, by simp⟩ h (by simp)

theorem plain_sectionNode {value title fence : String} (htitle : EscapeFree title) (hfence : EscapeFree fence) :
    (sectionNode value title fence).Plain := by
  have hrule : EscapeFree rule := escapeFree_literal rfl
  have hcolon : EscapeFree ":\n\n" := escapeFree_literal rfl
  have hgap : EscapeFree "\n\n" := escapeFree_literal rfl
  refine plain_blockNode ?_
  simp only [List.forall_mem_cons]
  exact ⟨.text ((((htitle.append hcolon).append hrule).append hfence).append escapeFree_newline), plain_fieldNode value,
    .text ((escapeFree_newline.append hrule).append hgap), List.forall_mem_nil _⟩

theorem plain_builtin : builtin.Plain := by
  intro nodes hnodes
  obtain rfl : builtinNodes = nodes := Option.some.inj (parse?_builtinSource.symm.trans hnodes)
  have htext {s : String} (h : EscapeFree s) : (Node.text s).Plain := .text h
  have hfile : fileNode.Plain := by
    refine plain_blockNode ?_
    simp only [List.forall_mem_cons]
    exact ⟨htext (escapeFree_literal rfl), plain_fieldNode _, htext (escapeFree_literal rfl),
      plain_fieldNode _, htext (escapeFree_literal rfl), List.forall_mem_nil _⟩
  unfold builtinNodes
  simp only [List.forall_mem_cons]
  exact ⟨htext (escapeFree_literal rfl), plain_fieldNode _, htext (by decide +kernel), plain_fieldNode _,
    htext (by decide +kernel), plain_blockNode (by simpa using hfile),
    plain_sectionNode (escapeFree_literal rfl) (escapeFree_literal rfl),
    plain_sectionNode (escapeFree_literal rfl) (escapeFree_literal rfl),
    plain_sectionNode (escapeFree_literal rfl) (escapeFree_literal rfl), List.forall_mem_nil _⟩

theorem escapeFree_builtinSource : EscapeFree builtinSource := Text.escapeFree_of_bytes (by decide +kernel)

/-- The prompt of a plain context in a plain template is free of escapes. -/
theorem Plain.render {t : PromptTemplate} {c : PromptContext} (ht : t.Plain) (hc : c.Plain) :
    Yields (t.render c) EscapeFree := by
  unfold PromptTemplate.render
  split
  · exact yields_error
  · rename_i nodes hnodes
    have hrender : Yields (Template.render t.name nodes c.toData) EscapeFree :=
      escapeFree_render (ht nodes hnodes) hc.toData
    split
    · rename_i text htext
      exact yields_ok.2 (hrender text htext)
    · exact yields_error

end PromptTemplate

/-! ## Documents -/

namespace Json

theorem escapeMark_not_mem_escapeChar (c : Char) : escapeMark ∉ escapeChar c := by
  have hdigits : ∀ n < 16, escapeMark ≠ hexDigit n := by decide
  unfold escapeChar
  split_ifs with h1 h2 h3 h4 h5 h6 h7 h8
  all_goals try decide
  · have hlow := hdigits (c.toNat / 16) (by omega)
    have hhigh := hdigits (c.toNat % 16) (by omega)
    simp only [List.mem_cons, List.not_mem_nil, or_false, not_or]
    exact ⟨by decide, by decide, by decide, by decide, hlow, hhigh⟩
  · rw [List.mem_singleton]
    rintro rfl
    exact absurd (by decide) h8

theorem escapeMark_not_mem_quote (s : String) : escapeMark ∉ quote s := by
  rw [quote, List.cons_append, List.mem_cons, List.mem_append, List.mem_flatMap, List.mem_singleton]
  rintro (h | ⟨c, -, h⟩ | h)
  · exact absurd h (by decide)
  · exact escapeMark_not_mem_escapeChar c h
  · exact absurd h (by decide)

theorem escapeMark_not_mem_newline (depth : Nat) : escapeMark ∉ newline depth := by
  simp [newline, escapeMark]

mutual

theorem escapeMark_not_mem_render (depth : Nat) (d : Data) : escapeMark ∉ render depth d := by
  have hline := escapeMark_not_mem_newline
  match d with
  | .null => rw [render]; show EscapeFree "null"; exact escapeFree_literal rfl
  | .bool b =>
    rw [render]
    show EscapeFree (if b then "true" else "false")
    cases b <;> exact escapeFree_literal rfl
  | .int n => rw [render]; exact escapeFree_toString_int n
  | .real x => rw [render]; exact escapeFree_numberText x
  | .text s => rw [render]; exact escapeMark_not_mem_quote s
  | .list [] => rw [render]; decide
  | .list (d :: ds) =>
    have hfirst := escapeMark_not_mem_render (depth + 1) d
    have hrest := escapeMark_not_mem_renderItems (depth + 1) ds
    rw [render]
    simp_all [escapeMark]
  | .record [] => rw [render]; decide
  | .record ((k, d) :: fs) =>
    have hname := escapeMark_not_mem_quote k
    have hfirst := escapeMark_not_mem_render (depth + 1) d
    have hrest := escapeMark_not_mem_renderFields (depth + 1) fs
    rw [render]
    simp_all [escapeMark]

theorem escapeMark_not_mem_renderItems (depth : Nat) (ds : List Data) : escapeMark ∉ renderItems depth ds := by
  match ds with
  | [] => rw [renderItems]; decide
  | d :: ds =>
    have hline := escapeMark_not_mem_newline
    have hfirst := escapeMark_not_mem_render depth d
    have hrest := escapeMark_not_mem_renderItems depth ds
    rw [renderItems]
    simp_all [escapeMark]

theorem escapeMark_not_mem_renderFields (depth : Nat) (fs : List (String × Data)) :
    escapeMark ∉ renderFields depth fs := by
  match fs with
  | [] => rw [renderFields]; decide
  | (k, d) :: fs =>
    have hline := escapeMark_not_mem_newline
    have hname := escapeMark_not_mem_quote k
    have hfirst := escapeMark_not_mem_render depth d
    have hrest := escapeMark_not_mem_renderFields depth fs
    rw [renderFields]
    simp_all [escapeMark]

end

/-- A document is free of escapes whatever it says. -/
theorem escapeFree_pretty (d : Data) : EscapeFree (pretty d) := escapeFree_ofList.2 (escapeMark_not_mem_render 0 d)

end Json

/-! ## Reports -/

theorem escapeFree_reportLine {counter : TokenCounter} {f : FileEntry} (hf : f.Plain) (place : Nat) :
    EscapeFree (reportLine counter f place) := by
  have hdot : EscapeFree ". " := escapeFree_literal rfl
  have hopen : EscapeFree " (" := escapeFree_literal rfl
  have hclose : EscapeFree " tokens)\n" := escapeFree_literal rfl
  simp only [reportLine, escapeFree_append]
  exact ⟨⟨⟨⟨⟨escapeFree_toString _, hdot⟩, hf.path⟩, hopen⟩, escapeFree_grouped _⟩, hclose⟩

theorem escapeFree_report {counter : TokenCounter} {files : List FileEntry} (h : ∀ f ∈ files, f.Plain) :
    EscapeFree (report counter files) := by
  have hheader : EscapeFree reportHeader := escapeFree_literal rfl
  refine hheader.append (escapeFree_join fun line hline => ?_)
  obtain ⟨⟨f, place⟩, hf, rfl⟩ := List.mem_map.1 hline
  have hmem : f ∈ files := List.mem_mergeSort.1 (List.mem_of_mem_take (List.fst_mem_of_mem_zipIdx hf))
  exact escapeFree_reportLine (h f hmem) place

end PromptPack
