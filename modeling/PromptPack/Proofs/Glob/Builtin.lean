import PromptPack.Glob.Lines
import PromptPack.Proofs.Glob.Faults
import PromptPack.Proofs.Text.Bytes
import PromptPack.Proofs.Text.Pieces
/-!
# The built-in globs compile

Only brackets, braces and backslashes can be wrong in a glob. Without them every text is one (`exists_parse_of_plain`),
and the built-in list does without them.
-/

namespace PromptPack.Glob

open Text

/-! ## Plain globs -/

/-- No character of the text has to fit another one. -/
def Plain (glob : String) : Prop := ∀ c ∈ special, c ∉ glob.toList

/-- A text without special characters is a glob. -/
theorem exists_parse_of_plain {glob : String} (h : Plain glob) : ∃ p, parse glob = .ok p := by
  have hfree : ∀ c ∈ glob.toList, c ∉ special := fun c hc hspecial => h c hspecial hc
  have hsound := FirstFault.done.append_plain hfree
  rw [List.append_nil] at hsound
  exact exists_parse_iff.2 hsound

/-! ## The built-in list -/

theorem toList_subset_of_mem_parseLines {text glob : String} (h : glob ∈ parseLines text) : glob.toList ⊆ text.toList := by
  obtain ⟨line, hline, rfl⟩ := List.mem_map.1 (List.mem_filter.1 h).1
  exact List.Subset.trans (toList_trim_subset line) (toList_subset_of_mem_lines hline)

theorem Plain.of_subset {glob text : String} (h : Plain text) (hsubset : glob.toList ⊆ text.toList) : Plain glob :=
  fun c hc hmem => h c hc (hsubset hmem)

theorem plain_of_mem_builtinLines {line : String} (h : line ∈ builtinLines) : Plain line := by
  have hbytes : builtinLines.all (fun line => line.toByteArray.data.toList.all fun b =>
      !(special.map fun c => UInt8.ofNat c.val.toNat).contains b) = true := by
    decide +kernel
  have hascii : ∀ c ∈ special, c.val.toNat ≤ 127 := by simp [special]
  intro c hc hmem
  have hbyte := List.all_eq_true.1 (List.all_eq_true.1 hbytes line h) _ (byte_mem_of_mem (hascii c hc) hmem)
  rw [List.contains_iff_mem.2 (List.mem_map_of_mem hc)] at hbyte
  cases hbyte

theorem plain_newline : Plain "\n" := by simp [Plain, special]

theorem plain_builtinText : Plain builtinText := fun c hc =>
  not_mem_intercalate (plain_newline c hc) fun _ hline => plain_of_mem_builtinLines hline c hc

theorem plain_of_mem_builtin {glob : String} (h : glob ∈ builtin) : Plain glob :=
  plain_builtinText.of_subset (toList_subset_of_mem_parseLines h)

end PromptPack.Glob
