import Mathlib
import PromptPack.Prompt
import PromptPack.Proofs.Template.Rendering
import PromptPack.Proofs.Template.Segments
/-!
# The built-in prompt

The built-in template is read as a handful of nodes (`parse?_builtinSource`), each of which writes fixed texts and
fields. So the prompt of a context is fixed texts with its values between them as they are.
-/

namespace PromptPack

open Template

/-! ## The plain text -/

/-- What the prompt shows of a file. -/
def FileEntry.plainText (e : FileEntry) : String := "\x60" ++ e.path ++ ":\x60\n\n" ++ e.code ++ "\n\n"

namespace PromptTemplate

/-- A fenced text under a title, or nothing for an empty text. -/
def fencedText (title fence text : String) : String :=
  if text.isEmpty then "" else title ++ ":\n\n" ++ rule ++ fence ++ "\n" ++ text ++ "\n" ++ rule ++ "\n\n"

end PromptTemplate

open PromptTemplate

/-- The parts of the built-in prompt one after the other. -/
def PromptContext.plainText (c : PromptContext) : String :=
  "Project Path: " ++ c.absoluteCodePath ++
    "\n\nSource Tree:\n\n" ++ rule ++ "\n" ++ c.sourceTrees ++ "\n" ++ rule ++ "\n\n" ++
    String.join ((c.files.filter fun e => !e.code.isEmpty).map FileEntry.plainText) ++
    fencedText "Git Diff" "diff" c.gitDiff ++
    fencedText "Git Diff Between Branches" "diff" c.gitDiffBranch ++
    fencedText "Git Log Between Branches" "" c.gitLogBranch

namespace PromptTemplate

/-! ## The segments of the template -/

def sectionSegments (value title fence : String) : List Segment := [
  openingSegment "if" value, textSegment "\n", textSegment title, textSegment ":\n\n", textSegment rule,
  textSegment fence, textSegment "\n", fieldSegment " " value, textSegment "\n", textSegment rule, textSegment "\n\n",
  closingSegment "if", textSegment "\n"]

def headerSegments : List Segment := [
  textSegment "Project Path: ", fieldSegment " " "absolute_code_path", textSegment "\n\nSource Tree:\n\n",
  textSegment rule, textSegment "\n", fieldSegment " " "source_trees", textSegment "\n", textSegment rule,
  textSegment "\n\n"]

def fileSegments : List Segment := [
  openingSegment "each" "files", textSegment "\n", openingSegment "if" "code", textSegment "\n\x60",
  fieldSegment "" "path", textSegment ":\x60\n\n", fieldSegment "" "code", textSegment "\n\n",
  closingSegment "if", textSegment "\n", closingSegment "each", textSegment "\n"]

def builtinSegments : List Segment :=
  headerSegments ++ fileSegments ++
    sectionSegments "git_diff" "Git Diff" "diff" ++
    sectionSegments "git_diff_branch" "Git Diff Between Branches" "diff" ++
    sectionSegments "git_log_branch" "Git Log Between Branches" ""

theorem spells_sectionWhen (value title fence : String) :
    Spells (sectionWhen value title fence) (sectionSegments value title fence) := by
  have hif : "#if " ++ value = "#" ++ "if" ++ " " ++ value := by
    rw [show "#if " = "#" ++ "if" ++ " " by decide +kernel]
  have hopening := spells_opening hif
  have hfield : Spells (tag (" " ++ value ++ " ")) _ := spells_field rfl
  have hclosing : Spells (tag "/if") [closingSegment "if"] := spells_closing (by decide +kernel)
  exact hopening.append (spells_text "\n") |>.append (spells_text title) |>.append (spells_text ":\n\n")
    |>.append (spells_text rule) |>.append (spells_text fence) |>.append (spells_text "\n") |>.append hfield
    |>.append (spells_text "\n") |>.append (spells_text rule) |>.append (spells_text "\n\n") |>.append hclosing
    |>.append (spells_text "\n")

theorem spells_builtinSource : Spells builtinSource builtinSegments := by
  have hroot : Spells (tag " absolute_code_path ") [fieldSegment " " "absolute_code_path"] :=
    spells_field (by decide +kernel)
  have htrees : Spells (tag " source_trees ") [fieldSegment " " "source_trees"] := spells_field (by decide +kernel)
  have heach : Spells (tag "#each files") [openingSegment "each" "files"] := spells_opening (by decide +kernel)
  have hif : Spells (tag "#if code") [openingSegment "if" "code"] := spells_opening (by decide +kernel)
  have hpath : Spells (tag "path") [fieldSegment "" "path"] := spells_field (by decide +kernel)
  have hcode : Spells (tag "code") [fieldSegment "" "code"] := spells_field (by decide +kernel)
  have hendIf : Spells (tag "/if") [closingSegment "if"] := spells_closing (by decide +kernel)
  have hendEach : Spells (tag "/each") [closingSegment "each"] := spells_closing (by decide +kernel)
  have hheader := (spells_text "Project Path: ").append hroot |>.append (spells_text "\n\nSource Tree:\n\n")
    |>.append (spells_text rule) |>.append (spells_text "\n") |>.append htrees |>.append (spells_text "\n")
    |>.append (spells_text rule) |>.append (spells_text "\n\n")
  have hfiles := hheader.append heach |>.append (spells_text "\n") |>.append hif |>.append (spells_text "\n\x60")
    |>.append hpath |>.append (spells_text ":\x60\n\n") |>.append hcode |>.append (spells_text "\n\n")
    |>.append hendIf |>.append (spells_text "\n") |>.append hendEach |>.append (spells_text "\n")
  exact hfiles.append (spells_sectionWhen "git_diff" "Git Diff" "diff")
    |>.append (spells_sectionWhen "git_diff_branch" "Git Diff Between Branches" "diff")
    |>.append (spells_sectionWhen "git_log_branch" "Git Log Between Branches" "")

/-! ## The nodes of the template -/

/-- A text that neither begins nor hides a tag. -/
def IsPlain (s : String) : Prop := ∀ c ∈ s.toList, c ≠ '\x7b' ∧ c ≠ '\\'

theorem isField_if : IsField "if".toList := ⟨by simp, by simp; decide, by simp⟩

theorem isField_each : IsField "each".toList := ⟨by simp, by simp; decide, by simp⟩

theorem isPlain_rule : IsPlain rule := by simp [IsPlain, rule]

theorem isPlain_lineEnd : IsPlain "\n" := by simp [IsPlain]

theorem isPlain_gap : IsPlain "\n\n" := by simp [IsPlain]

theorem isSpace_pad : ∀ c ∈ " ".toList, isSpace c = true := by simp; decide

theorem headerSegments_readBack : ∀ s ∈ headerSegments, s.ReadsBack := by
  have hroot : IsField "absolute_code_path".toList := ⟨by simp, by simp; decide, by simp⟩
  have htrees : IsField "source_trees".toList := ⟨by simp, by simp; decide, by simp⟩
  have hfirst : IsPlain "Project Path: " := by simp [IsPlain]
  have hsecond : IsPlain "\n\nSource Tree:\n\n" := by simp [IsPlain]
  simp only [headerSegments, List.forall_mem_cons]
  exact ⟨hfirst, readsBack_fieldSegment hroot isSpace_pad, hsecond, isPlain_rule, isPlain_lineEnd,
    readsBack_fieldSegment htrees isSpace_pad, isPlain_lineEnd, isPlain_rule, isPlain_gap, by simp⟩

theorem fileSegments_readBack : ∀ s ∈ fileSegments, s.ReadsBack := by
  have hfiles : IsField "files".toList := ⟨by simp, by simp; decide, by simp⟩
  have hcode : IsField "code".toList := ⟨by simp, by simp; decide, by simp⟩
  have hpath : IsField "path".toList := ⟨by simp, by simp; decide, by simp⟩
  have hopen : IsPlain "\n\x60" := by simp [IsPlain]
  have hcolon : IsPlain ":\x60\n\n" := by simp [IsPlain]
  have hpad : ∀ c ∈ "".toList, isSpace c = true := by simp
  simp only [fileSegments, List.forall_mem_cons]
  exact ⟨readsBack_openingSegment isField_each hfiles, isPlain_lineEnd, readsBack_openingSegment isField_if hcode, hopen,
    readsBack_fieldSegment hpath hpad, hcolon, readsBack_fieldSegment hcode hpad, isPlain_gap,
    readsBack_closingSegment isField_if, isPlain_lineEnd, readsBack_closingSegment isField_each, isPlain_lineEnd, by simp⟩

theorem sectionSegments_readBack {value title fence : String} (hvalue : IsField value.toList) (htitle : IsPlain title)
    (hfence : IsPlain fence) : ∀ s ∈ sectionSegments value title fence, s.ReadsBack := by
  have hcolon : IsPlain ":\n\n" := by simp [IsPlain]
  simp only [sectionSegments, List.forall_mem_cons]
  exact ⟨readsBack_openingSegment isField_if hvalue, isPlain_lineEnd, htitle, hcolon, isPlain_rule, hfence,
    isPlain_lineEnd, readsBack_fieldSegment hvalue isSpace_pad, isPlain_lineEnd, isPlain_rule, isPlain_gap,
    readsBack_closingSegment isField_if, isPlain_lineEnd, by simp⟩

theorem builtinSegments_readBack : ∀ s ∈ builtinSegments, s.ReadsBack := by
  have hdiff : IsField "git_diff".toList := ⟨by simp, by simp; decide, by simp⟩
  have hbranch : IsField "git_diff_branch".toList := ⟨by simp, by simp; decide, by simp⟩
  have hlog : IsField "git_log_branch".toList := ⟨by simp, by simp; decide, by simp⟩
  have hfence : IsPlain "diff" := by simp [IsPlain]
  simp only [builtinSegments, List.forall_mem_append]
  exact ⟨⟨⟨⟨headerSegments_readBack, fileSegments_readBack⟩,
    sectionSegments_readBack hdiff (by simp [IsPlain]) hfence⟩,
    sectionSegments_readBack hbranch (by simp [IsPlain]) hfence⟩,
    sectionSegments_readBack hlog (by simp [IsPlain]) (by simp [IsPlain])⟩

def sectionNode (value title fence : String) : Node :=
  blockNode "if" value [
    .text (title ++ ":\n\n" ++ rule ++ fence ++ "\n"), fieldNode value, .text ("\n" ++ rule ++ "\n\n")]

def fileNode : Node :=
  blockNode "if" "code" [.text "\x60", fieldNode "path", .text ":\x60\n\n", fieldNode "code", .text "\n\n"]

def builtinNodes : List Node := [
  .text "Project Path: ", fieldNode "absolute_code_path", .text ("\n\nSource Tree:\n\n" ++ rule ++ "\n"),
  fieldNode "source_trees", .text ("\n" ++ rule ++ "\n\n"), blockNode "each" "files" [fileNode],
  sectionNode "git_diff" "Git Diff" "diff",
  sectionNode "git_diff_branch" "Git Diff Between Branches" "diff",
  sectionNode "git_log_branch" "Git Log Between Branches" ""]

theorem parse?_builtinSource : parse? builtinSource = some builtinNodes :=
  spells_builtinSource.parse?_eq builtinSegments_readBack (by cbv)

/-! ## What the nodes write -/

variable {s : Scope} {d : Data}

theorem sectionNode_writes {value text : String} (title fence : String) (hname : value ∉ helperNames)
    (h : s.Sees value (.text text)) :
    (sectionNode value title fence).Writes s (fencedText title fence text) := by
  have hbody := NodesWrite.cons (writes_text (title ++ ":\n\n" ++ rule ++ fence ++ "\n")) <|
    NodesWrite.cons (writes_field hname h) <|
    NodesWrite.cons (writes_text ("\n" ++ rule ++ "\n\n")) nodesWrite_nil
  simpa only [sectionNode, fencedText, shown, String.append_assoc, String.append_empty] using writes_if_text h hbody

/-- A file with code is shown, and one without is passed over. -/
theorem fileNode_writes (e : FileEntry) {f : Frame} (hvalue : f.value = e.toData) (hnames : f.names = [])
    (hs : ∀ f ∈ s.frames, f.names = []) :
    fileNode.Writes (s.within f) (if e.code.isEmpty then "" else e.plainText) := by
  have hframes : ∀ g ∈ (s.within f).frames, g.names = [] := by
    simpa [Scope.within, hnames] using hs
  have hpath : (s.within f).Sees "path" (.text e.path) :=
    Scope.sees_of_record rfl hframes hvalue (by rw [hvalue]; rfl)
  have hcode : (s.within f).Sees "code" (.text e.code) :=
    Scope.sees_of_record rfl hframes hvalue (by rw [hvalue]; rfl)
  have hbody := NodesWrite.cons (writes_text "\x60") <| NodesWrite.cons (writes_field (by decide) hpath) <|
    NodesWrite.cons (writes_text ":\x60\n\n") <| NodesWrite.cons (writes_field (by decide) hcode) <|
    NodesWrite.cons (writes_text "\n\n") nodesWrite_nil
  simpa only [fileNode, FileEntry.plainText, shown, String.append_assoc, String.append_empty] using
    writes_if_text hcode hbody

/-- The scope in which a template begins. -/
def rootScope (context : Data) : Scope := { root := context, frames := [{ value := context }] }

theorem rootScope_names (context : Data) : ∀ f ∈ (rootScope context).frames, f.names = [] := by
  simp [rootScope]

theorem rootScope_sees {c : PromptContext} {name : String} {d : Data} (h : c.toData.get? name = some d) :
    (rootScope c.toData).Sees name d :=
  Scope.sees_of_record rfl (rootScope_names _) rfl h

theorem join_filter {α : Type} (p : α → Bool) (f : α → String) (l : List α) :
    String.join ((l.filter p).map f) = String.join (l.map fun a => if p a then f a else "") := by
  induction l with
  | nil => rfl
  | cons a l ih => cases h : p a <;> simp [h, ih]

variable (c : PromptContext)

theorem filesNode_writes :
    (blockNode "each" "files" [fileNode]).Writes (rootScope c.toData)
      (String.join ((c.files.filter fun e => !e.code.isEmpty).map FileEntry.plainText)) := by
  have hfiles : (rootScope c.toData).Sees "files" (.list (c.files.map FileEntry.toData)) := rootScope_sees rfl
  have heach := writes_each hfiles fun e _ f hvalue hnames =>
    NodesWrite.cons (fileNode_writes e hvalue hnames (rootScope_names _)) nodesWrite_nil
  simpa [join_filter] using heach

theorem builtinNodes_write : NodesWrite (rootScope c.toData) builtinNodes c.plainText := by
  have hroot : (rootScope c.toData).Sees "absolute_code_path" (.text c.absoluteCodePath) := rootScope_sees rfl
  have htrees : (rootScope c.toData).Sees "source_trees" (.text c.sourceTrees) := rootScope_sees rfl
  have hdiff : (rootScope c.toData).Sees "git_diff" (.text c.gitDiff) := rootScope_sees rfl
  have hbranch : (rootScope c.toData).Sees "git_diff_branch" (.text c.gitDiffBranch) := rootScope_sees rfl
  have hlog : (rootScope c.toData).Sees "git_log_branch" (.text c.gitLogBranch) := rootScope_sees rfl
  have hnodes := NodesWrite.cons (writes_text "Project Path: ") <| NodesWrite.cons (writes_field (by decide) hroot) <|
    NodesWrite.cons (writes_text ("\n\nSource Tree:\n\n" ++ rule ++ "\n")) <|
    NodesWrite.cons (writes_field (by decide) htrees) <| NodesWrite.cons (writes_text ("\n" ++ rule ++ "\n\n")) <|
    NodesWrite.cons (filesNode_writes c) <| NodesWrite.cons (sectionNode_writes "Git Diff" "diff" (by decide) hdiff) <|
    NodesWrite.cons (sectionNode_writes "Git Diff Between Branches" "diff" (by decide) hbranch) <|
    NodesWrite.cons (sectionNode_writes "Git Log Between Branches" "" (by decide) hlog) nodesWrite_nil
  unfold PromptContext.plainText
  simpa only [builtinNodes, shown, String.append_assoc, String.append_empty] using hnodes

theorem render_builtinNodes : Template.render builtin.name builtinNodes c.toData = .ok c.plainText := by
  obtain ⟨after, hafter⟩ := builtinNodes_write c (builtin.name, builtinNodes)
    (renderWithin (builtin.name, builtinNodes) maxDepth) { template := some builtin.name }
  rw [Template.render, renderWithin]
  exact congrArg (Except.map (·.1)) hafter

/-- The built-in prompt of any context is its parts one after the other, each value as it is: nothing in a value is
escaped, trimmed or read as a tag. -/
theorem builtin_render_eq_plainText : builtin.render c = .ok c.plainText := by
  have hparse : parse? builtin.source = some builtinNodes := parse?_builtinSource
  rw [PromptTemplate.render, hparse]
  simp only [render_builtinNodes]

end PromptTemplate

end PromptPack
