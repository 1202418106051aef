import PromptPack.Delivery
import PromptPack.Proofs.Delivery.Once
import PromptPack.Proofs.EscapeFree.Prompt
/-!
# Deliveries without escapes

With colours left out, what is said about the delivery of a prompt is free of escapes where the prompt and the names in
it are. A dry run that is not quiet is the exception: it says in colour where the prompt would go, whatever was asked
for (`Delivery.deliver_plain_iff`).
-/

namespace PromptPack

variable {fs fs' : FileSystem} {p : Path} {r : Outcome}

/-! ## What a run prints -/

/-- What is said about the failure is free of escapes. -/
def Failure.Plain (e : Failure) : Prop := EscapeFree e.message

theorem Failure.plain_unmade (h : EscapeFree p.text) : Failure.Plain (.unmade p) :=
  (escapeFree_literal rfl : EscapeFree "Failed to create ").append h

/-- What is said last on standard error: why the run failed, if it did. -/
def Outcome.complaint (r : Outcome) : String :=
  match r.result with
  | .ok () => ""
  | .error e => "Error: " ++ e.message ++ "\n"

/-- All that is printed on standard error. -/
def Outcome.stderr (r : Outcome) : String := r.err ++ r.complaint

/-- What is printed, and why the run failed if it did, is free of escapes. -/
structure Outcome.Plain (r : Outcome) : Prop where
  out : EscapeFree r.out
  err : EscapeFree r.err
  result : Fails r.result Failure.Plain

theorem Outcome.escapeFree_complaint_iff : EscapeFree r.complaint ↔ Fails r.result Failure.Plain := by
  have hstart : EscapeFree "Error: " := escapeFree_literal rfl
  unfold complaint
  cases r.result with
  | ok => simp
  | error e => simp [hstart, escapeFree_newline, Failure.Plain]

/-- Both streams are free of escapes. -/
theorem Outcome.plain_iff : r.Plain ↔ EscapeFree r.out ∧ EscapeFree r.stderr := by
  rw [stderr, escapeFree_append, escapeFree_complaint_iff]
  exact ⟨fun h => ⟨h.out, h.err, h.result⟩, fun h => ⟨h.1, h.2.1, h.2.2⟩⟩

/-- Notes before those of a run. -/
theorem Outcome.plain_notes_iff {notes : String} (h : EscapeFree notes) :
    Outcome.Plain { r with err := notes ++ r.err } ↔ r.Plain := by
  constructor
  · exact fun hr => ⟨hr.out, (escapeFree_append.1 hr.err).2, hr.result⟩
  · exact fun hr => ⟨hr.out, h.append hr.err, hr.result⟩

/-! ## Output files -/

/-- An output file that cannot be written is told by its path, or by that of its directory. -/
theorem fails_writeOutput {text : String} (h : EscapeFree p.text) :
    Fails (writeOutput fs p text).2 Failure.Plain := by
  intro e he
  obtain ⟨-, rfl | ⟨dir, hdir, rfl⟩⟩ := writeOutput_error (Prod.ext rfl he)
  · exact (escapeFree_literal rfl : EscapeFree "Failed to write to ").append h
  · exact Failure.plain_unmade (Path.escapeFree_parent h hdir)

namespace Delivery

variable {d : Delivery} {counter : Option TokenCounter} {clipboard : Clipboard} {o : DeliveryOptions}
  {g : GlobalOptions}

/-- The prompt and the files in it are free of escapes. -/
structure Plain (d : Delivery) : Prop where
  prompt : EscapeFree d.prompt
  files : ∀ f ∈ d.files, f.Plain

/-! ## Notes -/

/-- A note without colours says no more than its message. -/
theorem escapeFree_statusNote {status : Console.Status} {message : String} (hplain : g.noColor = true)
    (h : EscapeFree message) : EscapeFree (statusNote g status message) := by
  rw [statusNote, hplain]
  exact ((Console.escapeFree_statusLine_iff status).2 h).append (escapeFree_literal rfl)

theorem escapeFree_countNotes (hd : d.Plain) (hplain : g.noColor = true) (c : TokenCounter) (o : DeliveryOptions) :
    EscapeFree (d.countNotes c o g) := by
  have htokens : EscapeFree " Tokens (Approximate)" := escapeFree_literal rfl
  unfold countNotes
  refine .append ?_ ?_
  · split
    · exact escapeFree_statusNote hplain ((escapeFree_grouped _).append htokens)
    · exact escapeFree_empty
  · split
    · exact escapeFree_newline.append (escapeFree_report hd.files)
    · exact escapeFree_empty

theorem escapeFree_copyPrompt (hplain : g.noColor = true)
    (hclipboard : ∀ reason, clipboard = .broken reason → EscapeFree reason) :
    EscapeFree (d.copyPrompt clipboard o g).2 := by
  have hcopied : EscapeFree "Copied to clipboard successfully." := escapeFree_literal rfl
  have hfailed : EscapeFree "Failed to copy to clipboard: " := escapeFree_literal rfl
  have hfalling : EscapeFree ". Falling back to console output." := escapeFree_literal rfl
  unfold copyPrompt
  split
  · exact escapeFree_empty
  · split
    · dsimp only
      split
      · exact escapeFree_empty
      · exact escapeFree_statusNote hplain hcopied
    · dsimp only
      split
      · exact escapeFree_empty
      · exact escapeFree_statusNote hplain ((hfailed.append (hclipboard _ rfl)).append hfalling)

/-- What would be delivered in a dry run is told in colour. -/
theorem not_escapeFree_dryNote (d : Delivery) (o : DeliveryOptions) : ¬ EscapeFree (d.dryNote o) := fun h =>
  Console.not_escapeFree_apply .yellow _ (escapeFree_append.1 h).1

/-! ## Deliveries -/

theorem handOver_plain (hd : d.Plain) (hplain : g.noColor = true)
    (hclipboard : ∀ reason, clipboard = .broken reason → EscapeFree reason)
    (houtput : ∀ p ∈ o.output, EscapeFree p.text) : (d.handOver clipboard o g fs).Plain := by
  have hnotes : EscapeFree (d.copyPrompt clipboard o g).2 := escapeFree_copyPrompt hplain hclipboard
  have hwritten : EscapeFree "Written to file: " := escapeFree_literal rfl
  unfold handOver
  dsimp only
  split
  · -- Without an output file the prompt is printed, unless it has been copied.
    refine ⟨?_, hnotes, fails_ok⟩
    split
    · exact escapeFree_empty
    · exact hd.prompt
  · rename_i p hp
    have hp := houtput p hp
    have hfails : Fails (writeOutput fs p d.prompt).2 Failure.Plain := fails_writeOutput hp
    split
    · rename_i e hwrite
      rw [hwrite] at hfails
      exact ⟨escapeFree_empty, hnotes, hfails⟩
    · refine ⟨escapeFree_empty, hnotes.append ?_, fails_ok⟩
      split
      · exact escapeFree_empty
      · exact escapeFree_statusNote hplain (hwritten.append hp)

/-- Nothing but what would be delivered is told. -/
def TellsOnly (counter : Option TokenCounter) (o : DeliveryOptions) (g : GlobalOptions) : Prop :=
  g.dryRun = true ∧ g.quiet = false ∧ ¬ PrintsDocument counter o

theorem handOverOrTell_plain_iff (hd : d.Plain) (hplain : g.noColor = true)
    (hclipboard : ∀ reason, clipboard = .broken reason → EscapeFree reason)
    (houtput : ∀ p ∈ o.output, EscapeFree p.text) :
    (d.handOverOrTell clipboard o g fs).Plain ↔ ¬ (g.dryRun = true ∧ g.quiet = false) := by
  unfold handOverOrTell
  split
  · rename_i hdry
    cases hquiet : g.quiet with
    | true => exact iff_of_true ⟨escapeFree_empty, escapeFree_empty, fails_ok⟩ (by simp)
    | false => exact iff_of_false (fun h => not_escapeFree_dryNote d o h.err) (by simp [hdry])
  · rename_i hwet
    exact iff_of_true (handOver_plain hd hplain hclipboard houtput) fun h => hwet h.1

/-- Without colours a delivery prints an escape exactly where it tells no more than what would be delivered. -/
theorem deliver_plain_iff (hd : d.Plain) (hplain : g.noColor = true)
    (hclipboard : ∀ reason, clipboard = .broken reason → EscapeFree reason)
    (houtput : ∀ p ∈ o.output, EscapeFree p.text) :
    (d.deliver counter clipboard o g fs).Plain ↔ ¬ TellsOnly counter o g := by
  have htell : (d.handOverOrTell clipboard o g fs).Plain ↔ ¬ (g.dryRun = true ∧ g.quiet = false) :=
    handOverOrTell_plain_iff hd hplain hclipboard houtput
  cases counter with
  | none => simpa [deliver, TellsOnly, PrintsDocument] using htell
  | some c =>
    have hnotes : EscapeFree (d.countNotes c o g) := escapeFree_countNotes hd hplain c o
    unfold deliver
    dsimp only
    split
    · rename_i hjson
      have hdocument : EscapeFree (document c d.prompt d.files d.omissions) := Json.escapeFree_pretty _
      exact iff_of_true ⟨hdocument.append escapeFree_newline, hnotes, fails_ok⟩ fun h => h.2.2 ⟨rfl, hjson⟩
    · rename_i hjson
      rw [Outcome.plain_notes_iff hnotes, htell]
      simp [TellsOnly, PrintsDocument, hjson]

end Delivery

end PromptPack
