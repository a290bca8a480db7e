import DiagramStream.Proofs.Exchange.Stream
import DiagramStream.Proofs.Graph.Stream

/-!
Documents of either notation. Main statement: whatever a document that keeps to its notation tells, an audit
has no error to report of it, and a blank canvas applies all of it.
-/

namespace DiagramStream.Narration

theorem ofDocument_reads {document : Document} {batching : Batching} {narration : Narration}
    (coherent : document.Coherent) (told : ofDocument document batching = .ok narration) :
    ∃ intake, Reads narration.events intake ∧ intake.inBatch = false := by
  obtain ⟨format, statements⟩ := document
  cases format with
  | sequence => exact ofDocument_announced rfl (fun placed member => (coherent placed member).1) told
  | dot => exact ofDocument_heldBack rfl coherent told

theorem ofDocument_consumable {document : Document} {batching : Batching} {narration : Narration}
    (coherent : document.Coherent) (told : ofDocument document batching = .ok narration) :
    (∀ finding ∈ Audit.ofEvents narration.events, finding.severity ≠ .error) ∧
      ∀ name format, ((Canvas.blank name format).applyAll narration.events).2 =
        narration.events.map fun _ => .done := by
  obtain ⟨intake, reads, closed⟩ := ofDocument_reads coherent told
  refine ⟨Audit.ofEvents_fine reads closed, ?_⟩
  intro name format
  exact (Canvas.applyAll_holds reads name format).1

-- A name that was only mentioned, declared under a second name in the first block; batches by block.
theorem ofDocument_consumable_alias :
    let statements : List Placed :=
      [⟨⟨1, 1⟩, .message "a" "->" "b" none (some "++")⟩, ⟨⟨2, 1⟩, .blockOpen "alt" (some "yes")⟩,
       ⟨⟨3, 1⟩, .declaration "actor" "c" (some "a") none Table.empty⟩, ⟨⟨4, 1⟩, .blockElse none⟩,
       ⟨⟨5, 1⟩, .message "c" "<-" "d" none none⟩, ⟨⟨6, 1⟩, .blockEnd⟩]
    ∃ narration, ofDocument ⟨.sequence, statements⟩ .block = .ok narration ∧
      (∀ finding ∈ Audit.ofEvents narration.events, finding.severity ≠ .error) ∧
      ∀ name format, ((Canvas.blank name format).applyAll narration.events).2 =
        narration.events.map fun _ => .done := by
  intro statements
  have coherent : Document.Coherent ⟨.sequence, statements⟩ := by
    simp only [Document.Coherent, statements]
    decide
  obtain ⟨narration, told⟩ : ∃ narration, ofDocument ⟨.sequence, statements⟩ .block = .ok narration := ⟨_, rfl⟩
  exact ⟨narration, told, ofDocument_consumable coherent told⟩

end DiagramStream.Narration
