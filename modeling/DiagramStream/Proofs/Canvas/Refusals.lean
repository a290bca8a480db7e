import DiagramStream.Proofs.Stream

/-!
Events that cannot be applied. Main statement: after whatever events, one that is refused leaves the canvas exactly as it
was, so that a stream leads to the same canvas when the events that were refused are taken out of it.
-/

namespace DiagramStream.Canvas

-- Refusals are decided before anything is written

theorem addNode_refused {canvas : Canvas} {node : Node} (refused : (canvas.addNode node).2 ≠ .done) :
    (canvas.addNode node).1 = canvas := by
  unfold addNode at refused ⊢
  split
  · rfl
  · rename_i fresh
    exact absurd (by rw [if_neg fresh]) refused

theorem updateNode_refused {canvas : Canvas} {id : String} {change : Attrs}
    (refused : (canvas.updateNode id change).2 ≠ .done) : (canvas.updateNode id change).1 = canvas := by
  unfold updateNode at refused ⊢
  cases found : canvas.nodes.get? id with
  | none => rfl
  | some before =>
    rw [found] at refused
    exact absurd rfl refused

-- Neither a known id nor an unknown end leaves a trace, whichever of the two ends it is.
theorem addEdge_refused {canvas : Canvas} {edge : Edge} (refused : (canvas.addEdge edge).2 ≠ .done) :
    (canvas.addEdge edge).1 = canvas := by
  unfold addEdge at refused ⊢
  split
  · rfl
  · rename_i fresh
    rw [if_neg fresh] at refused
    split
    · rfl
    · rename_i source
      rw [if_neg source] at refused
      split
      · rfl
      · rename_i target
        rw [if_neg target] at refused
        exact absurd rfl refused

theorem endBatch_refused {canvas : Canvas} (refused : canvas.endBatch.2 ≠ .done) : canvas.endBatch.1 = canvas := by
  unfold endBatch at refused ⊢
  split
  · rfl
  · rename_i batches
    rw [batches] at refused
    exact absurd rfl refused

theorem apply_refused {canvas : Canvas} {event : Event} (refused : (canvas.apply event).2 ≠ .done) :
    (canvas.apply event).1 = canvas := by
  cases event with
  | addNode node => exact addNode_refused refused
  | updateNode id change => exact updateNode_refused refused
  | addEdge edge => exact addEdge_refused refused
  | batchEnd => exact endBatch_refused refused
  | setLayout layout direction attrs => exact absurd rfl refused
  | batchStart => exact absurd rfl refused

-- Streams without what was refused

-- The events of a stream that were answered with success, in their order.
def applied (canvas : Canvas) (events : List Event) : List Event :=
  ((events.zip (canvas.applyAll events).2).filter fun answered => answered.2 = .done).map Prod.fst

theorem applied_cons_done {canvas : Canvas} {event : Event} (done : (canvas.apply event).2 = .done)
    (rest : List Event) : canvas.applied (event :: rest) = event :: (canvas.apply event).1.applied rest := by
  simp [applied, applyAll, done]

theorem applied_cons_refused {canvas : Canvas} {event : Event} (refused : (canvas.apply event).2 ≠ .done)
    (rest : List Event) : canvas.applied (event :: rest) = canvas.applied rest := by
  simp [applied, applyAll, refused, apply_refused refused]

theorem applied_sublist (canvas : Canvas) (events : List Event) : (canvas.applied events).Sublist events := by
  induction events generalizing canvas with
  | nil => exact .slnil
  | cons event rest ih =>
    by_cases done : (canvas.apply event).2 = .done
    · rw [applied_cons_done done]
      exact (ih _).cons_cons event
    · rw [applied_cons_refused done]
      exact (ih canvas).cons event

-- What was refused had no part in what was applied after it.
theorem applyAll_applied (canvas : Canvas) (events : List Event) :
    canvas.applyAll (canvas.applied events) = ((canvas.applyAll events).1, (canvas.applied events).map fun _ => .done) := by
  induction events generalizing canvas with
  | nil => rfl
  | cons event rest ih =>
    by_cases done : (canvas.apply event).2 = .done
    · rw [applied_cons_done done]
      simp only [applyAll, ih, done, List.map_cons]
    · rw [applied_cons_refused done, ih]
      simp only [applyAll, apply_refused done]

theorem applyAll_refusals (events : List Event) (name : String) (format : Option String) :
    let blank := blank name format
    let canvas := (blank.applyAll events).1
    (∀ event, (canvas.apply event).2 ≠ .done → (canvas.apply event).1 = canvas) ∧
      (blank.applied events).Sublist events ∧
      (∀ outcome ∈ (blank.applyAll (blank.applied events)).2, outcome = .done) ∧
      Diagram.ofEvents (blank.applied events) name format = Diagram.ofEvents events name format ∧
      (blank.applyAll (blank.applied events)).1 = canvas := by
  intro blank canvas
  have again := applyAll_applied blank events
  refine ⟨fun event refused => apply_refused refused, applied_sublist blank events, ?_, ?_, ?_⟩
  · rw [again]
    intro outcome answered
    obtain ⟨event, -, same⟩ := List.mem_map.1 answered
    exact same.symm
  · exact congrArg (fun run => run.1.diagram) again
  · rw [again]

-- An edge that comes before its target, a node told twice and an end of no batch are taken out.
theorem applyAll_refusals_early :
    let node (id : String) : Node := ⟨id, genericKind, id, Table.empty⟩
    let edge : Edge := ⟨"e", "a", "b", none, none, Table.empty⟩
    let events : List Event :=
      [.addNode (node "a"), .addEdge edge, .batchEnd, .addNode (node "b"), .addNode (node "a"), .addEdge edge]
    let canvas := ((blank "" none).applyAll events).1
    (canvas.apply (.addEdge edge)).2 ≠ .done ∧ (canvas.apply (.addEdge edge)).1 = canvas ∧
      (blank "" none).applied events = [.addNode (node "a"), .addNode (node "b"), .addEdge edge] ∧
      Diagram.ofEvents [.addNode (node "a"), .addNode (node "b"), .addEdge edge] "" none =
        Diagram.ofEvents events "" none := by
  intro node edge events canvas
  obtain ⟨unchanged, -, -, diagram, -⟩ := applyAll_refusals events "" none
  have refused : (canvas.apply (.addEdge edge)).2 ≠ .done := by decide
  have left : (blank "" none).applied events = [.addNode (node "a"), .addNode (node "b"), .addEdge edge] := by decide
  rw [left] at diagram
  exact ⟨refused, unchanged _ refused, left, diagram⟩

end DiagramStream.Canvas
