import DiagramStream.Proofs.Canvas

/-!
What is drawn of a stream that a consumer can take. Main statement: the nodes in the index, the edges in the order in
which they were told and the layout hints in theirs decide the diagram, however the events stood among each other.
-/

namespace DiagramStream

abbrev LayoutHint := Layout × Direction × Attrs

def hintsOf (events : List Event) : List LayoutHint :=
  events.filterMap fun
    | .setLayout layout direction attrs => some (layout, direction, attrs)
    | _ => none

@[simp] theorem hintsOf_append (earlier later : List Event) :
    hintsOf (earlier ++ later) = hintsOf earlier ++ hintsOf later := List.filterMap_append

theorem hintsOf_nil_of {events : List Event}
    (none : ∀ event ∈ events, ∀ layout direction attrs, event ≠ .setLayout layout direction attrs) :
    hintsOf events = [] := by
  refine List.filterMap_eq_nil_iff.2 ?_
  intro event member
  cases event with
  | setLayout layout direction attrs => exact absurd rfl (none _ member layout direction attrs)
  | _ => rfl

namespace Diagram

-- A diagram without what is drawn in it.
def bare (diagram : Diagram) : Diagram := { diagram with nodes := [], lines := [] }

def hinted (diagram : Diagram) (hint : LayoutHint) : Diagram :=
  { diagram with layout := some hint.1, direction := some hint.2.1, layoutAttrs := hint.2.2 }

theorem eq_of_bare {one other : Diagram} (bare : one.bare = other.bare) (nodes : one.nodes = other.nodes)
    (lines : one.lines = other.lines) : one = other := by
  cases one
  cases other
  simp_all [Diagram.bare]

end Diagram

namespace Canvas

-- The end of a batch only announces.
theorem endBatch_diagram (canvas : Canvas) : canvas.endBatch.1.diagram = canvas.diagram := by
  unfold endBatch
  split
  · rfl
  · dsimp only
    split
    · rw [announce_diagram]
    · rfl

-- What an event does to a diagram beside its nodes. One that could not be applied draws no line.
theorem apply_diagram (canvas : Canvas) (event : Event) :
    (canvas.apply event).1.diagram.bare = (hintsOf [event]).foldl Diagram.hinted canvas.diagram.bare ∧
      ((canvas.apply event).2 = .done →
        (canvas.apply event).1.diagram.lines = canvas.diagram.lines ++ (edgesOf [event]).map Line.ofEdge) := by
  have still : hintsOf [event] = [] → edgesOf [event] = [] →
      (∃ nodes, (canvas.apply event).1.diagram = { canvas.diagram with nodes := nodes }) →
      (canvas.apply event).1.diagram.bare = (hintsOf [event]).foldl Diagram.hinted canvas.diagram.bare ∧
        ((canvas.apply event).2 = .done →
          (canvas.apply event).1.diagram.lines = canvas.diagram.lines ++ (edgesOf [event]).map Line.ofEdge) := by
    rintro unhinted undrawn ⟨nodes, same⟩
    rw [unhinted, undrawn, same]
    exact ⟨rfl, fun _ => (List.append_nil _).symm⟩
  cases event with
  | batchStart => exact still rfl rfl ⟨_, rfl⟩
  | batchEnd => exact still rfl rfl ⟨_, endBatch_diagram canvas⟩
  | setLayout layout direction attrs =>
    simp only [apply, setLayout, announce_diagram]
    exact ⟨rfl, fun _ => (List.append_nil _).symm⟩
  | addNode node =>
    refine still rfl rfl ?_
    simp only [apply, addNode]
    split
    · exact ⟨_, rfl⟩
    · exact ⟨_, announce_diagram _⟩
  | updateNode id change =>
    refine still rfl rfl ?_
    simp only [apply, updateNode]
    cases canvas.nodes.get? id with
    | none => exact ⟨_, rfl⟩
    | some before => exact ⟨_, announce_diagram _⟩
  | addEdge edge =>
    simp only [apply, addEdge]
    split
    · exact ⟨rfl, fun failed => absurd failed (by simp)⟩
    · split
      · exact ⟨rfl, fun failed => absurd failed (by simp)⟩
      · split
        · exact ⟨rfl, fun failed => absurd failed (by simp)⟩
        · rw [announce_diagram]
          exact ⟨rfl, fun _ => rfl⟩

theorem applyAll_bare (canvas : Canvas) (events : List Event) :
    (canvas.applyAll events).1.diagram.bare = (hintsOf events).foldl Diagram.hinted canvas.diagram.bare := by
  induction events generalizing canvas with
  | nil => rfl
  | cons event rest ih =>
    rw [show hintsOf (event :: rest) = hintsOf [event] ++ hintsOf rest from hintsOf_append [event] rest,
      List.foldl_append, ← (apply_diagram canvas event).1]
    exact ih (canvas.apply event).1

theorem applyAll_lines {canvas : Canvas} {events : List Event}
    (done : ∀ outcome ∈ (canvas.applyAll events).2, outcome = .done) :
    (canvas.applyAll events).1.diagram.lines = canvas.diagram.lines ++ (edgesOf events).map Line.ofEdge := by
  induction events generalizing canvas with
  | nil => simp [applyAll, edgesOf]
  | cons event rest ih =>
    have first := (apply_diagram canvas event).2 (done _ (List.mem_cons_self ..))
    have later := ih fun outcome member => done outcome (List.mem_cons_of_mem _ member)
    rw [show edgesOf (event :: rest) = edgesOf [event] ++ edgesOf rest from edgesOf_append [event] rest,
      List.map_append, ← List.append_assoc, ← first]
    exact later

end Canvas

theorem Reads.ofEvents_lines {events : List Event} {intake : Intake} (reads : Reads events intake) (name : String)
    (format : Option String) :
    (Diagram.ofEvents events name format).lines = (edgesOf events).map Line.ofEdge := by
  have applied := (Canvas.applyAll_holds reads name format).1
  refine Canvas.applyAll_lines ?_
  intro outcome member
  rw [applied] at member
  obtain ⟨event, -, rfl⟩ := List.mem_map.1 member
  rfl

theorem Reads.ofEvents_eq {one other : List Event} {intake intake' : Intake} (reads : Reads one intake)
    (too : Reads other intake') (nodes : registered one = registered other) (edges : edgesOf one = edgesOf other)
    (hints : hintsOf one = hintsOf other) (name : String) (format : Option String) :
    Diagram.ofEvents one name format = Diagram.ofEvents other name format := by
  refine Diagram.eq_of_bare ?_ ?_ ?_
  · exact (Canvas.applyAll_bare ..).trans (hints ▸ (Canvas.applyAll_bare ..).symm)
  · rw [ofEvents_nodes, ofEvents_nodes, nodes]
  · rw [reads.ofEvents_lines, too.ofEvents_lines, edges]

end DiagramStream
