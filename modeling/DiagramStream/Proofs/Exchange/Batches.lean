import DiagramStream.Proofs.Exchange.Messages
import DiagramStream.Proofs.Batch

/-!
One batch around everything, or one around each outermost block. Main statement: the choice changes nothing
but the markers, and these are where it says.
-/

namespace DiagramStream

-- Block openers with no block around them.
def outermost (statements : List Placed) : List Placed :=
  gather (fun before placed =>
    if placed.statement.opensBlock && (openBlocks before).isEmpty then [placed] else []) statements

theorem outermost_concat (before : List Placed) (placed : Placed) :
    outermost (before ++ [placed]) = outermost before ++
      if placed.statement.opensBlock && (openBlocks before).isEmpty then [placed] else [] := gather_concat ..

namespace Narration

-- What is told of a statement, its marker apart.
def talk (narration : Narration) (placed : Placed) : List Event :=
  let roster := narration.roster.hear placed
  narration.roster.news placed ++ (narration.edge? placed).toList.map .addEdge
    ++ (placed.statement.move? roster).toList.map (fun move =>
      .updateNode move.id (narration.lifelines.change move))
    ++ notes roster placed.statement

theorem echo_eq (narration : Narration) (placed : Placed) :
    narration.echo placed = narration.talk placed ++ (narration.marker? placed).toList := rfl

theorem talk_plain (narration : Narration) (placed : Placed) :
    ∀ event ∈ narration.talk placed, event.isMarker = false := by
  intro event member
  simp only [talk, List.mem_append, List.mem_map] at member
  rcases member with ((news | ⟨edge, -, rfl⟩) | ⟨move, -, rfl⟩) | noted
  · rcases Roster.mem_news news with ⟨node, rfl⟩ | ⟨id, change, rfl⟩ <;> rfl
  · rfl
  · rfl
  · obtain ⟨targets, side, text, name, -, -, rfl⟩ := mem_notes noted
    rfl

theorem markers_talk (narration : Narration) (placed : Placed) : markers (narration.talk placed) = [] := by
  refine List.filter_eq_nil_iff.2 ?_
  intro event member
  simp [talk_plain narration placed event member]

theorem unmarked_talk (narration : Narration) (placed : Placed) :
    unmarked (narration.talk placed) = narration.talk placed := by
  refine List.filter_eq_self.2 ?_
  intro event member
  simp [talk_plain narration placed event member]

theorem marker?_isMarker {narration : Narration} {placed : Placed} {event : Event}
    (marker : narration.marker? placed = some event) : event.isMarker = true := by
  rcases marker?_eq_some marker with rfl | rfl <;> rfl

theorem markers_echo (narration : Narration) (placed : Placed) :
    markers (narration.echo placed) = (narration.marker? placed).toList := by
  rw [echo_eq, markers_append, markers_talk]
  cases marker : narration.marker? placed with
  | none => rfl
  | some event => simp [markers, marker?_isMarker marker]

theorem unmarked_echo (narration : Narration) (placed : Placed) :
    unmarked (narration.echo placed) = narration.talk placed := by
  rw [echo_eq, unmarked_append, unmarked_talk]
  cases marker : narration.marker? placed with
  | none => simp [unmarked]
  | some event => simp [unmarked, marker?_isMarker marker]

-- Two narrations of one document that part in nothing but their markers.
structure Alike (one other : Narration) : Prop where
  same : other = { one with batching := other.batching, events := other.events }
  events : unmarked one.events = unmarked other.events
  sound : one.roster.Sound

-- Both stop with one failure, or neither stops.
inductive Agree : Except Failure Narration → Except Failure Narration → Prop where
  | stopped (failure : Failure) : Agree (.error failure) (.error failure)
  | told : Alike one other → Agree (.ok one) (.ok other)

theorem Agree.outcomes {left right : Except Failure Narration} (agree : Agree left right) :
    (∃ failure, left = .error failure ∧ right = .error failure) ∨
      ∃ one other, left = .ok one ∧ right = .ok other ∧ Alike one other := by
  cases agree with
  | stopped failure => exact .inl ⟨failure, rfl, rfl⟩
  | told alike => exact .inr ⟨_, _, rfl, rfl, alike⟩

theorem advance_alike {one other : Narration} (alike : Alike one other) (placed : Placed) :
    Alike (one.advance placed) (other.advance placed) := by
  obtain ⟨same, events, sound⟩ := alike
  refine ⟨?_, ?_, Roster.hear_sound sound placed⟩
  · rw [same]
    rfl
  · have talk : one.talk placed = other.talk placed := by rw [same]; rfl
    simp only [advance, unmarked_append, unmarked_echo, events, talk]

theorem tell_agree {one other : Narration} (alike : Alike one other) {placed : Placed}
    (spoken : placed.statement.ofSequence = true) : Agree (one.tell placed) (other.tell placed) := by
  have same := alike.same
  have heard : other.roster.Sound := by rw [same]; exact alike.sound
  have offence : offence? other.roster other.lifelines.depth other.nesting.top? placed =
      offence? one.roster one.lifelines.depth one.nesting.top? placed := by rw [same]
  rw [tell_exchange one alike.sound placed spoken, tell_exchange other heard placed spoken, offence]
  split
  · exact .stopped _
  · exact .told (advance_alike alike placed)

theorem tellAll_agree {one other : Narration} (alike : Alike one other) {statements : List Placed}
    (spoken : ∀ placed ∈ statements, placed.statement.ofSequence = true) :
    Agree (one.tellAll statements) (other.tellAll statements) := by
  induction statements generalizing one other with
  | nil => exact .told alike
  | cons placed rest ih =>
    have agree := tell_agree alike (spoken placed (List.mem_cons_self ..))
    simp only [tellAll]
    generalize one.tell placed = left at agree ⊢
    generalize other.tell placed = right at agree ⊢
    cases agree with
    | stopped failure => exact .stopped failure
    | told next => exact ih next fun later member => spoken later (List.mem_cons_of_mem _ member)

theorem finish_agree {one other : Narration} (alike : Alike one other) : Agree one.finish other.finish := by
  obtain ⟨same, events, sound⟩ := alike
  have closed : other.nesting.ensureClosed = one.nesting.ensureClosed := by rw [same]
  have held : other.heldBack = one.heldBack := by rw [same]; rfl
  have shut : ∀ batching : Batching, unmarked (if batching = .diagram then [.batchEnd] else []) = [] := by
    intro batching
    split <;> rfl
  unfold finish
  rw [closed]
  cases one.nesting.ensureClosed with
  | error failure => exact .stopped failure
  | ok _ =>
    refine .told ⟨?_, ?_, sound⟩
    · rw [same]
    · simp only [unmarked_append, events, held, shut]

theorem opening_alike (statements : List Placed) :
    Alike (opening ⟨.sequence, statements⟩ .diagram) (opening ⟨.sequence, statements⟩ .block) :=
  ⟨rfl, rfl, Roster.empty_sound _⟩

theorem ofDocument_agree {statements : List Placed}
    (spoken : ∀ placed ∈ statements, placed.statement.ofSequence = true) :
    Agree (ofDocument ⟨.sequence, statements⟩ .diagram) (ofDocument ⟨.sequence, statements⟩ .block) := by
  have agree := tellAll_agree (opening_alike statements) spoken
  unfold ofDocument
  generalize (opening ⟨.sequence, statements⟩ .diagram).tellAll statements = left at agree ⊢
  generalize (opening ⟨.sequence, statements⟩ .block).tellAll statements = right at agree ⊢
  cases agree with
  | stopped failure => exact .stopped failure
  | told alike => exact finish_agree alike

-- Where each outermost block is a batch

-- The marker of a statement, read off the document.
def markerAfter? (before : List Placed) (placed : Placed) : Option Event :=
  match placed.statement with
  | .blockOpen .. => if (openBlocks before).isEmpty then some .batchStart else none
  | .blockEnd => if (openBlocks (before ++ [placed])).isEmpty then some .batchEnd else none
  | _ => none

theorem Follows.depth_zero_iff {narration : Narration} {before : List Placed} (follows : Follows narration before) :
    narration.nesting.depth = 0 ↔ openBlocks before = [] := by
  have length := congrArg List.length follows.faces
  rw [List.length_map, List.length_map] at length
  rw [Nesting.depth, length, List.length_eq_zero_iff]

theorem marker?_eq {narration : Narration} {before : List Placed} (follows : Follows narration before)
    (byBlock : narration.batching = .block) {placed : Placed} (fine : offenceAfter? before placed = none) :
    narration.marker? placed = markerAfter? before placed := by
  have now := follows.depth_zero_iff
  have next := (advance_follows follows fine).depth_zero_iff
  obtain ⟨position, statement⟩ := placed
  cases statement with
  | blockOpen kind condition => simp [marker?, markerAfter?, atBatchEdge, byBlock, now]
  | blockEnd =>
    have shut : (narration.nesting.hear ⟨position, .blockEnd⟩).depth = 0 ↔
        openBlocks (before ++ [⟨position, .blockEnd⟩]) = [] := next
    simp [marker?, markerAfter?, byBlock, shut, -openBlocks_concat]
  | _ => rfl

-- The markers so far, with an end for the batch that stands open.
def answered (events : List Event) (blocks : List Block) : List Event :=
  markers events ++ if blocks.isEmpty then [] else [.batchEnd]

theorem answered_concat {events told : List Event} {before : List Placed} {placed : Placed}
    (pairs : answered events (openBlocks before) = batchPairs (outermost before).length)
    (fine : offenceAfter? before placed = none) (new : markers told = (markerAfter? before placed).toList) :
    answered (events ++ told) (openBlocks (before ++ [placed])) =
      batchPairs (outermost (before ++ [placed])).length := by
  unfold answered at pairs ⊢
  rw [markers_append, new, openBlocks_concat, outermost_concat]
  obtain ⟨position, statement⟩ := placed
  cases statement with
  | blockOpen kind condition =>
    cases known : ScopeKind.ofName? kind with
    | none => simp [offenceAfter?, offence?, known] at fine
    | some scope =>
      by_cases outside : openBlocks before = []
      · simp only [outside, List.isEmpty_nil, if_true, List.append_nil] at pairs
        simp [markerAfter?, Statement.opensBlock, nest, known, outside, pairs, batchPairs_succ]
      · simpa [markerAfter?, Statement.opensBlock, nest, known, outside] using pairs
  | blockElse condition =>
    obtain ⟨block, outer, inside, -⟩ := fits_of_fine fine
    simpa [markerAfter?, Statement.opensBlock, nest, inside] using pairs
  | blockEnd =>
    obtain ⟨block, outer, inside, -⟩ := closes_of_fine fine
    by_cases last : outer = [] <;>
      simpa [markerAfter?, Statement.opensBlock, nest, inside, last] using pairs
  | _ => simpa [markerAfter?, Statement.opensBlock, nest] using pairs

-- A batch stands open exactly where a block does.
theorem answered_last {events : List Event} {blocks : List Block} {count : Nat}
    (pairs : answered events blocks = batchPairs count) :
    (markers events).getLast? = some .batchStart ↔ blocks ≠ [] := by
  unfold answered at pairs
  cases blocks with
  | nil =>
    have even : markers events = batchPairs count := by simpa using pairs
    cases count with
    | zero => simp [even, batchPairs]
    | succ count => simp [even, batchPairs_succ]
  | cons block outer =>
    cases count with
    | zero => simp [batchPairs] at pairs
    | succ count =>
      have odd : markers events ++ [.batchEnd] = batchPairs count ++ [.batchStart] ++ [.batchEnd] := by
        simpa [batchPairs_succ] using pairs
      simp [List.append_cancel_right odd]

theorem edge_block {before : List Placed} {placed : Placed} {edge : Edge} (made : edgeAfter? before placed = some edge) :
    edge.attrs.contains "block" = true ↔ openBlocks before ≠ [] := by
  obtain ⟨position, statement⟩ := placed
  cases statement with
  | message source arrow target label mark =>
    obtain ⟨kind, known, rfl⟩ := Option.map_eq_some_iff.1 made
    unfold branchAttrs
    cases openBlocks before with
    | nil => simp [Table.contains, Table.ofList, Table.get?_set]
    | cons block outer =>
      cases given : Roster.given block.condition <;>
        simp [given, Table.contains, Table.ofList, Table.get?_set]
  | _ => cases made

-- Edges stand in a batch where they tell of a block.
def EdgesGrouped (events : List Event) : Prop :=
  ∀ before edge after, events = before ++ .addEdge edge :: after →
    ((markers before).getLast? = some .batchStart ↔ edge.attrs.contains "block" = true)

theorem EdgesGrouped.append {events told : List Event} (grouped : EdgesGrouped events)
    (quiet : edgesOf told ≠ [] → markers told = [])
    (new : ∀ edge ∈ edgesOf told,
      ((markers events).getLast? = some .batchStart ↔ edge.attrs.contains "block" = true)) :
    EdgesGrouped (events ++ told) := by
  intro before edge after split
  rcases List.append_eq_append_iff.1 split with ⟨first, rfl, rest⟩ | ⟨rest, old, follows⟩
  · have listed : edge ∈ edgesOf told := by rw [rest, edgesOf_append]; simp [edgesOf]
    have plain := quiet (List.ne_nil_of_mem listed)
    rw [rest, markers_append] at plain
    rw [markers_append, (List.append_eq_nil_iff.1 plain).1, List.append_nil]
    exact new edge listed
  · cases rest with
    | nil =>
      have listed : edge ∈ edgesOf told := by rw [← List.nil_append told, ← follows]; simp [edgesOf]
      rw [List.append_nil] at old
      exact old ▸ new edge listed
    | cons one rest =>
      obtain ⟨rfl, -⟩ := List.cons.inj follows
      exact grouped before edge rest old

structure Parted (narration : Narration) (before : List Placed) : Prop where
  follows : Follows narration before
  byBlock : narration.batching = .block
  blocks : ∀ block ∈ openBlocks before, block.kind.isBlock = true
  layout : narration.events.head? = some (.setLayout .sequential .leftToRight Table.empty)
  pairs : answered narration.events (openBlocks before) = batchPairs (outermost before).length
  edges : EdgesGrouped narration.events

theorem opening_parted (statements : List Placed) : Parted (opening ⟨.sequence, statements⟩ .block) [] := by
  refine ⟨opening_follows statements .block, rfl, fun block member => (nomatch member), rfl, rfl, ?_⟩
  intro before edge after split
  have none : edgesOf (opening ⟨.sequence, statements⟩ .block).events = [] := rfl
  rw [split, edgesOf_append] at none
  simp [edgesOf] at none

-- A message is told without a marker, and its edge tells of the block that stands open.
theorem advance_parted {narration : Narration} {before : List Placed} (parted : Parted narration before)
    {placed : Placed} (control : placed.statement.opensControl = true) (fine : offenceAfter? before placed = none) :
    Parted (narration.advance placed) (before ++ [placed]) := by
  have marker := marker?_eq parted.follows parted.byBlock fine
  have made := edge?_eq parted.follows parted.blocks placed
  refine ⟨advance_follows parted.follows fine, parted.byBlock, ?_, ?_, ?_, ?_⟩
  · rw [openBlocks_concat]
    exact nest_isBlock parted.blocks control
  · simp [advance, List.head?_append, parted.layout]
  · exact answered_concat parted.pairs fine (by rw [markers_echo, marker])
  · refine parted.edges.append ?_ ?_
    · intro some_
      rw [echo_edges, made] at some_
      obtain ⟨position, statement⟩ := placed
      cases statement with
      | message source arrow target label mark => rw [markers_echo]; rfl
      | _ => exact absurd rfl some_
    · intro edge told
      rw [echo_edges, made] at told
      rw [answered_last parted.pairs, edge_block (Option.mem_toList.1 told)]

-- One batch around everything

structure Enclosed (narration : Narration) (before : List Placed) : Prop where
  follows : Follows narration before
  whole : narration.batching = .diagram
  inner : ∃ inner, narration.events = .batchStart :: inner ∧ markers inner = []

theorem advance_enclosed {narration : Narration} {before : List Placed} (enclosed : Enclosed narration before)
    {placed : Placed} (fine : offenceAfter? before placed = none) :
    Enclosed (narration.advance placed) (before ++ [placed]) := by
  obtain ⟨inner, events, plain⟩ := enclosed.inner
  have quiet : narration.marker? placed = none := by
    simp only [marker?, atBatchEdge, enclosed.whole]
    split <;> rfl
  refine ⟨advance_follows enclosed.follows fine, enclosed.whole, inner ++ narration.echo placed, ?_, ?_⟩
  · simp only [advance, events, List.cons_append]
  · rw [markers_append, plain, markers_echo, quiet]
    rfl

theorem ofDocument_enclosed {statements : List Placed} {narration : Narration}
    (spoken : ∀ placed ∈ statements, placed.statement.ofSequence = true)
    (told : ofDocument ⟨.sequence, statements⟩ .diagram = .ok narration) :
    ∃ inner, narration.events = .batchStart :: inner ++ [.batchEnd] ∧ markers inner = [] := by
  obtain ⟨last, run, -, rfl⟩ := (ofDocument_ok_iff _ _ _).1 told
  have decides : Decides offenceAfter? (fun placed => placed.statement.ofSequence = true) Enclosed :=
    decides_of_advance (fun _ spoken => spoken) (fun _ _ enclosed => enclosed.follows)
      fun _ _ _ enclosed _ fine => advance_enclosed enclosed fine
  obtain ⟨-, enclosed⟩ := decides.clean_of_told ⟨opening_follows statements .diagram, rfl, _, rfl, rfl⟩ spoken run
  obtain ⟨inner, events, plain⟩ := enclosed.inner
  exact ⟨inner, by simp [heldBack, enclosed.follows.format, enclosed.whole, events], plain⟩

theorem ofDocument_parted {statements : List Placed} {narration : Narration}
    (spoken : ∀ placed ∈ statements, placed.statement.ofSequence = true)
    (told : ofDocument ⟨.sequence, statements⟩ .block = .ok narration) :
    narration.events.head? = some (.setLayout .sequential .leftToRight Table.empty) ∧
      markers narration.events = batchPairs (outermost statements).length ∧ EdgesGrouped narration.events := by
  obtain ⟨last, run, closed, rfl⟩ := (ofDocument_ok_iff _ _ _).1 told
  obtain ⟨clean, follows⟩ := exchange_decides.clean_of_told (opening_follows statements .block) spoken run
  have control := control_of_clean clean (follows.closed closed)
  have decides : Decides offenceAfter?
      (fun placed => placed.statement.ofSequence = true ∧ placed.statement.opensControl = true) Parted :=
    decides_of_advance (fun _ allowed => allowed.1) (fun _ _ parted => parted.follows)
      fun _ _ _ parted allowed fine => advance_parted parted allowed.2 fine
  obtain ⟨-, parted⟩ := decides.clean_of_told (opening_parted statements)
    (fun placed member => ⟨spoken placed member, control placed member⟩) run
  have whole : last.events ++ last.heldBack ++ (if last.batching = .diagram then [.batchEnd] else []) =
      last.events := by simp [heldBack, follows.format, parted.byBlock]
  have pairs := parted.pairs
  rw [follows.closed closed] at pairs
  rw [whole]
  exact ⟨parted.layout, by simpa [answered] using pairs, parted.edges⟩

theorem ofDocument_batches {statements : List Placed}
    (spoken : ∀ placed ∈ statements, placed.statement.ofSequence = true) :
    (∃ failure, ofDocument ⟨.sequence, statements⟩ .diagram = .error failure ∧
      ofDocument ⟨.sequence, statements⟩ .block = .error failure) ∨
    ∃ whole parted, ofDocument ⟨.sequence, statements⟩ .diagram = .ok whole ∧
      ofDocument ⟨.sequence, statements⟩ .block = .ok parted ∧
      parted.roster = whole.roster ∧ parted.lifelines = whole.lifelines ∧ parted.nextMessage = whole.nextMessage ∧
      unmarked parted.events = unmarked whole.events ∧
      (∃ inner, whole.events = .batchStart :: inner ++ [.batchEnd] ∧ markers inner = []) ∧
      parted.events.head? = some (.setLayout .sequential .leftToRight Table.empty) ∧
      markers parted.events = batchPairs (outermost statements).length ∧
      ∀ before edge after, parted.events = before ++ .addEdge edge :: after →
        (WithinBatch before after ↔ edge.attrs.contains "block" = true) := by
  rcases (ofDocument_agree spoken).outcomes with stopped | ⟨whole, parted, left, right, same, events, -⟩
  · exact .inl stopped
  · obtain ⟨layout, pairs, grouped⟩ := ofDocument_parted spoken right
    refine .inr ⟨whole, parted, left, right, by rw [same], by rw [same], by rw [same], events.symm,
      ofDocument_enclosed spoken left, layout, pairs, ?_⟩
    intro before edge after split
    have around : markers before ++ markers after = batchPairs (outermost statements).length := by
      rw [← pairs, split, markers_append]
      rfl
    rw [withinBatch_iff around]
    exact grouped before edge after split

-- A message before a block, one in a block within a block, and one in a second outermost block.
theorem ofDocument_batches_nested :
    let statements : List Placed :=
      [⟨⟨1, 1⟩, .message "a" "->" "b" none none⟩, ⟨⟨2, 1⟩, .blockOpen "alt" (some "x")⟩,
       ⟨⟨3, 1⟩, .blockOpen "loop" none⟩, ⟨⟨4, 1⟩, .message "b" "-->" "a" none none⟩, ⟨⟨5, 1⟩, .blockEnd⟩,
       ⟨⟨6, 1⟩, .blockElse none⟩, ⟨⟨7, 1⟩, .blockEnd⟩, ⟨⟨8, 1⟩, .blockOpen "par" none⟩,
       ⟨⟨9, 1⟩, .message "b" "->" "c" none none⟩, ⟨⟨10, 1⟩, .blockEnd⟩]
    (∀ placed ∈ statements, placed.statement.ofSequence = true) ∧
    ∃ whole parted, ofDocument ⟨.sequence, statements⟩ .diagram = .ok whole ∧
      ofDocument ⟨.sequence, statements⟩ .block = .ok parted ∧ unmarked parted.events = unmarked whole.events ∧
      markers parted.events = [.batchStart, .batchEnd, .batchStart, .batchEnd] := by
  intro statements
  have spoken : ∀ placed ∈ statements, placed.statement.ofSequence = true := by decide
  have fine : (ofDocument ⟨.sequence, statements⟩ .diagram).toOption.isSome = true := by decide +kernel
  rcases ofDocument_batches spoken with ⟨failure, stopped, -⟩ | ⟨whole, parted, left, right, -, -, -, same, -, -, pairs, -⟩
  · rw [stopped] at fine
    cases fine
  · exact ⟨spoken, whole, parted, left, right, same, pairs⟩

end Narration
end DiagramStream
