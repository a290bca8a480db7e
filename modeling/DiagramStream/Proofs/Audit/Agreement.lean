import DiagramStream.Proofs.Audit.WellFormed
import DiagramStream.Proofs.Canvas

/-!
The audit and the canvas on one stream, whatever is wrong with it. Main statement: an event is applied exactly
when the audit has no error to report of it, save that only the canvas minds an edge whose id is taken; and what
the audit passes is applied in full.
-/

namespace DiagramStream

theorem split_at {events : List Event} {index : Nat} {event : Event} (here : events[index]? = some event) :
    events = events.take index ++ event :: events.drop (index + 1) ∧ (events.take index).length = index := by
  obtain ⟨within, same⟩ := List.getElem?_eq_some_iff.1 here
  refine ⟨?_, by simp; omega⟩
  rw [← same, ← List.drop_eq_getElem_cons within, List.take_append_drop]

namespace Audit

-- What is said of one event is said in the remarks on it.
theorem ofEvents_at {events : List Event} {index : Nat} {event : Event} (here : events[index]? = some event)
    {holds : Finding → Prop} (elsewhere : ∀ finding, finding.index? ≠ some index → holds finding) :
    (∀ finding ∈ ofEvents events, holds finding) ↔ ∀ finding ∈ remarks (events.take index) event, holds finding := by
  obtain ⟨split, length⟩ := split_at here
  rw [forall_ofEvents_iff fun finding unplaced _ => elsewhere finding (by simp [unplaced])]
  constructor
  · rintro ⟨all, -⟩
    exact all _ _ _ split
  · intro told
    refine ⟨?_, fun _ => elsewhere _ (by simp [Finding.index?])⟩
    intro before other after parts finding made
    by_cases place : before.length = index
    · have first : before = events.take index := by simp [parts, place]
      subst first
      have same : event = other := by
        have both := split.symm.trans parts
        exact (List.cons.inj (List.append_cancel_left both)).1
      exact told finding (same ▸ made)
    · exact elsewhere finding (by simpa [remarks_index? made] using place)

end Audit

namespace Canvas

-- What an event needs of the indexes to be applied

theorem addNode_done_iff {canvas : Canvas} {node : Node} :
    (canvas.addNode node).2 = .done ↔ node.id ∉ canvas.nodes.keys := by
  rw [← Table.contains_iff]
  unfold addNode
  split <;> simp_all

theorem updateNode_done_iff {canvas : Canvas} {id : String} {change : Attrs} :
    (canvas.updateNode id change).2 = .done ↔ id ∈ canvas.nodes.keys := by
  rw [Table.mem_keys_iff]
  unfold updateNode
  cases canvas.nodes.get? id <;> simp

theorem addEdge_done_iff {canvas : Canvas} {edge : Edge} :
    (canvas.addEdge edge).2 = .done ↔
      (edge.source ∈ canvas.nodes.keys ∧ edge.target ∈ canvas.nodes.keys) ∧ edge.id ∉ canvas.lines.keys := by
  simp only [← Table.contains_iff]
  unfold addEdge
  split
  · simp_all
  · split
    · simp_all
    · split <;> simp_all

-- Failed events leave the indexes as they were, so these list what the events before tell.

theorem mem_register_keys {nodes : Table Node} {event : Event} {id : String} :
    id ∈ (register nodes event).keys ↔ id ∈ nodes.keys ∨ id ∈ nodeIds [event] := by
  cases event with
  | addNode node =>
    have ids : nodeIds [.addNode node] = [node.id] := rfl
    simp only [register, Table.contains_iff]
    split
    · rename_i known
      simp only [ids, List.mem_singleton]
      exact ⟨.inl, fun either => either.elim (fun old => old) fun same => same ▸ known⟩
    · simp [ids, or_comm]
  | updateNode other change =>
    simp only [register]
    cases found : nodes.get? other with
    | none => simp [nodeIds, nodesOf]
    | some before => simp [nodeIds, nodesOf, Table.keys_set_of_mem (Table.mem_keys_of_get? found)]
  | _ => simp [register, nodeIds, nodesOf]

theorem mem_applyAll_nodes {canvas : Canvas} {events : List Event} {id : String} :
    id ∈ (canvas.applyAll events).1.nodes.keys ↔ id ∈ canvas.nodes.keys ∨ id ∈ nodeIds events := by
  rw [applyAll_nodes]
  induction events using List.reverseRecOn with
  | nil => simp [nodeIds, nodesOf]
  | append_singleton before event ih =>
    rw [List.foldl_append, List.foldl_cons, List.foldl_nil, mem_register_keys, ih, nodeIds_append, List.mem_append,
      or_assoc]

theorem mem_apply_lines {canvas : Canvas} {event : Event} {id : String} :
    id ∈ (canvas.apply event).1.lines.keys ↔
      id ∈ canvas.lines.keys ∨ ∃ edge, event = .addEdge edge ∧ (canvas.apply event).2 = .done ∧ edge.id = id := by
  cases event with
  | addEdge edge =>
    simp only [apply, addEdge]
    repeat' split
    · simp
    · simp
    · simp
    · simp [or_comm, eq_comm]
  | addNode node =>
    simp only [apply, addNode]
    split <;> simp
  | updateNode other change =>
    simp only [apply, updateNode]
    cases canvas.nodes.get? other <;> simp
  | batchEnd =>
    simp only [apply, endBatch]
    split
    · simp
    · dsimp only
      split <;> simp
  | _ => simp [apply, setLayout]

theorem mem_applyAll_lines (canvas : Canvas) (events : List Event) (id : String) :
    id ∈ (canvas.applyAll events).1.lines.keys ↔ id ∈ canvas.lines.keys ∨
      ∃ (index : Nat) (edge : Edge), events[index]? = some (.addEdge edge) ∧
        (canvas.applyAll events).2[index]? = some .done ∧ edge.id = id := by
  induction events generalizing canvas with
  | nil => simp [applyAll]
  | cons event rest ih =>
    have head : (canvas.applyAll (event :: rest)).2 =
        (canvas.apply event).2 :: ((canvas.apply event).1.applyAll rest).2 := rfl
    refine (ih (canvas.apply event).1).trans ?_
    rw [mem_apply_lines, or_assoc, head]
    refine or_congr_right ?_
    constructor
    · rintro (⟨edge, rfl, done, own⟩ | ⟨index, edge, here, done, own⟩)
      · exact ⟨0, edge, rfl, by simpa using done, own⟩
      · exact ⟨index + 1, edge, here, done, own⟩
    · rintro ⟨index, edge, here, done, own⟩
      cases index with
      | zero => exact .inl ⟨edge, by simpa using here, by simpa using done, own⟩
      | succ index => exact .inr ⟨index, edge, here, done, own⟩

theorem applyAll_length (canvas : Canvas) (events : List Event) :
    (canvas.applyAll events).2.length = events.length := by
  induction events generalizing canvas with
  | nil => rfl
  | cons event rest ih => exact congrArg (· + 1) (ih (canvas.apply event).1)

-- An event is applied to what the events before it leave.
theorem applyAll_at {canvas : Canvas} {events : List Event} {index : Nat} {event : Event}
    (here : events[index]? = some event) :
    (canvas.applyAll events).2[index]? = some ((canvas.applyAll (events.take index)).1.apply event).2 := by
  obtain ⟨split, length⟩ := split_at here
  have run := congrArg (fun stream => (canvas.applyAll stream).2) split
  simp only [applyAll_append, applyAll] at run
  rw [run, List.getElem?_append_right (by simp [applyAll_length, length]), applyAll_length, length, Nat.sub_self]
  rfl

-- The outcomes before an event are those of the events before it.
theorem applyAll_take {canvas : Canvas} {events : List Event} {index before : Nat} (earlier : before < index) :
    (canvas.applyAll (events.take index)).2[before]? = (canvas.applyAll events).2[before]? := by
  have run := congrArg (fun stream => (canvas.applyAll stream).2) (List.take_append_drop index events)
  simp only [applyAll_append] at run
  rw [← run]
  by_cases within : before < (events.take index).length
  · rw [List.getElem?_append_left (by rwa [applyAll_length])]
  · have past : events.length ≤ before := by
      rw [List.length_take] at within
      omega
    rw [List.getElem?_eq_none (by rw [applyAll_length]; omega), List.getElem?_eq_none]
    simp only [List.length_append, applyAll_length, List.length_take, List.length_drop]
    omega

theorem blank_applyAll_nodes (events : List Event) (name : String) (format : Option String) (id : String) :
    id ∈ ((blank name format).applyAll events).1.nodes.keys ↔ id ∈ nodeIds events :=
  mem_applyAll_nodes.trans (or_iff_right List.not_mem_nil)

end Canvas

-- What the audit passes can be read, if its edges have ids of their own

theorem numbers_length {events : List Event} (due : Everywhere (fun before event => event.Due before) events) :
    highest events = (numbersOf events).length := by
  obtain ⟨count, numbered⟩ := (numbers_iff events).1 (due.imp (by
    rintro before _ here edge number rfl given
    exact here.2 number given))
  rw [highest_numbered numbered, numbered]
  simp [numbersUpTo]

theorem nodeIds_of_undrawn {events : List Event} (undrawn : drawn events = false) : nodeIds events = [] := by
  refine List.map_eq_nil_iff.2 (List.filterMap_eq_nil_iff.2 ?_)
  intro event member
  have plain := List.any_eq_false.1 undrawn event member
  cases event with
  | addNode node => exact absurd rfl plain
  | _ => rfl

-- What a consumer remembers of a stream.
def Intake.ofEvents (events : List Event) : Intake :=
  ⟨nodeIds events, edgeIds events, batchOpenAfter events, (numbersOf events).length⟩

theorem Intake.ofEvents_concat (events : List Event) (event : Event) :
    ofEvents (events ++ [event]) = (ofEvents events).after event := by
  unfold ofEvents
  rw [nodeIds_append, edgeIds_append, batchOpenAfter_concat, numbersOf_append]
  cases event with
  | addEdge edge =>
    cases given : edge.sequence <;> simp [after, nodeIds, edgeIds, numbersOf, nodesOf, edgesOf, Event.isMarker, given]
  | _ => simp [after, nodeIds, edgeIds, numbersOf, nodesOf, edgesOf, Event.isMarker]

theorem reads_of_due {events : List Event} (due : Everywhere (fun before event => event.Due before) events)
    (own : (edgeIds events).Nodup) : Reads events (Intake.ofEvents events) := by
  induction events using List.reverseRecOn with
  | nil => exact .nil
  | append_singleton before event ih =>
    obtain ⟨earlier, here⟩ := everywhere_concat.1 due
    rw [edgeIds_append] at own
    obtain ⟨ownBefore, -, apart⟩ := List.nodup_append.1 own
    rw [Intake.ofEvents_concat]
    refine (ih earlier ownBefore).snoc ?_
    cases event with
    | batchStart => exact .batchStart here
    | batchEnd => exact .batchEnd here
    | setLayout layout direction attrs => exact .setLayout layout direction attrs (nodeIds_of_undrawn here)
    | addNode node => exact .addNode node here
    | updateNode id change => exact .updateNode id change here
    | addEdge edge =>
      obtain ⟨⟨source, target⟩, next⟩ := here
      have fresh : edge.id ∉ edgeIds before := fun known => apart _ known _ (by simp [edgeIds, edgesOf]) rfl
      have last : highest before = (numbersOf before).length := numbers_length earlier
      exact .addEdge edge source target fresh fun number given => last ▸ next number given

-- The agreement

namespace Audit
variable {events : List Event} {index : Nat}

theorem fine_at {event : Event} (here : events[index]? = some event) :
    (∀ finding ∈ ofEvents events, finding.index? = some index → finding.severity ≠ .error) ↔
      event.Due (events.take index) := by
  obtain ⟨-, length⟩ := split_at here
  rw [ofEvents_at here fun finding elsewhere placed => absurd placed elsewhere, ← remarks_fine_iff]
  refine forall_congr' fun finding => forall_congr' fun made => ?_
  rw [remarks_index? made, length]
  simp

theorem remarksOnEnd_known_iff {before : List Event} {role : Role} {id edge : String} :
    (∀ finding ∈ remarksOnEnd before role id edge, ∀ role id edge, finding ≠ .unknownEnd before.length role id edge) ↔
      id ∈ nodeIds before := by
  by_cases known : id ∈ nodeIds before
  · simp [remarksOnEnd, known]
  · simp [remarksOnEnd, known]

-- Of the remarks on an edge these are the ones about its ends.
theorem remarks_knownEnds_iff {before : List Event} {edge : Edge} :
    (∀ finding ∈ remarks before (.addEdge edge),
        ∀ role id other, finding ≠ .unknownEnd before.length role id other) ↔
      edge.source ∈ nodeIds before ∧ edge.target ∈ nodeIds before := by
  have same : ∀ finding ∈ (if edge.source = edge.target
      then [Finding.selfEdge before.length edge.source edge.id] else []),
      ∀ role id other, finding ≠ .unknownEnd before.length role id other := by
    simp
  have number : ∀ finding ∈ remarksOnNumber before edge,
      ∀ role id other, finding ≠ .unknownEnd before.length role id other := by
    unfold remarksOnNumber
    cases edge.sequence <;> simp
  simp only [remarks, List.forall_mem_append, remarksOnEnd_known_iff]
  exact (and_iff_left number).trans (and_iff_left same)

theorem knownEnds_at {edge : Edge} (here : events[index]? = some (.addEdge edge)) :
    (∀ finding ∈ ofEvents events, ∀ role id other, finding ≠ .unknownEnd index role id other) ↔
      edge.source ∈ nodeIds (events.take index) ∧ edge.target ∈ nodeIds (events.take index) := by
  obtain ⟨-, length⟩ := split_at here
  rw [← remarks_knownEnds_iff, length]
  refine ofEvents_at here ?_
  rintro _ elsewhere role id other rfl
  exact elsewhere rfl

end Audit

namespace Canvas
variable {events : List Event} {index : Nat} {name : String} {format : Option String}

theorem addNode_agrees {node : Node} (here : events[index]? = some (.addNode node)) :
    ((blank name format).applyAll events).2[index]? = some .done ↔
      ∀ finding ∈ Audit.ofEvents events, finding.index? = some index → finding.severity ≠ .error := by
  rw [applyAll_at here, Audit.fine_at here, Option.some.injEq]
  exact addNode_done_iff.trans (blank_applyAll_nodes ..).not

theorem updateNode_agrees {id : String} {change : Attrs} (here : events[index]? = some (.updateNode id change)) :
    ((blank name format).applyAll events).2[index]? = some .done ↔
      ∀ finding ∈ Audit.ofEvents events, finding.index? = some index → finding.severity ≠ .error := by
  rw [applyAll_at here, Audit.fine_at here, Option.some.injEq]
  exact updateNode_done_iff.trans (blank_applyAll_nodes ..)

-- An id is taken once an edge with it was applied; one that failed leaves it free.
theorem fresh_line_at {id : String} :
    id ∉ ((blank name format).applyAll (events.take index)).1.lines.keys ↔
      ∀ before other, before < index → events[before]? = some (.addEdge other) →
        ((blank name format).applyAll events).2[before]? = some .done → other.id ≠ id := by
  have none : id ∉ (blank name format).lines.keys := List.not_mem_nil
  rw [mem_applyAll_lines, or_iff_right none]
  constructor
  · rintro fresh before other earlier there done rfl
    exact fresh ⟨before, other, by rwa [List.getElem?_take_of_lt earlier], by rwa [applyAll_take earlier], rfl⟩
  · rintro apart ⟨before, other, there, done, own⟩
    have earlier : before < index := by
      obtain ⟨within, -⟩ := List.getElem?_eq_some_iff.1 there
      rw [List.length_take] at within
      omega
    rw [List.getElem?_take_of_lt earlier] at there
    rw [applyAll_take earlier] at done
    exact apart before other earlier there done own

theorem addEdge_agrees {edge : Edge} (here : events[index]? = some (.addEdge edge)) :
    ((blank name format).applyAll events).2[index]? = some .done ↔
      (∀ finding ∈ Audit.ofEvents events, ∀ role id other, finding ≠ .unknownEnd index role id other) ∧
        ∀ before other, before < index → events[before]? = some (.addEdge other) →
          ((blank name format).applyAll events).2[before]? = some .done → other.id ≠ edge.id := by
  rw [applyAll_at here, Audit.knownEnds_at here, Option.some.injEq, ← fresh_line_at]
  refine addEdge_done_iff.trans (and_congr_left fun _ => ?_)
  exact and_congr (blank_applyAll_nodes ..) (blank_applyAll_nodes ..)

theorem applyAll_done (fine : ∀ finding ∈ Audit.ofEvents events, finding.severity ≠ .error)
    (own : (edgeIds events).Nodup) :
    ((blank name format).applyAll events).2 = events.map (fun _ => .done) ∧
      ((blank name format).applyAll events).1.inBatch = false := by
  obtain ⟨due, closed⟩ := Audit.ofEvents_fine_iff.1 fine
  obtain ⟨done, holds⟩ := applyAll_holds (reads_of_due due own) name format
  have batches : ((blank name format).applyAll events).1.batches = 0 := by
    rw [holds.batches]
    simp [Intake.ofEvents, closed]
  exact ⟨done, by simp [inBatch, batches]⟩

theorem applyAll_agrees (events : List Event) (name : String) (format : Option String) :
    let findings := Audit.ofEvents events
    let run := (blank name format).applyAll events
    (∀ index node, events[index]? = some (.addNode node) →
      (run.2[index]? = some .done ↔
        ∀ finding ∈ findings, finding.index? = some index → finding.severity ≠ .error)) ∧
    (∀ index id change, events[index]? = some (.updateNode id change) →
      (run.2[index]? = some .done ↔
        ∀ finding ∈ findings, finding.index? = some index → finding.severity ≠ .error)) ∧
    (∀ index edge, events[index]? = some (.addEdge edge) →
      (run.2[index]? = some .done ↔
        (∀ finding ∈ findings, ∀ role id other, finding ≠ .unknownEnd index role id other) ∧
          ∀ before other, before < index → events[before]? = some (.addEdge other) →
            run.2[before]? = some .done → other.id ≠ edge.id)) ∧
    ((∀ finding ∈ findings, finding.severity ≠ .error) → (edgeIds events).Nodup →
      run.2 = events.map (fun _ => .done) ∧ run.1.inBatch = false) :=
  ⟨fun _ _ here => addNode_agrees here, fun _ _ _ here => updateNode_agrees here,
    fun _ _ here => addEdge_agrees here, fun fine own => applyAll_done fine own⟩

-- An edge tried before its target is told, then applied, then told once more; and a stream that is passed.
theorem applyAll_agrees_retried :
    let node (id : String) : Node := ⟨id, genericKind, id, Table.empty⟩
    let edge : Edge := ⟨"e", "a", "b", none, none, Table.empty⟩
    let events : List Event :=
      [.addNode (node "a"), .addEdge edge, .addNode (node "b"), .addEdge edge, .addEdge edge, .updateNode "c" Table.empty]
    let passed : List Event := [.batchStart, .addNode (node "a"), .addNode (node "b"), .addEdge edge, .batchEnd]
    let outcomes := ((blank "" none).applyAll events).2
    outcomes[0]? = some .done ∧ outcomes[1]? ≠ some .done ∧ outcomes[3]? = some .done ∧
      outcomes[4]? ≠ some .done ∧ outcomes[5]? ≠ some .done ∧
      ((blank "" none).applyAll passed).1.inBatch = false := by
  intro node edge events passed outcomes
  obtain ⟨nodes, updates, edges, -⟩ := applyAll_agrees events "" none
  have first : ¬∀ finding ∈ Audit.ofEvents events, ∀ role id other, finding ≠ .unknownEnd 1 role id other :=
    fun known => known (.unknownEnd 1 .target "b" "e") (by decide) _ _ _ rfl
  have second : outcomes[3]? = some .done := by
    refine (edges 3 edge rfl).2 ⟨(Audit.knownEnds_at rfl).2 (by decide), ?_⟩
    intro before other earlier there done
    obtain rfl | rfl | rfl : before = 0 ∨ before = 1 ∨ before = 2 := by omega
    · cases there
    · exact absurd ((edges 1 edge rfl).1 done).1 first
    · cases there
  refine ⟨(nodes 0 _ rfl).2 (by decide), fun done => first ((edges 1 edge rfl).1 done).1, second, ?_, ?_, ?_⟩
  · exact fun done => ((edges 4 edge rfl).1 done).2 3 edge (by decide) rfl second rfl
  · exact fun done => (updates 5 _ _ rfl).1 done (.unknownNode 5 "c") (by decide) rfl rfl
  · exact ((applyAll_agrees passed "" none).2.2.2 (by decide) (by decide)).2

end Canvas
end DiagramStream
