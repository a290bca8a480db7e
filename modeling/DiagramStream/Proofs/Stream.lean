import DiagramStream.Audit
import DiagramStream.Canvas
import DiagramStream.Proofs.Table

/-!
Streams that a consumer can take event by event. Main statements: on such a stream the audit finds no
error, and a blank canvas applies every event.
-/

namespace DiagramStream

def nodesOf (events : List Event) : List Node :=
  events.filterMap fun
    | .addNode node => some node
    | _ => none

def edgesOf (events : List Event) : List Edge :=
  events.filterMap fun
    | .addEdge edge => some edge
    | _ => none

@[simp] theorem nodesOf_append (earlier later : List Event) :
    nodesOf (earlier ++ later) = nodesOf earlier ++ nodesOf later := List.filterMap_append

@[simp] theorem edgesOf_append (earlier later : List Event) :
    edgesOf (earlier ++ later) = edgesOf earlier ++ edgesOf later := List.filterMap_append

theorem edgesOf_nil_of {events : List Event} (none : ∀ event ∈ events, ∀ edge, event ≠ .addEdge edge) :
    edgesOf events = [] := by
  refine List.filterMap_eq_nil_iff.2 ?_
  intro event member
  cases event with
  | addEdge edge => exact absurd rfl (none _ member edge)
  | _ => rfl

@[simp] theorem edgesOf_addEdges (edges : List Edge) : edgesOf (edges.map .addEdge) = edges := by
  induction edges with
  | nil => rfl
  | cons edge rest ih => exact congrArg (edge :: ·) ih

@[simp] theorem edgesOf_addNodes (nodes : List Node) : edgesOf (nodes.map .addNode) = [] := by
  refine edgesOf_nil_of ?_
  rintro event member edge rfl
  obtain ⟨node, -, same⟩ := List.mem_map.1 member
  cases same

@[simp] theorem nodesOf_addNodes (nodes : List Node) : nodesOf (nodes.map .addNode) = nodes := by
  induction nodes with
  | nil => rfl
  | cons node rest ih => exact congrArg (node :: ·) ih

@[simp] theorem nodesOf_addEdges (edges : List Edge) : nodesOf (edges.map .addEdge) = [] := by
  refine List.filterMap_eq_nil_iff.2 ?_
  intro event member
  obtain ⟨edge, -, rfl⟩ := List.mem_map.1 member
  rfl

-- What a consumer has taken in so far. Layout hints need no memory of their own: node and edge events
-- are only taken once some node is known, so the hints are over as soon as `nodes` is not empty.
structure Intake where
  nodes : List String
  edges : List String
  inBatch : Bool
  numbered : Nat

namespace Intake

def start : Intake := ⟨[], [], false, 0⟩

def after (intake : Intake) : Event → Intake
  | .batchStart => { intake with inBatch := true }
  | .batchEnd => { intake with inBatch := false }
  | .setLayout .. => intake
  | .addNode node => { intake with nodes := intake.nodes ++ [node.id] }
  | .updateNode .. => intake
  | .addEdge edge =>
    { intake with
      edges := intake.edges ++ [edge.id]
      numbered := if edge.sequence.isSome then intake.numbered + 1 else intake.numbered }

inductive Takes (intake : Intake) : Event → Prop where
  | batchStart : intake.inBatch = false → Takes intake .batchStart
  | batchEnd : intake.inBatch = true → Takes intake .batchEnd
  | setLayout (layout : Layout) (direction : Direction) (attrs : Attrs) :
      intake.nodes = [] → Takes intake (.setLayout layout direction attrs)
  | addNode (node : Node) : node.id ∉ intake.nodes → Takes intake (.addNode node)
  | updateNode (id : String) (change : Attrs) : id ∈ intake.nodes → Takes intake (.updateNode id change)
  | addEdge (edge : Edge) : edge.source ∈ intake.nodes → edge.target ∈ intake.nodes →
      edge.id ∉ intake.edges → (∀ number, edge.sequence = some number → number = intake.numbered + 1) →
      Takes intake (.addEdge edge)

end Intake

-- Streams grow at their end, as they are told.
inductive Reads : List Event → Intake → Prop where
  | nil : Reads [] Intake.start
  | snoc : Reads events intake → intake.Takes event → Reads (events ++ [event]) (intake.after event)

theorem Reads.updates {events changes : List Event} {intake : Intake} (reads : Reads events intake)
    (known : ∀ event ∈ changes, ∃ id change, event = .updateNode id change ∧ id ∈ intake.nodes) :
    Reads (events ++ changes) intake := by
  induction changes generalizing events with
  | nil => simpa using reads
  | cons event rest ih =>
    obtain ⟨id, change, rfl, listed⟩ := known event (by simp)
    have next : Reads (events ++ [.updateNode id change]) intake := reads.snoc (.updateNode id change listed)
    simpa using ih next fun later member => known later (by simp [member])

-- Ids made of a word and a number that counts from one.
def numberedIds (word : String) (count : Nat) : List String :=
  (List.range count).map fun number => word ++ toString (number + 1)

theorem numberedIds_succ (word : String) (count : Nat) :
    numberedIds word (count + 1) = numberedIds word count ++ [word ++ toString (count + 1)] := by
  simp [numberedIds, List.range_succ]

theorem toString_injective {one other : Nat} (same : toString one = toString other) : one = other := by
  have values := congrArg (Nat.ofDigitChars 10 · 0) (congrArg String.toList same)
  simpa using values

theorem numbered_injective {word : String} {one other : Nat} (same : word ++ toString one = word ++ toString other) :
    one = other := toString_injective ((String.append_right_inj word).1 same)

theorem numberedIds_fresh (word : String) (count : Nat) :
    word ++ toString (count + 1) ∉ numberedIds word count := by
  intro listed
  obtain ⟨number, below, same⟩ := List.mem_map.1 listed
  have equal := numbered_injective same
  have bound := List.mem_range.1 below
  omega

theorem numberedIds_nodup (word : String) (count : Nat) : (numberedIds word count).Nodup := by
  induction count with
  | zero => exact List.nodup_nil
  | succ count ih =>
    rw [numberedIds_succ]
    refine List.nodup_append.2 ⟨ih, by simp, ?_⟩
    intro old member new last same
    cases List.mem_singleton.1 last
    exact numberedIds_fresh word count (same ▸ member)

namespace Audit

theorem lookAll_append (audit : Audit) (index : Nat) (earlier later : List Event) :
    audit.lookAll index (earlier ++ later) =
      (audit.lookAll index earlier).lookAll (index + earlier.length) later := by
  induction earlier generalizing audit index with
  | nil => rfl
  | cons event rest ih =>
    simp only [List.cons_append, lookAll, ih, List.length_cons]
    congr 1
    omega

-- The audit knows what the consumer knows, and has nothing to object to so far.
structure Agrees (audit : Audit) (intake : Intake) : Prop where
  nodes : audit.nodes = intake.nodes
  batch : audit.batchOpen = intake.inBatch
  told : audit.told = true → intake.nodes ≠ []
  last : audit.lastSequence = intake.numbered
  fine : ∀ finding ∈ audit.findings, finding.severity ≠ .error

theorem start_agrees : Agrees start Intake.start := by
  refine ⟨rfl, rfl, ?_, rfl, ?_⟩
  · intro told; cases told
  · intro finding member; cases member

theorem number_agrees {audit : Audit} (intake : Intake) {edge : Edge} (index : Nat)
    (agrees : Agrees audit intake)
    (next : ∀ number, edge.sequence = some number → number = intake.numbered + 1) :
    Agrees (audit.number index edge)
      { intake with numbered := if edge.sequence.isSome then intake.numbered + 1 else intake.numbered } := by
  cases given : edge.sequence with
  | none => simpa [number, given] using agrees
  | some number =>
    have last := agrees.last
    have follows : number = audit.lastSequence + 1 := by rw [last]; exact next number given
    refine ⟨?_, ?_, ?_, ?_, ?_⟩
    all_goals simp only [Audit.number, given, follows, noteIf, ne_eq, not_true, decide_false,
      Bool.false_eq_true, if_false, Option.isSome_some, if_true]
    · exact agrees.nodes
    · exact agrees.batch
    · exact agrees.told
    · rw [last]; omega
    · exact agrees.fine

-- An edge from a node to itself is worth a remark, and no error.
theorem addEdge_agrees {audit : Audit} {intake : Intake} {edge : Edge} (index : Nat)
    (agrees : Agrees audit intake) (source : edge.source ∈ intake.nodes) (target : edge.target ∈ intake.nodes)
    (next : ∀ number, edge.sequence = some number → number = intake.numbered + 1) :
    Agrees (audit.addEdge index edge) (intake.after (.addEdge edge)) := by
  have known : intake.nodes ≠ [] := List.ne_nil_of_mem source
  unfold addEdge
  apply number_agrees { intake with edges := intake.edges ++ [edge.id] } index _ next
  simp only [noteIf, agrees.nodes, List.contains_iff_mem.2 source, List.contains_iff_mem.2 target,
    Bool.not_true, Bool.false_eq_true, if_false]
  split
  · refine ⟨rfl, agrees.batch, fun _ => known, agrees.last, ?_⟩
    intro finding member
    rcases List.mem_append.1 member with old | new
    · exact agrees.fine finding old
    · cases List.mem_singleton.1 new; simp [Finding.severity]
  · exact ⟨rfl, agrees.batch, fun _ => known, agrees.last, agrees.fine⟩

theorem look_agrees {audit : Audit} {intake : Intake} {event : Event} (index : Nat)
    (agrees : Agrees audit intake) (takes : intake.Takes event) :
    Agrees (audit.look index event) (intake.after event) := by
  have batch := agrees.batch
  cases takes with
  | batchStart closed =>
    simp only [look, noteIf, batch, closed, Bool.false_eq_true, if_false]
    exact ⟨agrees.nodes, rfl, agrees.told, agrees.last, agrees.fine⟩
  | batchEnd opened =>
    simp only [look, noteIf, batch, opened, Bool.not_true, Bool.false_eq_true, if_false]
    exact ⟨agrees.nodes, rfl, agrees.told, agrees.last, agrees.fine⟩
  | setLayout layout direction attrs first =>
    have early : audit.told = false := by
      cases told : audit.told with
      | false => rfl
      | true => exact absurd first (agrees.told told)
    simp only [look, noteIf, early, Bool.false_eq_true, if_false]
    exact agrees
  | addNode node fresh =>
    have absent : audit.nodes.contains node.id = false := by simpa [agrees.nodes] using fresh
    simp only [look, addNode, absent, Bool.false_eq_true, if_false]
    refine ⟨?_, batch, ?_, agrees.last, agrees.fine⟩
    · simp [Intake.after, agrees.nodes]
    · simp [Intake.after]
  | updateNode id change known =>
    have listed : audit.nodes.contains id = true := by simpa [agrees.nodes] using known
    simp only [look, noteIf, listed, Bool.not_true, Bool.false_eq_true, if_false]
    exact ⟨agrees.nodes, batch, fun _ => List.ne_nil_of_mem known, agrees.last, agrees.fine⟩
  | addEdge edge source target fresh next => exact addEdge_agrees index agrees source target next

theorem lookAll_agrees {events : List Event} {intake : Intake} (reads : Reads events intake) :
    Agrees (start.lookAll 0 events) intake := by
  induction reads with
  | nil => exact start_agrees
  | snoc prior takes ih =>
    rw [lookAll_append]
    exact look_agrees _ ih takes

theorem ofEvents_fine {events : List Event} {intake : Intake} (reads : Reads events intake)
    (closed : intake.inBatch = false) : ∀ finding ∈ ofEvents events, finding.severity ≠ .error := by
  have agrees := lookAll_agrees reads
  intro finding member
  unfold ofEvents at member
  split at member
  · cases List.mem_singleton.1 member; decide
  · unfold finish at member
    simp only [noteIf, agrees.batch, closed, Bool.false_eq_true, if_false] at member
    split at member
    · rcases List.mem_append.1 member with old | new
      · exact agrees.fine finding old
      · cases List.mem_singleton.1 new; simp [Finding.severity]
    · exact agrees.fine finding member

end Audit

namespace Canvas

theorem applyAll_append (canvas : Canvas) (earlier later : List Event) :
    canvas.applyAll (earlier ++ later) =
      (((canvas.applyAll earlier).1.applyAll later).1,
        (canvas.applyAll earlier).2 ++ ((canvas.applyAll earlier).1.applyAll later).2) := by
  induction earlier generalizing canvas with
  | nil => rfl
  | cons event rest ih => simp [applyAll, ih]

@[simp] theorem announce_nodes (canvas : Canvas) : canvas.announce.nodes = canvas.nodes := by
  unfold announce; split <;> rfl

@[simp] theorem announce_lines (canvas : Canvas) : canvas.announce.lines = canvas.lines := by
  unfold announce; split <;> rfl

@[simp] theorem announce_batches (canvas : Canvas) : canvas.announce.batches = canvas.batches := by
  unfold announce; split <;> rfl

-- The indexes hold what the consumer knows. Batches of such a stream never nest.
structure Holds (canvas : Canvas) (intake : Intake) : Prop where
  nodes : ∀ id, id ∈ canvas.nodes.keys ↔ id ∈ intake.nodes
  lines : ∀ id, id ∈ canvas.lines.keys ↔ id ∈ intake.edges
  batches : canvas.batches = if intake.inBatch then 1 else 0

theorem blank_holds (name : String) (format : Option String) : Holds (blank name format) Intake.start := by
  refine ⟨?_, ?_, rfl⟩
  · intro id; exact Iff.rfl
  · intro id; exact Iff.rfl

theorem Holds.announce {canvas : Canvas} {intake : Intake} (holds : Holds canvas intake) :
    Holds canvas.announce intake := by
  refine ⟨?_, ?_, ?_⟩
  · simpa using holds.nodes
  · simpa using holds.lines
  · simpa using holds.batches

theorem endBatch_holds {canvas : Canvas} {intake : Intake} (holds : Holds canvas intake)
    (opened : intake.inBatch = true) :
    canvas.endBatch.2 = .done ∧ Holds canvas.endBatch.1 { intake with inBatch := false } := by
  have one : canvas.batches = 1 := by simpa [opened] using holds.batches
  have shut : Holds { canvas with batches := 0 } { intake with inBatch := false } :=
    ⟨holds.nodes, holds.lines, rfl⟩
  simp only [endBatch, one, true_and]
  split
  · exact shut.announce
  · exact shut

theorem apply_holds {canvas : Canvas} {intake : Intake} {event : Event} (holds : Holds canvas intake)
    (takes : intake.Takes event) :
    (canvas.apply event).2 = .done ∧ Holds (canvas.apply event).1 (intake.after event) := by
  cases takes with
  | batchStart closed =>
    have none : canvas.batches = 0 := by simpa [closed] using holds.batches
    exact ⟨rfl, holds.nodes, holds.lines, by simp [apply, Intake.after, none]⟩
  | batchEnd opened => exact endBatch_holds holds opened
  | setLayout layout direction attrs first =>
    have placed : Holds { canvas with diagram := { canvas.diagram with
        layout := some layout, direction := some direction, layoutAttrs := attrs } } intake :=
      ⟨holds.nodes, holds.lines, holds.batches⟩
    exact ⟨rfl, placed.announce⟩
  | addNode node fresh =>
    have absent : canvas.nodes.contains node.id = false := by
      rw [← Bool.not_eq_true, Table.contains_iff, holds.nodes]; exact fresh
    simp only [apply, addNode, absent, Bool.false_eq_true, if_false, true_and]
    refine Holds.announce ⟨?_, holds.lines, holds.batches⟩
    intro id
    simp [Intake.after, holds.nodes, or_comm]
  | updateNode id change known =>
    obtain ⟨before, found⟩ := (Table.mem_keys_iff _ _).1 ((holds.nodes id).2 known)
    simp only [apply, updateNode, found, true_and]
    refine Holds.announce ⟨?_, holds.lines, holds.batches⟩
    intro other
    have listed := (holds.nodes id).2 known
    simpa [Table.keys_set_of_mem listed, Intake.after] using holds.nodes other
  | addEdge edge source target fresh next =>
    have absent : canvas.lines.contains edge.id = false := by
      rw [← Bool.not_eq_true, Table.contains_iff, holds.lines]; exact fresh
    have source : canvas.nodes.contains edge.source = true := by
      rw [Table.contains_iff, holds.nodes]; exact source
    have target : canvas.nodes.contains edge.target = true := by
      rw [Table.contains_iff, holds.nodes]; exact target
    simp only [apply, addEdge, absent, source, target, Bool.not_true, Bool.false_eq_true, if_false, true_and]
    refine Holds.announce ⟨holds.nodes, ?_, holds.batches⟩
    intro id
    simp [Intake.after, holds.lines, or_comm]

theorem applyAll_holds {events : List Event} {intake : Intake} (reads : Reads events intake) (name : String)
    (format : Option String) :
    let run := (blank name format).applyAll events
    run.2 = events.map (fun _ => .done) ∧ Holds run.1 intake := by
  induction reads with
  | nil => exact ⟨rfl, blank_holds name format⟩
  | snoc prior takes ih =>
    obtain ⟨applied, holds⟩ := ih
    obtain ⟨done, after⟩ := apply_holds holds takes
    rw [applyAll_append]
    refine ⟨?_, after⟩
    simp [applyAll, applied, done]

end Canvas
end DiagramStream
