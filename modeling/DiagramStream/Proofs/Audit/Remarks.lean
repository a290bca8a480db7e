import Mathlib.Data.List.Induction
import DiagramStream.Proofs.Batch
import DiagramStream.Proofs.Stream

/-!
What the audit says of a stream, event by event. Main statement: its remarks on an event are decided by the
events before it, whatever was wrong with those, and the findings about a stream are the remarks on its events.
-/

namespace DiagramStream

-- Places in a stream

-- Something holds of every event and those before it.
def Everywhere (holds : List Event → Event → Prop) (events : List Event) : Prop :=
  ∀ before event after, events = before ++ event :: after → holds before event

section
variable {holds : List Event → Event → Prop} {events : List Event}

theorem everywhere_nil : Everywhere holds [] := by
  intro before event after split
  simp at split

theorem everywhere_concat {event : Event} :
    Everywhere holds (events ++ [event]) ↔ Everywhere holds events ∧ holds events event := by
  constructor
  · intro all
    refine ⟨?_, all events event [] rfl⟩
    intro before other after split
    exact all before other (after ++ [event]) (by simp [split])
  · rintro ⟨earlier, last⟩ before other after split
    rcases List.eq_nil_or_concat after with rfl | ⟨between, final, rfl⟩
    · obtain ⟨rfl, rfl⟩ := List.append_singleton_inj.1 split
      exact last
    · rw [List.concat_eq_append, ← List.cons_append, ← List.append_assoc] at split
      exact earlier before other between (List.append_singleton_inj.1 split).1

theorem Everywhere.imp {other : List Event → Event → Prop}
    (weaker : ∀ before event, holds before event → other before event) (all : Everywhere holds events) :
    Everywhere other events :=
  fun before event after split => weaker before event (all before event after split)

end

-- What a stream has told

def nodeIds (events : List Event) : List String := (nodesOf events).map Node.id

def edgeIds (events : List Event) : List String := (edgesOf events).map Edge.id

-- The numbers of its messages.
def numbersOf (events : List Event) : List Int := (edgesOf events).filterMap Edge.sequence

-- The highest number so far, none counting as zero.
def highest (events : List Event) : Int := (numbersOf events).foldl max 0

-- The last marker was a start.
def batchOpenAfter (events : List Event) : Bool := (markers events).getLast? = some .batchStart

-- Layout hints go before all of these.
def Event.draws : Event → Bool
  | .addNode _ => true
  | .updateNode .. => true
  | .addEdge _ => true
  | _ => false

def drawn (events : List Event) : Bool := events.any Event.draws

@[simp] theorem nodeIds_append (earlier later : List Event) :
    nodeIds (earlier ++ later) = nodeIds earlier ++ nodeIds later := by simp [nodeIds]

@[simp] theorem edgeIds_append (earlier later : List Event) :
    edgeIds (earlier ++ later) = edgeIds earlier ++ edgeIds later := by simp [edgeIds]

@[simp] theorem numbersOf_append (earlier later : List Event) :
    numbersOf (earlier ++ later) = numbersOf earlier ++ numbersOf later := by simp [numbersOf]

@[simp] theorem drawn_append (earlier later : List Event) :
    drawn (earlier ++ later) = (drawn earlier || drawn later) := by simp [drawn]

theorem batchOpenAfter_concat (events : List Event) (event : Event) :
    batchOpenAfter (events ++ [event]) =
      if event.isMarker then decide (event = .batchStart) else batchOpenAfter events := by
  cases event <;> simp [batchOpenAfter, markers, Event.isMarker]

theorem highest_concat (events : List Event) (event : Event) :
    highest (events ++ [event]) = (numbersOf [event]).foldl max (highest events) := by
  simp [highest, List.foldl_append]

namespace Audit

def remarksOnEnd (before : List Event) (role : Role) (id edge : String) : List Finding :=
  if id ∈ nodeIds before then [] else [.unknownEnd before.length role id edge]

def remarksOnNumber (before : List Event) (edge : Edge) : List Finding :=
  match edge.sequence with
  | none => []
  | some number =>
    if number = highest before + 1 then [] else [.sequenceGap before.length number (highest before) edge.id]

-- The remarks on an event that comes after others.
def remarks (before : List Event) : Event → List Finding
  | .batchStart => if batchOpenAfter before then [.nestedStart before.length] else []
  | .batchEnd => if batchOpenAfter before then [] else [.strayEnd before.length]
  | .setLayout .. => if drawn before then [.lateLayout before.length] else []
  | .addNode node => if node.id ∈ nodeIds before then [.nodeTwice before.length node.id] else []
  | .updateNode id _ => if id ∈ nodeIds before then [] else [.unknownNode before.length id]
  | .addEdge edge =>
    remarksOnEnd before .source edge.source edge.id ++ remarksOnEnd before .target edge.target edge.id
      ++ (if edge.source = edge.target then [.selfEdge before.length edge.source edge.id] else [])
      ++ remarksOnNumber before edge

-- The memory of an audit is that of the stream. It remembers each id once, also one that is added again.
structure Recalls (audit : Audit) (before : List Event) : Prop where
  nodes : ∀ id, id ∈ audit.nodes ↔ id ∈ nodeIds before
  batch : audit.batchOpen = batchOpenAfter before
  told : audit.told = drawn before
  last : audit.lastSequence = highest before

theorem start_recalls : Recalls start [] := ⟨fun _ => Iff.rfl, rfl, rfl, rfl⟩

section
variable {audit : Audit} {before : List Event}

@[simp] theorem note_nodes (finding : Finding) : (audit.note finding).nodes = audit.nodes := rfl

@[simp] theorem noteIf_nodes (holds : Bool) (finding : Finding) :
    (audit.noteIf holds finding).nodes = audit.nodes := by unfold noteIf; split <;> rfl

@[simp] theorem noteIf_batchOpen (holds : Bool) (finding : Finding) :
    (audit.noteIf holds finding).batchOpen = audit.batchOpen := by unfold noteIf; split <;> rfl

@[simp] theorem noteIf_told (holds : Bool) (finding : Finding) :
    (audit.noteIf holds finding).told = audit.told := by unfold noteIf; split <;> rfl

@[simp] theorem noteIf_lastSequence (holds : Bool) (finding : Finding) :
    (audit.noteIf holds finding).lastSequence = audit.lastSequence := by unfold noteIf; split <;> rfl

theorem noteIf_findings (holds : Bool) (finding : Finding) :
    (audit.noteIf holds finding).findings = audit.findings ++ if holds then [finding] else [] := by
  unfold noteIf
  cases holds
  · simp
  · rfl

theorem number_same (index : Nat) (edge : Edge) :
    (audit.number index edge).nodes = audit.nodes ∧ (audit.number index edge).batchOpen = audit.batchOpen ∧
      (audit.number index edge).told = audit.told := by
  unfold number
  split
  · exact ⟨rfl, rfl, rfl⟩
  · simp

theorem number_last (index : Nat) (edge : Edge) :
    (audit.number index edge).lastSequence = (numbersOf [.addEdge edge]).foldl max audit.lastSequence := by
  cases given : edge.sequence with
  | none => simp [number, numbersOf, edgesOf, given]
  | some number => simp [Audit.number, numbersOf, edgesOf, given]

theorem number_findings (index : Nat) (edge : Edge) :
    (audit.number index edge).findings = audit.findings ++ match edge.sequence with
      | none => []
      | some number =>
        if number = audit.lastSequence + 1 then [] else [.sequenceGap index number audit.lastSequence edge.id] := by
  cases given : edge.sequence with
  | none => simp [number, given]
  | some number =>
    simp only [Audit.number, given, noteIf_findings, decide_eq_true_eq]
    split <;> simp_all

-- What an event adds to the memory, whether there is a remark on it or not.

theorem mem_look_nodes (index : Nat) (event : Event) (id : String) :
    id ∈ (audit.look index event).nodes ↔ id ∈ audit.nodes ∨ id ∈ nodeIds [event] := by
  cases event with
  | addNode node =>
    have ids : nodeIds [.addNode node] = [node.id] := rfl
    dsimp only [look, addNode]
    split
    · rename_i known
      have listed : node.id ∈ audit.nodes := by simpa using known
      simp only [note_nodes, ids, List.mem_singleton]
      exact ⟨.inl, fun either => either.elim (fun old => old) fun same => same ▸ listed⟩
    · simp [ids]
  | addEdge edge => simp [look, addEdge, number_same, nodeIds, nodesOf]
  | _ => simp [look, nodeIds, nodesOf]

theorem look_batchOpen (index : Nat) (event : Event) :
    (audit.look index event).batchOpen =
      if event.isMarker then decide (event = .batchStart) else audit.batchOpen := by
  cases event with
  | addNode node =>
    dsimp only [look, addNode]
    split <;> rfl
  | addEdge edge => simp [look, addEdge, number_same, Event.isMarker]
  | _ => simp [look, Event.isMarker]

theorem look_told (index : Nat) (event : Event) :
    (audit.look index event).told = (audit.told || drawn [event]) := by
  cases event with
  | addNode node =>
    dsimp only [look, addNode]
    split <;> simp [note, drawn, Event.draws]
  | addEdge edge => simp [look, addEdge, number_same, drawn, Event.draws]
  | _ => simp [look, drawn, Event.draws]

theorem look_lastSequence (index : Nat) (event : Event) :
    (audit.look index event).lastSequence = (numbersOf [event]).foldl max audit.lastSequence := by
  cases event with
  | addNode node =>
    dsimp only [look, addNode]
    split <;> rfl
  | addEdge edge => simp [look, addEdge, number_last]
  | _ => simp [look, numbersOf, edgesOf]

theorem look_recalls (recalls : Recalls audit before) (index : Nat) (event : Event) :
    Recalls (audit.look index event) (before ++ [event]) := by
  refine ⟨?_, ?_, ?_, ?_⟩
  · intro id
    rw [mem_look_nodes, recalls.nodes, nodeIds_append, List.mem_append]
  · rw [look_batchOpen, recalls.batch, batchOpenAfter_concat]
  · rw [look_told, recalls.told, drawn_append]
  · rw [look_lastSequence, recalls.last, highest_concat]

theorem look_findings (recalls : Recalls audit before) (event : Event) :
    (audit.look before.length event).findings = audit.findings ++ remarks before event := by
  obtain ⟨nodes, batch, told, last⟩ := recalls
  cases event with
  | batchStart => simp [look, remarks, noteIf_findings, batch]
  | batchEnd => cases opened : batchOpenAfter before <;> simp [look, remarks, noteIf_findings, batch, opened]
  | setLayout => simp [look, remarks, noteIf_findings, told]
  | addNode node =>
    dsimp only [look, addNode, remarks]
    simp only [List.contains_iff_mem, nodes]
    split <;> simp [note]
  | updateNode id change => simp [look, remarks, noteIf_findings, nodes]
  | addEdge edge =>
    simp [look, addEdge, remarks, remarksOnEnd, remarksOnNumber, noteIf_findings, nodes, number_findings, last]

end

theorem lookAll_recalls (events : List Event) : Recalls (start.lookAll 0 events) events := by
  induction events using List.reverseRecOn with
  | nil => exact start_recalls
  | append_singleton before event ih =>
    rw [lookAll_append]
    exact look_recalls ih _ event

variable {events : List Event} {holds : Finding → Prop}

theorem forall_lookAll_iff :
    (∀ finding ∈ (start.lookAll 0 events).findings, holds finding) ↔
      Everywhere (fun before event => ∀ finding ∈ remarks before event, holds finding) events := by
  induction events using List.reverseRecOn with
  | nil => exact iff_of_true (fun _ member => nomatch member) everywhere_nil
  | append_singleton before event ih =>
    have found : (start.lookAll 0 (before ++ [event])).findings =
        (start.lookAll 0 before).findings ++ remarks before event := by
      rw [lookAll_append, Nat.zero_add]
      exact look_findings (lookAll_recalls before) event
    rw [everywhere_concat, ← ih, found, List.forall_mem_append]

-- Besides the remarks there is a batch left open to report; what else is said of a stream as a whole is no error.
theorem forall_ofEvents_iff (harmless : ∀ finding, finding.index? = none → finding.severity ≠ .error → holds finding) :
    (∀ finding ∈ ofEvents events, holds finding) ↔
      Everywhere (fun before event => ∀ finding ∈ remarks before event, holds finding) events ∧
        (batchOpenAfter events = true → holds .openBatch) := by
  have empty : holds .emptyStream := harmless _ rfl (by decide)
  have orphans (ids : List String) : holds (.orphans ids) := harmless _ rfl (by simp [Finding.severity])
  rw [← forall_lookAll_iff]
  cases events with
  | nil => simp [ofEvents, start, lookAll, empty, batchOpenAfter, markers]
  | cons first rest =>
    have memory := lookAll_recalls (first :: rest)
    simp only [ofEvents, finish, noteIf_findings, memory.batch, List.forall_mem_append, and_assoc]
    refine and_congr_right fun _ => ?_
    constructor
    · rintro ⟨unclosed, -⟩ opened
      exact unclosed _ (by simp [opened])
    · intro unclosed
      refine ⟨?_, ?_⟩
      · intro finding member
        obtain ⟨opened, rfl⟩ := List.mem_ite_nil_right.1 member |>.imp_right List.mem_singleton.1
        exact unclosed opened
      · intro finding member
        obtain ⟨-, rfl⟩ := List.mem_ite_nil_right.1 member |>.imp_right List.mem_singleton.1
        exact orphans _

-- Every remark names the place of its event.
theorem remarks_index? {before : List Event} {event : Event} {finding : Finding}
    (made : finding ∈ remarks before event) : finding.index? = some before.length := by
  cases event with
  | addEdge edge =>
    simp only [remarks, remarksOnEnd, remarksOnNumber, List.mem_append] at made
    rcases made with ((source | target) | same) | gap
    · split at source
      · exact absurd source List.not_mem_nil
      · cases List.mem_singleton.1 source
        rfl
    · split at target
      · exact absurd target List.not_mem_nil
      · cases List.mem_singleton.1 target
        rfl
    · split at same
      · cases List.mem_singleton.1 same
        rfl
      · exact absurd same List.not_mem_nil
    · split at gap
      · exact absurd gap List.not_mem_nil
      · split at gap
        · exact absurd gap List.not_mem_nil
        · cases List.mem_singleton.1 gap
          rfl
  | _ =>
    simp only [remarks] at made
    split at made
    all_goals first
      | exact absurd made List.not_mem_nil
      | (cases List.mem_singleton.1 made; rfl)

end Audit
end DiagramStream
