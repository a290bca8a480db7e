import DiagramStream.Narration.Document
import DiagramStream.Proofs.Roster
import DiagramStream.Proofs.Stream

/-!
What a graph holds back while it is told. Main statements: the nodes held back are the members of the
roster, and every end of an edge and every node that an open scope refers to is among them.
-/

namespace DiagramStream

-- Edges held back, against the nodes that are there.
structure GraphPart.Joins (graph : GraphPart) : Prop where
  ends : ∀ edge ∈ graph.edges, edge.source ∈ graph.nodes.keys ∧ edge.target ∈ graph.nodes.keys
  unnumbered : ∀ edge ∈ graph.edges, edge.sequence = none
  ids : graph.edges.map Edge.id = numberedIds "edge-" graph.edgeCount

namespace Narration

structure Held (narration : Narration) : Prop where
  sound : narration.roster.Sound
  keys : narration.graph.nodes.keys = narration.roster.members.keys
  own : ∀ id node, narration.graph.nodes.get? id = some node → node.id = id
  scopes : ∀ frame ∈ narration.nesting.frames, frame.kind.isGraph = true
  members : ∀ frame ∈ narration.nesting.frames, ∀ id ∈ frame.members, id ∈ narration.graph.nodes.keys
  joins : narration.graph.Joins

-- Everything about the scopes that decides what may come next.
def outline (narration : Narration) : List (ScopeKind × Int) :=
  narration.nesting.frames.map fun frame => (frame.kind, frame.line)

-- What no statement of a graph touches: the events are all told in the end.
structure Quiet (before after : Narration) : Prop where
  format : after.format = before.format
  batching : after.batching = before.batching
  events : after.events = before.events

theorem Quiet.refl (narration : Narration) : Quiet narration narration := ⟨rfl, rfl, rfl⟩

theorem Quiet.trans {first second third : Narration} (one : Quiet first second) (other : Quiet second third) :
    Quiet first third :=
  ⟨other.format.trans one.format, other.batching.trans one.batching, other.events.trans one.events⟩

-- Nodes were referred to, and nothing else happened.
structure Refers (before after : Narration) : Prop where
  held : Held after
  quiet : Quiet before after
  outline : after.outline = before.outline
  graph : after.graph = { before.graph with nodes := after.graph.nodes }
  nodes : ∀ id ∈ before.graph.nodes.keys, id ∈ after.graph.nodes.keys

theorem Refers.refl {narration : Narration} (held : Held narration) : Refers narration narration :=
  ⟨held, .refl narration, rfl, rfl, fun _ listed => listed⟩

theorem Refers.trans {first second third : Narration} (one : Refers first second) (other : Refers second third) :
    Refers first third := by
  refine ⟨other.held, one.quiet.trans other.quiet, other.outline.trans one.outline, ?_, ?_⟩
  · rw [other.graph, one.graph]
  · intro id listed
    exact other.nodes id (one.nodes id listed)

-- Scopes

theorem mem_addMember {frame : Frame} {id other : String} (listed : other ∈ (frame.addMember id).members) :
    other = id ∨ other ∈ frame.members := by
  unfold Frame.addMember at listed
  split at listed
  · exact .inr listed
  · simpa [or_comm] using listed

theorem mem_addMembers {frame : Frame} {ids : List String} {other : String}
    (listed : other ∈ (frame.addMembers ids).members) : other ∈ ids ∨ other ∈ frame.members := by
  induction ids generalizing frame with
  | nil => exact .inr listed
  | cons id rest ih =>
    rcases ih listed with later | first
    · exact .inl (List.mem_cons_of_mem _ later)
    · rcases mem_addMember first with rfl | old
      · exact .inl (List.mem_cons_self ..)
      · exact .inr old

@[simp] theorem addMember_kind (frame : Frame) (id : String) : (frame.addMember id).kind = frame.kind := by
  unfold Frame.addMember; split <;> rfl

@[simp] theorem addMember_line (frame : Frame) (id : String) : (frame.addMember id).line = frame.line := by
  unfold Frame.addMember; split <;> rfl

theorem addMembers_same (frame : Frame) (ids : List String) :
    (frame.addMembers ids).kind = frame.kind ∧ (frame.addMembers ids).line = frame.line := by
  unfold Frame.addMembers
  induction ids generalizing frame with
  | nil => exact ⟨rfl, rfl⟩
  | cons id rest ih => simpa using ih (frame.addMember id)

-- A change to the innermost scope that leaves its place and refers only to nodes that are held.
theorem update_refers {narration : Narration} (held : Held narration) {change : Frame → Frame}
    (kind : ∀ frame, (change frame).kind = frame.kind) (line : ∀ frame, (change frame).line = frame.line)
    (members : ∀ frame, ∀ id ∈ (change frame).members, id ∈ frame.members ∨ id ∈ narration.graph.nodes.keys) :
    Refers narration { narration with nesting := narration.nesting.update change } := by
  unfold Nesting.update
  split
  · exact .refl held
  · rename_i top outer frames
    have scopes := held.scopes
    have listed := held.members
    rw [frames] at scopes listed
    refine ⟨⟨held.sound, held.keys, held.own, ?_, ?_, held.joins⟩, ⟨rfl, rfl, rfl⟩, ?_, rfl, fun _ l => l⟩
    · intro frame member
      rcases List.mem_cons.1 member with rfl | older
      · rw [kind]; exact scopes top (List.mem_cons_self ..)
      · exact scopes frame (List.mem_cons_of_mem _ older)
    · intro frame member id inside
      rcases List.mem_cons.1 member with rfl | older
      · exact (members top id inside).elim (listed top (List.mem_cons_self ..) id) fun known => known
      · exact listed frame (List.mem_cons_of_mem _ older) id inside
    · simp [outline, frames, kind, line]

theorem addMember_refers {narration : Narration} (held : Held narration) {id : String}
    (listed : id ∈ narration.graph.nodes.keys) : Refers narration (narration.addMember id) :=
  update_refers held (fun frame => addMember_kind frame id) (fun frame => addMember_line frame id)
    fun _ _ inside => (mem_addMember inside).elim (fun same => .inr (same ▸ listed)) .inl

-- Nodes

-- What a mention and a declaration have in common.
def received (narration : Narration) (roster : Roster) (created : Option Member) : Narration :=
  let narration := { narration with roster := roster }
  match created with
  | none => narration
  | some member => narration.hold member.node

theorem hold_own {nodes : Table Node} (own : ∀ id node, nodes.get? id = some node → node.id = id)
    {node found : Node} {id : String} (at_ : (nodes.set node.id node).get? id = some found) : found.id = id := by
  rw [Table.get?_set] at at_
  split at at_
  · rename_i same
    cases Option.some.inj at_
    exact same.symm
  · exact own id found at_

theorem received_refers {narration : Narration} (held : Held narration) {id : String} {created : Option Member}
    {roster : Roster} (grows : Roster.Grows narration.roster id created roster) :
    Refers narration (narration.received roster created) ∧
      id ∈ (narration.received roster created).graph.nodes.keys := by
  have keys := grows.keys
  cases created with
  | none =>
    have same : roster.members.keys = narration.graph.nodes.keys := by simpa [held.keys] using keys
    refine ⟨⟨⟨grows.sound, same.symm, held.own, held.scopes, held.members, held.joins⟩, ⟨rfl, rfl, rfl⟩, rfl, rfl,
      fun _ listed => listed⟩, ?_⟩
    exact same ▸ grows.listed
  | some member =>
    obtain ⟨named, fresh⟩ := grows.fresh member rfl
    have listed : (narration.graph.nodes.set member.node.id member.node).keys = roster.members.keys := by
      rw [Table.keys_set_of_not_mem (by rw [held.keys, named]; exact fresh), held.keys]
      simpa using keys.symm
    have kept : ∀ other ∈ narration.graph.nodes.keys,
        other ∈ (narration.graph.nodes.set member.node.id member.node).keys := by
      intro other old
      exact (Table.mem_keys_set _ _ _ _).2 (.inr old)
    refine ⟨⟨⟨grows.sound, listed, ?_, held.scopes, ?_, ?_⟩, ⟨rfl, rfl, rfl⟩, rfl, rfl, kept⟩, ?_⟩
    · exact fun _ _ found => hold_own held.own found
    · intro frame open_ other inside
      exact kept other (held.members frame open_ other inside)
    · refine ⟨?_, held.joins.unnumbered, held.joins.ids⟩
      intro edge told
      exact ⟨kept _ (held.joins.ends edge told).1, kept _ (held.joins.ends edge told).2⟩
    · exact listed ▸ grows.listed

-- A node that is held already takes over what is new of it.
theorem hold_refers {narration : Narration} (held : Held narration) (node : Node)
    (listed : node.id ∈ narration.graph.nodes.keys) : Refers narration (narration.hold node) := by
  have keys := Table.keys_set_of_mem listed node
  refine ⟨⟨held.sound, keys.trans held.keys, ?_, held.scopes, ?_, ?_⟩, ⟨rfl, rfl, rfl⟩, rfl, rfl, ?_⟩
  · exact fun _ _ found => hold_own held.own found
  · intro frame open_ other inside
    exact (congrArg (other ∈ ·) keys).mpr (held.members frame open_ other inside)
  · refine ⟨?_, held.joins.unnumbered, held.joins.ids⟩
    intro edge told
    exact ⟨(congrArg (_ ∈ ·) keys).mpr (held.joins.ends edge told).1,
      (congrArg (_ ∈ ·) keys).mpr (held.joins.ends edge told).2⟩
  · intro other old
    exact (congrArg (other ∈ ·) keys).mpr old

theorem graphNode_eq (narration : Narration) (name : String) :
    let said := narration.roster.mention name narration.nesting.nodeAttrs
    narration.graphNode name = (said.id, (narration.received said.roster said.created).addMember said.id) := rfl

theorem graphNode_refers {narration : Narration} (held : Held narration) (name : String) :
    Refers narration (narration.graphNode name).2 ∧
      (narration.graphNode name).1 ∈ (narration.graphNode name).2.graph.nodes.keys := by
  rw [graphNode_eq]
  obtain ⟨refers, listed⟩ := received_refers held (Roster.mention_grows held.sound name _)
  have member := addMember_refers refers.held listed
  exact ⟨refers.trans member, member.nodes _ listed⟩

theorem edgeEnds_refers {narration : Narration} (held : Held narration) (refs : List NodeRef) :
    Refers narration (narration.edgeEnds refs).2 ∧
      ∀ one ∈ (narration.edgeEnds refs).1, one.1 ∈ (narration.edgeEnds refs).2.graph.nodes.keys := by
  induction refs generalizing narration with
  | nil => exact ⟨.refl held, fun _ none => nomatch none⟩
  | cons ref rest ih =>
    obtain ⟨first, listed⟩ := graphNode_refers held ref.name
    obtain ⟨later, ends⟩ := ih first.held
    refine ⟨first.trans later, ?_⟩
    intro one member
    rcases List.mem_cons.1 member with rfl | other
    · exact later.nodes _ listed
    · exact ends one other

theorem edgeEndGroups_refers {narration : Narration} (held : Held narration) (groups : List (List NodeRef)) :
    Refers narration (narration.edgeEndGroups groups).2 ∧
      ∀ ends ∈ (narration.edgeEndGroups groups).1, ∀ one ∈ ends,
        one.1 ∈ (narration.edgeEndGroups groups).2.graph.nodes.keys := by
  induction groups generalizing narration with
  | nil => exact ⟨.refl held, fun _ none => nomatch none⟩
  | cons group rest ih =>
    obtain ⟨first, listed⟩ := edgeEnds_refers held group
    obtain ⟨later, groups⟩ := ih first.held
    refine ⟨first.trans later, ?_⟩
    intro ends member one inside
    rcases List.mem_cons.1 member with rfl | other
    · exact later.nodes _ (listed one inside)
    · exact groups ends other one inside

end Narration
end DiagramStream
