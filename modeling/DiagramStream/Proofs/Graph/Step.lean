import DiagramStream.Proofs.Graph.Held
import DiagramStream.Proofs.Statement

/-!
One statement of a graph, seen from what is held back. Main statement: whatever it says, nodes and edges
stay in order, and nothing is told before the end.
-/

namespace DiagramStream

-- Edges

namespace Narration

theorem addEdge_same (graph : GraphPart) (label : Option String) (base : Attrs) (source target : EdgeEnd) :
    let after := addEdge graph label base source target
    after.nodes = graph.nodes ∧ after.directed = graph.directed ∧ after.closed = graph.closed := by
  unfold addEdge
  split <;> exact ⟨rfl, rfl, rfl⟩

theorem addEdges_same (graph : GraphPart) (label : Option String) (base : Attrs) (pairs : List (EdgeEnd × EdgeEnd)) :
    let after := pairs.foldl (fun graph pair => addEdge graph label base pair.1 pair.2) graph
    after.nodes = graph.nodes ∧ after.directed = graph.directed ∧ after.closed = graph.closed := by
  induction pairs generalizing graph with
  | nil => exact ⟨rfl, rfl, rfl⟩
  | cons pair rest ih =>
    obtain ⟨nodes, directed, closed⟩ := addEdge_same graph label base pair.1 pair.2
    obtain ⟨nodes', directed', closed'⟩ := ih (addEdge graph label base pair.1 pair.2)
    exact ⟨nodes'.trans nodes, directed'.trans directed, closed'.trans closed⟩

theorem addEdge_joins {graph : GraphPart} (joins : graph.Joins) (label : Option String) (base : Attrs)
    {source target : EdgeEnd} (leaves : source.1 ∈ graph.nodes.keys) (reaches : target.1 ∈ graph.nodes.keys) :
    (addEdge graph label base source target).Joins := by
  unfold addEdge
  split
  · exact joins
  · refine ⟨?_, ?_, ?_⟩
    · intro edge told
      rcases List.mem_append.1 told with old | new
      · exact joins.ends edge old
      · cases List.mem_singleton.1 new
        exact ⟨leaves, reaches⟩
    · intro edge told
      rcases List.mem_append.1 told with old | new
      · exact joins.unnumbered edge old
      · cases List.mem_singleton.1 new
        rfl
    · simp [joins.ids, numberedIds_succ]

theorem mem_edgePairs {groups : List (List EdgeEnd)} {pair : EdgeEnd × EdgeEnd} (member : pair ∈ edgePairs groups) :
    (∃ ends ∈ groups, pair.1 ∈ ends) ∧ ∃ ends ∈ groups, pair.2 ∈ ends := by
  induction groups with
  | nil => cases member
  | cons sources rest ih =>
    cases rest with
    | nil => cases member
    | cons targets rest =>
      rcases List.mem_append.1 member with first | later
      · obtain ⟨source, leaves, made⟩ := List.mem_flatMap.1 first
        obtain ⟨target, reaches, rfl⟩ := List.mem_map.1 made
        exact ⟨⟨sources, by simp, leaves⟩, ⟨targets, by simp, reaches⟩⟩
      · obtain ⟨⟨one, inside, source⟩, ⟨other, within, target⟩⟩ := ih later
        exact ⟨⟨one, List.mem_cons_of_mem _ inside, source⟩, ⟨other, List.mem_cons_of_mem _ within, target⟩⟩

theorem addEdges_joins {graph : GraphPart} (joins : graph.Joins) (label : Option String) (base : Attrs)
    {pairs : List (EdgeEnd × EdgeEnd)}
    (listed : ∀ pair ∈ pairs, pair.1.1 ∈ graph.nodes.keys ∧ pair.2.1 ∈ graph.nodes.keys) :
    (pairs.foldl (fun graph pair => addEdge graph label base pair.1 pair.2) graph).Joins := by
  induction pairs generalizing graph with
  | nil => exact joins
  | cons pair rest ih =>
    obtain ⟨source, target⟩ := listed pair (List.mem_cons_self ..)
    refine ih (addEdge_joins joins label base source target) ?_
    intro later member
    rw [(addEdge_same graph label base pair.1 pair.2).1]
    exact listed later (List.mem_cons_of_mem _ member)

-- What a statement that neither opens nor closes a scope leaves as it was.
structure Stays (before after : Narration) : Prop where
  held : Held after
  quiet : Quiet before after
  outline : after.outline = before.outline
  directed : after.graph.directed = before.graph.directed
  closed : after.graph.closed = before.graph.closed

theorem Refers.stays {before after : Narration} (refers : Refers before after) : Stays before after :=
  ⟨refers.held, refers.quiet, refers.outline, by rw [refers.graph], by rw [refers.graph]⟩

theorem Stays.trans {first second third : Narration} (one : Stays first second) (other : Stays second third) :
    Stays first third :=
  ⟨other.held, one.quiet.trans other.quiet, other.outline.trans one.outline,
    other.directed.trans one.directed, other.closed.trans one.closed⟩

theorem addEdges_stays {narration : Narration} (held : Held narration) (label : Option String) (base : Attrs)
    {pairs : List (EdgeEnd × EdgeEnd)} (listed : ∀ pair ∈ pairs,
      pair.1.1 ∈ narration.graph.nodes.keys ∧ pair.2.1 ∈ narration.graph.nodes.keys) :
    Stays narration { narration with
      graph := pairs.foldl (fun graph pair => addEdge graph label base pair.1 pair.2) narration.graph } := by
  have joins := addEdges_joins held.joins label base listed
  obtain ⟨nodes, directed, closed⟩ := addEdges_same narration.graph label base pairs
  refine ⟨⟨held.sound, ?_, ?_, held.scopes, ?_, joins⟩, ⟨rfl, rfl, rfl⟩, rfl, directed, closed⟩
  · exact (congrArg Table.keys nodes).trans held.keys
  · intro id node found
    exact held.own id node (nodes ▸ found)
  · intro frame open_ id inside
    exact (congrArg (id ∈ ·.keys) nodes).mpr (held.members frame open_ id inside)

theorem chain_stays {narration : Narration} (held : Held narration) {tails : List EdgeEnd}
    (listed : ∀ one ∈ tails, one.1 ∈ narration.graph.nodes.keys) (endpoints : List (List NodeRef))
    {operators : List String} (attrs : Attrs) {line : Int}
    (fit : checkOperators operators narration.graph.directed line = .ok ()) :
    ∃ after, narration.chain tails endpoints operators attrs line = .ok after ∧ Stays narration after := by
  obtain ⟨refers, heads⟩ := edgeEndGroups_refers held endpoints
  have known : ∀ ends ∈ tails :: (narration.edgeEndGroups endpoints).1, ∀ one ∈ ends,
      one.1 ∈ (narration.edgeEndGroups endpoints).2.graph.nodes.keys := by
    intro ends member one inside
    rcases List.mem_cons.1 member with rfl | later
    · exact refers.nodes _ (listed one inside)
    · exact heads ends later one inside
  simp only [chain, fit]
  refine ⟨_, rfl, refers.stays.trans (addEdges_stays refers.held _ _ ?_)⟩
  intro pair member
  obtain ⟨⟨sources, leaves, source⟩, targets, reaches, target⟩ := mem_edgePairs member
  exact ⟨known sources leaves _ source, known targets reaches _ target⟩

theorem chain_refused (narration : Narration) (tails : List EdgeEnd) (endpoints : List (List NodeRef))
    {operators : List String} (attrs : Attrs) {line : Int} {failure : Failure}
    (unfit : checkOperators operators narration.graph.directed line = .error failure) :
    narration.chain tails endpoints operators attrs line = .error failure := by
  simp [chain, unfit]

-- Nodes

-- What becomes of a node once the roster has answered.
def declared (narration : Narration) (said : Roster.Declared) : Except Failure Narration :=
  let narration := { narration with roster := said.roster }
  match said.created with
  | some member => .ok ((narration.hold member.node).addMember said.id)
  | none =>
    if said.change.isEmpty then .ok (narration.addMember said.id)
    else match narration.graph.nodes.get? said.id with
      | none => .error (.noPendingNode said.id)
      | some held => .ok ((narration.hold (held.merge said.change)).addMember said.id)

-- A node that the roster knows is held, so that a change to it never lacks its node.
theorem declared_refers {narration : Narration} (held : Held narration) {said : Roster.Declared}
    (grows : Roster.Grows narration.roster said.id said.created said.roster) :
    ∃ after, narration.declared said = .ok after ∧ Refers narration after := by
  obtain ⟨refers, listed⟩ := received_refers held grows
  have member := addMember_refers refers.held listed
  unfold declared
  cases created : said.created with
  | some other =>
    rw [created] at refers member
    exact ⟨_, rfl, refers.trans member⟩
  | none =>
    rw [created] at refers member listed
    by_cases unchanged : said.change.isEmpty = true
    · simp only [unchanged, if_true]
      exact ⟨_, rfl, refers.trans member⟩
    · obtain ⟨before, found⟩ := (Table.mem_keys_iff _ _).1 listed
      have found : narration.graph.nodes.get? said.id = some before := found
      have same : (before.merge said.change).id = said.id := by
        rw [Node.merge_id]
        exact held.own _ _ found
      have changed := hold_refers refers.held (before.merge said.change) (by rw [same]; exact listed)
      simp only [unchanged, found]
      exact ⟨_, rfl, (refers.trans changed).trans (addMember_refers changed.held (changed.nodes _ listed))⟩

theorem nodeStatement_refers {narration : Narration} (held : Held narration) (node : NodeRef) {attrs own : Attrs}
    (readable : ownAttrs attrs = .ok own) (line : Int) :
    ∃ after, narration.nodeStatement node attrs line = .ok after ∧ Refers narration after := by
  unfold nodeStatement
  rw [readable]
  exact declared_refers held (Roster.declare_grows held.sound _)

-- Scopes

theorem setDefaults_refers {narration : Narration} (held : Held narration) (target : String) (attrs : Attrs) :
    Refers narration (narration.setDefaults target attrs) := by
  refine update_refers held ?_ ?_ ?_
  · intro frame
    split
    · rfl
    · split <;> rfl
  · intro frame
    split
    · rfl
    · split <;> rfl
  · intro frame id inside
    split at inside
    · exact .inl inside
    · split at inside <;> exact .inl inside

theorem assign_refers {narration : Narration} (held : Held narration) (key value : String) :
    Refers narration (narration.assign key value) :=
  update_refers held (fun _ => rfl) (fun _ => rfl) fun _ _ inside => .inl inside

theorem enter_held {narration : Narration} (held : Held narration) (kind : ScopeKind) (graph : kind.isGraph = true)
    (label : Option String) (line : Int) :
    let after := { narration with nesting := (narration.nesting.enter kind label line).1 }
    Held after ∧ after.outline = (kind, line) :: narration.outline := by
  have frame : ∃ frame : Frame, (narration.nesting.enter kind label line).1.frames = frame :: narration.nesting.frames
      ∧ frame.kind = kind ∧ frame.line = line ∧ frame.members = [] := by
    unfold Nesting.enter
    cases narration.nesting.frames <;> exact ⟨_, rfl, rfl, rfl, rfl⟩
  obtain ⟨frame, frames, rfl, rfl, empty⟩ := frame
  refine ⟨⟨held.sound, held.keys, held.own, ?_, ?_, held.joins⟩, ?_⟩
  · intro other member
    rcases List.mem_cons.1 (frames ▸ member) with rfl | older
    · exact graph
    · exact held.scopes other older
  · intro other member id inside
    rcases List.mem_cons.1 (frames ▸ member) with rfl | older
    · rw [empty] at inside; cases inside
    · exact held.members other older id inside
  · simp [outline, frames]

theorem carry_outline (ids : List String) (frames : List Frame) :
    (Nesting.carry ids frames).map (fun frame => (frame.kind, frame.line)) =
      frames.map fun frame => (frame.kind, frame.line) := by
  cases frames with
  | nil => rfl
  | cons frame rest => simp [Nesting.carry, addMembers_same]

theorem mem_carry {ids : List String} {frames : List Frame} {frame : Frame}
    (member : frame ∈ Nesting.carry ids frames) :
    ∃ before ∈ frames, frame.kind = before.kind ∧ ∀ id ∈ frame.members, id ∈ ids ∨ id ∈ before.members := by
  cases frames with
  | nil => cases member
  | cons next rest =>
    rcases List.mem_cons.1 member with rfl | older
    · exact ⟨next, List.mem_cons_self .., (addMembers_same next ids).1, fun _ inside => mem_addMembers inside⟩
    · exact ⟨frame, List.mem_cons_of_mem _ older, rfl, fun _ inside => .inr inside⟩

theorem leave_held {narration : Narration} (held : Held narration) {top : Frame} {outer : List Frame}
    (frames : narration.nesting.frames = top :: outer) :
    let after := { narration with
      nesting := { narration.nesting with frames := Nesting.carry top.members outer } }
    Held after ∧ after.outline = outer.map fun frame => (frame.kind, frame.line) := by
  have scopes := held.scopes
  have listed := held.members
  rw [frames] at scopes listed
  refine ⟨⟨held.sound, held.keys, held.own, ?_, ?_, held.joins⟩, carry_outline _ _⟩
  · intro frame member
    obtain ⟨before, inside, kind, _⟩ := mem_carry member
    rw [kind]
    exact scopes before (List.mem_cons_of_mem _ inside)
  · intro frame member id inside
    obtain ⟨before, older, _, members⟩ := mem_carry member
    rcases members id inside with closed | own
    · exact listed top (List.mem_cons_self ..) id closed
    · exact listed before (List.mem_cons_of_mem _ older) id own

end Narration
end DiagramStream
