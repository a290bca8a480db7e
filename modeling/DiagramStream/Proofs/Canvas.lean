import DiagramStream.Canvas
import DiagramStream.Proofs.Change
import DiagramStream.Proofs.Stream

/-!
What is drawn, seen from the index of nodes. Main statements: the nodes of a diagram are those that its events
enter into the index, in the order in which they were added, and under a key that no node was added with stands
what was written last.
-/

namespace DiagramStream

-- What an event does to the index. One that cannot be applied does nothing.
def register (nodes : Table Node) : Event → Table Node
  | .addNode node =>
    if nodes.contains node.id then nodes
    else nodes.set node.id { node with label := if node.label = "" then node.id else node.label }
  | .updateNode id change =>
    match nodes.get? id with
    | none => nodes
    | some before => nodes.set id (before.merge change)
  | _ => nodes

def registered (events : List Event) : Table Node := events.foldl register Table.empty

@[simp] theorem registered_append (earlier later : List Event) :
    registered (earlier ++ later) = later.foldl register (registered earlier) := List.foldl_append ..

theorem register_new {nodes : Table Node} {node : Node} (fresh : node.id ∉ nodes.keys)
    (labelled : node.label = "" → node.id = "") : register nodes (.addNode node) = nodes.set node.id node := by
  have absent : nodes.contains node.id = false := by
    rw [← Bool.not_eq_true, Table.contains_iff]
    exact fresh
  have label : (if node.label = "" then node.id else node.label) = node.label := by
    split
    · rename_i empty
      exact (labelled empty).trans empty.symm
    · rfl
  simp only [register, absent, Bool.false_eq_true, if_false, label]

theorem register_known {nodes : Table Node} {id : String} {before : Node} (found : nodes.get? id = some before)
    (change : Attrs) : register nodes (.updateNode id change) = nodes.set id (before.merge change) := by
  simp only [register, found]

namespace Canvas

-- The drawn nodes and their index list the same.
def Indexed (canvas : Canvas) : Prop :=
  canvas.nodes.entries = canvas.diagram.nodes.map fun node => (node.id, node)

@[simp] theorem announce_diagram (canvas : Canvas) : canvas.announce.diagram = canvas.diagram := by
  unfold announce; split <;> rfl

theorem apply_nodes (canvas : Canvas) (event : Event) : (canvas.apply event).1.nodes = register canvas.nodes event := by
  cases event with
  | batchStart => rfl
  | batchEnd =>
    simp only [apply, endBatch]
    split
    · rfl
    · dsimp only
      split
      · exact announce_nodes _
      · rfl
  | setLayout layout direction attrs => exact announce_nodes _
  | addNode node =>
    simp only [apply, addNode, register]
    split
    · rfl
    · exact announce_nodes _
  | updateNode id change =>
    simp only [apply, updateNode, register]
    cases canvas.nodes.get? id with
    | none => rfl
    | some before => exact announce_nodes _
  | addEdge edge =>
    simp only [apply, addEdge]
    split
    · rfl
    · split
      · rfl
      · split
        · rfl
        · exact announce_nodes _

theorem applyAll_nodes (canvas : Canvas) (events : List Event) :
    (canvas.applyAll events).1.nodes = events.foldl register canvas.nodes := by
  induction events generalizing canvas with
  | nil => rfl
  | cons event rest ih => exact (ih (canvas.apply event).1).trans (by rw [apply_nodes]; rfl)

-- A node is drawn once, so that the one with its id is all that gives way.
theorem write_replace {nodes : List Node} (nodup : (nodes.map Node.id).Nodup) {node : Node}
    (drawn : node.id ∈ nodes.map Node.id) :
    Table.write node.id node (nodes.map fun other => (other.id, other)) =
      (replace node nodes).map fun other => (other.id, other) := by
  induction nodes with
  | nil => cases drawn
  | cons first rest ih =>
    obtain ⟨fresh, nodupRest⟩ := List.nodup_cons.1 nodup
    by_cases same : first.id = node.id
    · have others : replace node rest = rest := by
        refine (List.map_congr_left ?_).trans (List.map_id _)
        intro other member
        have differs : other.id ≠ node.id := fun equal =>
          fresh (same.trans equal.symm ▸ List.mem_map_of_mem (f := Node.id) member)
        simp [differs]
      have head : replace node (first :: rest) = node :: replace node rest := by simp [replace, same]
      rw [head, others]
      simp [Table.write, same]
    · have later : node.id ∈ rest.map Node.id :=
        (List.mem_cons.1 drawn).resolve_left fun equal => same equal.symm
      have head : replace node (first :: rest) = first :: replace node rest := by simp [replace, same]
      rw [head, List.map_cons, List.map_cons, ← ih nodupRest later]
      simp [Table.write, same]

theorem Indexed.lists {canvas : Canvas} (indexed : canvas.Indexed) :
    canvas.nodes.Lists Node.id canvas.diagram.nodes := indexed

theorem addNode_indexed {canvas : Canvas} (indexed : canvas.Indexed) (node : Node) :
    (canvas.addNode node).1.Indexed := by
  unfold addNode
  split
  · exact indexed
  · rename_i absent
    have fresh : node.id ∉ canvas.nodes.keys := by simpa using absent
    unfold Indexed
    simp only [announce_nodes, announce_diagram]
    exact indexed.lists.append { node with label := if node.label = "" then node.id else node.label } fresh

theorem updateNode_indexed {canvas : Canvas} (indexed : canvas.Indexed) (id : String) (change : Attrs) :
    (canvas.updateNode id change).1.Indexed := by
  unfold updateNode
  cases found : canvas.nodes.get? id with
  | none => exact indexed
  | some before =>
    have own : before.id = id := ((indexed.lists.get?_eq_some_iff id before).1 found).2
    have same : (before.merge change).id = id := (Node.merge_id ..).trans own
    have drawn : (before.merge change).id ∈ canvas.diagram.nodes.map Node.id := by
      rw [← indexed.lists.keys_eq, same]
      exact Table.mem_keys_of_get? found
    unfold Indexed
    simp only [announce_nodes, announce_diagram]
    rw [← write_replace indexed.lists.nodup drawn, same, ← show canvas.nodes.entries = _ from indexed]
    rfl

theorem apply_indexed {canvas : Canvas} (indexed : canvas.Indexed) (event : Event) :
    (canvas.apply event).1.Indexed := by
  have announced : ∀ other : Canvas, other.Indexed → other.announce.Indexed := by
    intro other kept
    simpa [Indexed] using kept
  cases event with
  | addNode node => exact addNode_indexed indexed node
  | updateNode id change => exact updateNode_indexed indexed id change
  | batchStart => exact indexed
  | batchEnd =>
    simp only [apply, endBatch]
    split
    · exact indexed
    · dsimp only
      split
      · exact announced _ indexed
      · exact indexed
  | setLayout layout direction attrs => exact announced _ indexed
  | addEdge edge =>
    simp only [apply, addEdge]
    split
    · exact indexed
    · split
      · exact indexed
      · split
        · exact indexed
        · exact announced _ indexed

theorem applyAll_indexed {canvas : Canvas} (indexed : canvas.Indexed) (events : List Event) :
    (canvas.applyAll events).1.Indexed := by
  induction events generalizing canvas with
  | nil => exact indexed
  | cons event rest ih => exact ih (apply_indexed indexed event)

end Canvas

theorem ofEvents_nodes (events : List Event) (name : String) (format : Option String) :
    (Diagram.ofEvents events name format).nodes = (registered events).values := by
  have indexed := Canvas.applyAll_indexed (show (Canvas.blank name format).Indexed from rfl) events
  have nodes := Canvas.applyAll_nodes (Canvas.blank name format) events
  have table : registered events = ((Canvas.blank name format).applyAll events).1.nodes := nodes.symm
  unfold Diagram.ofEvents Table.values
  rw [table, show ((Canvas.blank name format).applyAll events).1.nodes.entries = _ from indexed, List.map_map]
  exact (List.map_id _).symm

theorem mem_ofEvents_nodes {events : List Event} {name : String} {format : Option String} {node : Node} :
    node ∈ (Diagram.ofEvents events name format).nodes ↔ (registered events).get? node.id = some node := by
  have indexed := Canvas.applyAll_indexed (show (Canvas.blank name format).Indexed from rfl) events
  have nodes := Canvas.applyAll_nodes (Canvas.blank name format) events
  have table : registered events = ((Canvas.blank name format).applyAll events).1.nodes := nodes.symm
  rw [table, indexed.lists.get?_eq_some_iff]
  exact ⟨fun drawn => ⟨drawn, rfl⟩, And.left⟩

-- What is written under a key

-- A node with what a change of it says under the key.
def Event.written? (key : String) : Event → Option (String × String)
  | .updateNode id change => (change.get? key).map fun value => (id, value)
  | _ => none

def writtenTo (key : String) (events : List Event) : List (String × String) := events.filterMap (Event.written? key)

@[simp] theorem writtenTo_append (key : String) (earlier later : List Event) :
    writtenTo key (earlier ++ later) = writtenTo key earlier ++ writtenTo key later := List.filterMap_append

theorem Reads.mem_registered {events : List Event} {intake : Intake} (reads : Reads events intake) (id : String) :
    id ∈ (registered events).keys ↔ id ∈ intake.nodes := by
  have holds := (Canvas.applyAll_holds reads "" none).2.nodes id
  rwa [Canvas.applyAll_nodes] at holds

theorem Reads.writtenTo_known {events : List Event} {intake : Intake} (reads : Reads events intake) {key : String}
    {entry : String × String} (written : entry ∈ writtenTo key events) : entry.1 ∈ intake.nodes := by
  induction reads with
  | nil => cases written
  | snoc prior takes ih =>
    rw [writtenTo_append] at written
    rcases List.mem_append.1 written with earlier | last
    · have known := ih earlier
      cases takes with
      | addNode node fresh => exact List.mem_append_left _ known
      | _ => exact known
    · obtain ⟨event, listed, wrote⟩ := List.mem_filterMap.1 last
      cases List.mem_singleton.1 listed
      cases takes with
      | updateNode id change known =>
        obtain ⟨value, -, rfl⟩ := Option.map_eq_some_iff.1 wrote
        exact known
      | _ => cases wrote

theorem registered_get? {key : String} (kind : key ≠ "kind") (label : key ≠ "label") {events : List Event}
    {intake : Intake} (reads : Reads events intake) (plain : ∀ node ∈ nodesOf events, key ∉ node.attrs.keys)
    {id : String} {node : Node} (drawn : (registered events).get? id = some node) :
    node.attrs.get? key = Table.find? id (writtenTo key events).reverse := by
  induction reads generalizing node with
  | nil => cases drawn
  | @snoc events intake event prior takes ih =>
    have earlier := fun node member => plain node (by rw [nodesOf_append]; exact List.mem_append_left _ member)
    rw [registered_append] at drawn
    cases takes with
    | addNode added fresh =>
      rw [writtenTo_append, show writtenTo key [.addNode added] = [] from rfl, List.append_nil]
      simp only [List.foldl_cons, List.foldl_nil, register] at drawn
      split at drawn
      · exact ih earlier drawn
      · rw [Table.get?_set] at drawn
        split at drawn
        · rename_i same
          cases drawn
          have absent : key ∉ added.attrs.keys := plain added (by simp [nodesOf])
          have unwritten : Table.find? id (writtenTo key events).reverse = none := by
            refine Table.find?_of_not_mem fun listed => fresh ?_
            obtain ⟨entry, written, rfl⟩ := List.mem_map.1 listed
            exact same ▸ prior.writtenTo_known (List.mem_reverse.1 written)
          rw [unwritten]
          exact (Table.get?_eq_none_iff _ _).2 absent
        · exact ih earlier drawn
    | updateNode changed change known =>
      obtain ⟨before, found⟩ := (Table.mem_keys_iff _ _).1 ((prior.mem_registered changed).2 known)
      rw [List.foldl_cons, List.foldl_nil, register_known found, Table.get?_set] at drawn
      have last : writtenTo key [.updateNode changed change] =
          ((change.get? key).map fun value => (changed, value)).toList := by
        cases said : change.get? key <;> simp [writtenTo, Event.written?, said]
      rw [writtenTo_append, List.reverse_append, last]
      split at drawn
      · rename_i same
        subst same
        cases drawn
        rw [Node.merge_get?, if_neg (by simp [kind, label]), ih earlier found]
        cases change.get? key <;> simp [Table.find?]
      · rename_i other
        rw [ih earlier drawn]
        cases change.get? key <;> simp [Table.find?, Ne.symm other]
    | batchStart | batchEnd | setLayout | addEdge =>
      refine (ih earlier drawn).trans ?_
      rw [writtenTo_append]
      exact congrArg (fun entries => Table.find? id entries.reverse) (List.append_nil _).symm

end DiagramStream
