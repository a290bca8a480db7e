import DiagramStream.Proofs.Canvas

/-!
What a canvas answers. Main statement: whatever events came and whichever of them failed, ids are told apart,
edges end at nodes that are there, and every index answers as a look through the lists would.
-/

namespace DiagramStream

namespace Canvas

@[simp] theorem announce_kinds (canvas : Canvas) : canvas.announce.kinds = canvas.kinds := by
  unfold announce; split <;> rfl

@[simp] theorem announce_touching (canvas : Canvas) : canvas.announce.touching = canvas.touching := by
  unfold announce; split <;> rfl

-- Sets of ids

def filedUnder (index : Table (List String)) (key : String) : List String := (index.get? key).getD []

theorem mem_filedUnder_addTo (index : Table (List String)) (key id other entry : String) :
    entry ∈ filedUnder (addTo index key id) other ↔ (other = key ∧ entry = id) ∨ entry ∈ filedUnder index other := by
  unfold filedUnder addTo
  rw [Table.get?_set]
  by_cases same : other = key
  · subst same
    by_cases known : id ∈ (index.get? other).getD []
    · simp only [List.contains_iff_mem.2 known, if_true, Option.getD_some, true_and]
      exact ⟨.inr, fun either => either.elim (fun equal => equal ▸ known) fun old => old⟩
    · simp [known, or_comm]
  · simp [same]

theorem mem_filedUnder_takeFrom (index : Table (List String)) (key id other entry : String) :
    entry ∈ filedUnder (takeFrom index key id) other ↔ entry ∈ filedUnder index other ∧ ¬(other = key ∧ entry = id) := by
  unfold filedUnder takeFrom
  cases found : index.get? key with
  | none =>
    refine (and_iff_left_of_imp ?_).symm
    rintro listed ⟨rfl, -⟩
    simp [found] at listed
  | some ids =>
    rw [Table.get?_set]
    by_cases same : other = key
    · subst same
      simp [found]
    · simp [same]

-- Every node is filed under its kind, and under no other.
def FilesKinds (kinds : Table (List String)) (nodes : Table Node) : Prop :=
  ∀ kind id, id ∈ filedUnder kinds kind ↔ ∃ node, nodes.get? id = some node ∧ node.kind = kind

-- Every edge is filed under its two ends.
def FilesEnds (touching : Table (List String)) (lines : Table Line) : Prop :=
  ∀ id edge, edge ∈ filedUnder touching id ↔
    ∃ line, lines.get? edge = some line ∧ (line.source = id ∨ line.target = id)

section
variable {kinds : Table (List String)} {nodes : Table Node} {id : String}

theorem FilesKinds.add (files : FilesKinds kinds nodes) (fresh : id ∉ nodes.keys) (node : Node) :
    FilesKinds (addTo kinds node.kind id) (nodes.set id node) := by
  intro kind other
  rw [mem_filedUnder_addTo, files, Table.get?_set]
  by_cases same : other = id
  · subst same
    simp [(Table.get?_eq_none_iff nodes other).2 fresh, eq_comm]
  · simp [same]

theorem FilesKinds.stay (files : FilesKinds kinds nodes) {before node : Node} (found : nodes.get? id = some before)
    (same : node.kind = before.kind) : FilesKinds kinds (nodes.set id node) := by
  intro kind other
  rw [files, Table.get?_set]
  by_cases here : other = id
  · subst here
    simp [found, same]
  · simp [here]

-- A change of kind moves a node from one set to another.
theorem FilesKinds.move (files : FilesKinds kinds nodes) {before : Node} (found : nodes.get? id = some before)
    (node : Node) :
    FilesKinds (addTo (takeFrom kinds before.kind id) node.kind id) (nodes.set id node) := by
  intro kind other
  rw [mem_filedUnder_addTo, mem_filedUnder_takeFrom, files, Table.get?_set]
  by_cases here : other = id
  · subst here
    have left : ¬(before.kind = kind ∧ ¬kind = before.kind) := fun both => both.2 both.1.symm
    simp only [found, Option.some.injEq, exists_eq_left', if_true, and_true, left, or_false]
    exact eq_comm
  · simp [here]

theorem FilesEnds.add {touching : Table (List String)} {lines : Table Line} (files : FilesEnds touching lines)
    (line : Line) (fresh : line.id ∉ lines.keys) :
    FilesEnds (addTo (addTo touching line.source line.id) line.target line.id) (lines.set line.id line) := by
  intro id edge
  rw [mem_filedUnder_addTo, mem_filedUnder_addTo, files, Table.get?_set]
  by_cases here : edge = line.id
  · subst here
    simp only [(Table.get?_eq_none_iff lines line.id).2 fresh, reduceCtorEq, false_and, exists_false, and_true,
      or_false, if_true, Option.some.injEq, exists_eq_left']
    exact or_comm.trans (or_congr eq_comm eq_comm)
  · simp [here]

end

-- The indexes hold what the lists hold, and edges have both their ends.
structure Filed (canvas : Canvas) : Prop where
  lines : canvas.lines.Lists Line.id canvas.diagram.lines
  kinds : FilesKinds canvas.kinds canvas.nodes
  touching : FilesEnds canvas.touching canvas.lines
  ends : ∀ line ∈ canvas.diagram.lines, line.source ∈ canvas.nodes.keys ∧ line.target ∈ canvas.nodes.keys

theorem Filed.announce {canvas : Canvas} (filed : Filed canvas) : Filed canvas.announce := by
  refine ⟨?_, ?_, ?_, ?_⟩
  · simpa using filed.lines
  · simpa using filed.kinds
  · simpa using filed.touching
  · simpa using filed.ends

theorem blank_filed (name : String) (format : Option String) : Filed (blank name format) := by
  refine ⟨rfl, ?_, ?_, ?_⟩
  · intro kind id
    simp [blank, filedUnder]
  · intro id edge
    simp [blank, filedUnder]
  · intro line listed
    cases listed

theorem addNode_filed {canvas : Canvas} (filed : Filed canvas) (node : Node) : Filed (canvas.addNode node).1 := by
  unfold addNode
  split
  · exact filed
  · rename_i absent
    have fresh : node.id ∉ canvas.nodes.keys := by simpa using absent
    refine Filed.announce ⟨filed.lines, filed.kinds.add fresh _, filed.touching, ?_⟩
    intro line listed
    have ends := filed.ends line listed
    exact ⟨(Table.mem_keys_set ..).2 (.inr ends.1), (Table.mem_keys_set ..).2 (.inr ends.2)⟩

theorem updateNode_filed {canvas : Canvas} (filed : Filed canvas) (id : String) (change : Attrs) :
    Filed (canvas.updateNode id change).1 := by
  unfold updateNode
  cases found : canvas.nodes.get? id with
  | none => exact filed
  | some before =>
    refine Filed.announce ⟨filed.lines, ?_, filed.touching, ?_⟩
    · dsimp only
      split
      · rename_i same
        exact filed.kinds.stay found same
      · exact filed.kinds.move found _
    · intro line listed
      have ends := filed.ends line listed
      exact ⟨(Table.mem_keys_set ..).2 (.inr ends.1), (Table.mem_keys_set ..).2 (.inr ends.2)⟩

theorem addEdge_filed {canvas : Canvas} (filed : Filed canvas) (edge : Edge) : Filed (canvas.addEdge edge).1 := by
  unfold addEdge
  split
  · exact filed
  · rename_i absent
    split
    · exact filed
    · rename_i source
      split
      · exact filed
      · rename_i target
        have fresh : edge.id ∉ canvas.lines.keys := by simpa using absent
        refine Filed.announce ⟨?_, filed.kinds, filed.touching.add (Line.ofEdge edge) fresh, ?_⟩
        · exact filed.lines.append (Line.ofEdge edge) fresh
        · intro line listed
          rcases List.mem_append.1 listed with old | new
          · exact filed.ends line old
          · cases List.mem_singleton.1 new
            exact ⟨by simpa [Line.ofEdge] using source, by simpa [Line.ofEdge] using target⟩

theorem apply_filed {canvas : Canvas} (filed : Filed canvas) (event : Event) : Filed (canvas.apply event).1 := by
  cases event with
  | addNode node => exact addNode_filed filed node
  | updateNode id change => exact updateNode_filed filed id change
  | addEdge edge => exact addEdge_filed filed edge
  | setLayout layout direction attrs =>
    exact Filed.announce ⟨filed.lines, filed.kinds, filed.touching, filed.ends⟩
  | batchStart => exact ⟨filed.lines, filed.kinds, filed.touching, filed.ends⟩
  | batchEnd =>
    simp only [apply, endBatch]
    split
    · exact filed
    · rename_i outer _
      have shut : Filed { canvas with batches := outer } :=
        ⟨filed.lines, filed.kinds, filed.touching, filed.ends⟩
      dsimp only
      split
      · exact shut.announce
      · exact shut

theorem applyAll_filed {canvas : Canvas} (filed : Filed canvas) (events : List Event) :
    Filed (canvas.applyAll events).1 := by
  induction events generalizing canvas with
  | nil => exact filed
  | cons event rest ih => exact ih (apply_filed filed event)

-- Queries

theorem nodesOfKind_eq {canvas : Canvas} (indexed : canvas.Indexed) (filed : Filed canvas) (kind : String) :
    canvas.nodesOfKind kind = canvas.diagram.nodesOfKind kind := by
  refine List.filter_congr fun node listed => ?_
  have own : canvas.nodes.get? node.id = some node := (indexed.lists.get?_eq_some_iff _ _).2 ⟨listed, rfl⟩
  have known := filed.kinds kind node.id
  rw [own] at known
  rw [Bool.eq_iff_iff, List.contains_iff_mem]
  simpa [filedUnder] using known

theorem linesAt_eq {canvas : Canvas} (filed : Filed canvas) (id : String) :
    canvas.linesAt id = canvas.diagram.linesAt id := by
  refine List.filter_congr fun line listed => ?_
  have own : canvas.lines.get? line.id = some line := (filed.lines.get?_eq_some_iff _ _).2 ⟨listed, rfl⟩
  have known := filed.touching id line.id
  rw [own] at known
  rw [Bool.eq_iff_iff, List.contains_iff_mem]
  simpa [filedUnder] using known

theorem applyAll_queries (events : List Event) (name : String) (format : Option String) :
    let canvas := ((blank name format).applyAll events).1
    (canvas.diagram.nodes.map Node.id).Nodup ∧ (canvas.diagram.lines.map Line.id).Nodup ∧
      (∀ line ∈ canvas.diagram.lines, line.source ∈ canvas.diagram.nodes.map Node.id ∧
        line.target ∈ canvas.diagram.nodes.map Node.id) ∧
      (∀ id, canvas.node? id = canvas.diagram.node? id) ∧ (∀ id, canvas.line? id = canvas.diagram.line? id) ∧
      (∀ kind, canvas.nodesOfKind kind = canvas.diagram.nodesOfKind kind) ∧
      ∀ id, canvas.linesAt id = canvas.diagram.linesAt id := by
  intro canvas
  have indexed : canvas.Indexed := applyAll_indexed (show (blank name format).Indexed from rfl) events
  have filed : Filed canvas := applyAll_filed (blank_filed name format) events
  refine ⟨indexed.lists.nodup, filed.lines.nodup, ?_, indexed.lists.get?_eq, filed.lines.get?_eq, nodesOfKind_eq indexed filed,
    linesAt_eq filed⟩
  rw [← indexed.lists.keys_eq]
  exact filed.ends

end Canvas
end DiagramStream
