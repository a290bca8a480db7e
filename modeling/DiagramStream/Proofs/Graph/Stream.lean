import DiagramStream.Proofs.Graph.Site
import DiagramStream.Proofs.Run

/-!
What a graph tells, seen from the consumer. Main statement: all that was held back can be taken one by one,
every node before the first edge.
-/

namespace DiagramStream

theorem Reads.addNodes {events : List Event} {intake : Intake} (reads : Reads events intake) (nodes : List Node)
    (nodup : (nodes.map Node.id).Nodup) (fresh : ∀ node ∈ nodes, node.id ∉ intake.nodes) :
    Reads (events ++ nodes.map .addNode) { intake with nodes := intake.nodes ++ nodes.map Node.id } := by
  induction nodes generalizing events intake with
  | nil => simpa using reads
  | cons node rest ih =>
    obtain ⟨other, nodupRest⟩ := List.nodup_cons.1 nodup
    have next := reads.snoc (.addNode node (fresh node (List.mem_cons_self ..)))
    have later := ih next nodupRest (by
      intro one member known
      rcases List.mem_append.1 known with old | same
      · exact fresh one (List.mem_cons_of_mem _ member) old
      · have same : one.id = node.id := List.mem_singleton.1 same
        exact other (same ▸ List.mem_map_of_mem (f := Node.id) member))
    simpa [Intake.after] using later

theorem Reads.addEdges {events : List Event} {intake : Intake} (reads : Reads events intake) (edges : List Edge)
    (nodup : (edges.map Edge.id).Nodup) (fresh : ∀ edge ∈ edges, edge.id ∉ intake.edges)
    (ends : ∀ edge ∈ edges, edge.source ∈ intake.nodes ∧ edge.target ∈ intake.nodes)
    (unnumbered : ∀ edge ∈ edges, edge.sequence = none) :
    Reads (events ++ edges.map .addEdge) { intake with edges := intake.edges ++ edges.map Edge.id } := by
  induction edges generalizing events intake with
  | nil => simpa using reads
  | cons edge rest ih =>
    obtain ⟨other, nodupRest⟩ := List.nodup_cons.1 nodup
    obtain ⟨source, target⟩ := ends edge (List.mem_cons_self ..)
    have plain := unnumbered edge (List.mem_cons_self ..)
    have next := reads.snoc (.addEdge edge source target (fresh edge (List.mem_cons_self ..))
      (by rw [plain]; exact fun _ none => nomatch none))
    have later := ih next nodupRest (by
      intro one member known
      rcases List.mem_append.1 known with old | same
      · exact fresh one (List.mem_cons_of_mem _ member) old
      · have same : one.id = edge.id := List.mem_singleton.1 same
        exact other (same ▸ List.mem_map_of_mem (f := Edge.id) member))
      (fun one member => ends one (List.mem_cons_of_mem _ member))
      (fun one member => unnumbered one (List.mem_cons_of_mem _ member))
    simpa [Intake.after, plain] using later

theorem Hint.ofRoot_layout {root : Attrs} {event : Event} (asked : Hint.ofRoot root = some event) :
    ∃ layout direction attrs, event = .setLayout layout direction attrs := by
  unfold ofRoot at asked
  split at asked
  · cases asked
  · exact ⟨_, _, _, (Option.some.inj asked).symm⟩

theorem Hint.ofStatements_layout (statements : List Placed) :
    ofStatements statements = none ∨
      ∃ layout direction attrs, ofStatements statements = some (.setLayout layout direction attrs) := by
  cases asked : ofStatements statements with
  | none => exact .inl rfl
  | some event =>
    obtain ⟨layout, direction, attrs, rfl⟩ := Hint.ofRoot_layout asked
    exact .inr ⟨layout, direction, attrs, rfl⟩

-- What a graph tells in the end.
def account (statements : List Placed) (nodes : List Node) (edges : List Edge) : List Event :=
  .batchStart :: (Hint.ofStatements statements).toList ++ (nodes.map .addNode ++ edges.map .addEdge) ++ [.batchEnd]

section
variable (statements : List Placed) (nodes : List Node) (edges : List Edge)

theorem preface_plain : nodesOf (.batchStart :: (Hint.ofStatements statements).toList) = [] ∧
    edgesOf (.batchStart :: (Hint.ofStatements statements).toList) = [] := by
  rcases Hint.ofStatements_layout statements with asked | ⟨layout, direction, attrs, asked⟩ <;>
    rw [asked] <;> exact ⟨rfl, rfl⟩

@[simp] theorem nodesOf_account : nodesOf (account statements nodes edges) = nodes := by
  have close : nodesOf [.batchEnd] = [] := rfl
  simp only [account, nodesOf_append, (preface_plain statements).1, nodesOf_addNodes, nodesOf_addEdges, close,
    List.nil_append, List.append_nil]

@[simp] theorem edgesOf_account : edgesOf (account statements nodes edges) = edges := by
  have close : edgesOf [.batchEnd] = [] := rfl
  simp only [account, edgesOf_append, (preface_plain statements).2, edgesOf_addNodes, edgesOf_addEdges, close,
    List.nil_append, List.append_nil]

theorem account_updates (id : String) (change : Attrs) : .updateNode id change ∉ account statements nodes edges := by
  rcases Hint.ofStatements_layout statements with asked | ⟨layout, direction, attrs, asked⟩ <;> simp [account, asked]

theorem account_hoisted {earlier later : List Event} {node : Node}
    (parts : account statements nodes edges = earlier ++ .addNode node :: later) : edgesOf earlier = [] := by
  have front : edgesOf (.batchStart :: (Hint.ofStatements statements).toList ++ nodes.map .addNode) = [] := by
    rw [edgesOf_append, (preface_plain statements).2, edgesOf_addNodes]
    rfl
  have back : nodesOf (edges.map Event.addEdge ++ [.batchEnd]) = [] := by
    rw [nodesOf_append, nodesOf_addEdges]
    rfl
  rw [account, ← List.append_assoc, List.append_assoc] at parts
  rcases List.append_eq_append_iff.1 parts with ⟨between, -, rest⟩ | ⟨between, rest, -⟩
  · rw [rest] at back
    simp [nodesOf] at back
  · rw [rest, edgesOf_append] at front
    exact (List.append_eq_nil_iff.1 front).1

end

namespace Narration

theorem sayable_of_told {narration next : Narration} {placed : Placed} (told : narration.tell placed = .ok next) :
    placed.statement.Sayable := by
  obtain ⟨position, statement⟩ := placed
  cases statement with
  | nodeStatement node attrs =>
    simp only [tell, requireBody_eq] at told
    cases readable : ownAttrs attrs with
    | ok own => exact ⟨own, readable⟩
    | error failure => cases scopes : narration.outline <;> simp [scopes, nodeStatement, readable] at told
  | edgeStatement endpoints operators attrs =>
    rintro rfl
    simp only [tell, requireBody_eq] at told
    cases scopes : narration.outline <;> simp [scopes, edgeStatement] at told
  | _ => trivial

theorem tell_held {narration next : Narration} (held : Held narration) {placed : Placed}
    (graph : placed.statement.ofGraph = true) (told : narration.tell placed = .ok next) :
    Moves narration placed next := by
  have sayable := sayable_of_told told
  cases fault : narration.site.fault? placed with
  | some failure => cases (tell_refused held graph sayable.hasEnd fault).symm.trans told
  | none =>
    obtain ⟨after, same, moves⟩ := tell_accepted held graph sayable fault
    cases same.symm.trans told
    exact moves

theorem opening_held (document : Document) (batching : Batching) : Held (opening document batching) := by
  refine ⟨Roster.empty_sound _, rfl, ?_, ?_, ?_, ?_⟩
  · intro id node found; cases found
  · intro frame member; cases member
  · intro frame member; cases member
  · exact ⟨fun edge told => (nomatch told), fun edge told => (nomatch told), rfl⟩

theorem opening_reads {document : Document} (graph : document.format = .dot) (batching : Batching) :
    (opening document batching).batching = .diagram ∧
      Reads (opening document batching).events { Intake.start with inBatch := true } := by
  obtain ⟨format, statements⟩ := document
  cases graph
  refine ⟨rfl, ?_⟩
  have started : Reads [.batchStart] { Intake.start with inBatch := true } := Reads.nil.snoc (.batchStart rfl)
  change Reads ([.batchStart] ++ (Hint.ofStatements statements).toList) _
  cases hint : Hint.ofStatements statements with
  | none => exact started
  | some event =>
    obtain ⟨layout, direction, attrs, rfl⟩ := Hint.ofRoot_layout hint
    exact started.snoc (.setLayout layout direction attrs rfl)

-- Nodes are told under their keys, and edges under the numbers they were given.
theorem heldBack_reads {narration : Narration} (held : Held narration) (graph : narration.format = .dot)
    {events : List Event} (reads : Reads events { Intake.start with inBatch := true }) :
    ∃ intake, Reads (events ++ narration.heldBack) intake ∧ intake.inBatch = true := by
  have ids : narration.graph.nodes.values.map Node.id = narration.graph.nodes.keys := Table.map_values held.own
  have nodes := reads.addNodes narration.graph.nodes.values
    (by rw [ids]; exact Table.keys_nodup _) (fun _ _ known => nomatch known)
  have edges := nodes.addEdges narration.graph.edges
    (by rw [held.joins.ids]; exact numberedIds_nodup _ _) (fun _ _ known => nomatch known)
    (by
      intro edge told
      have ends := held.joins.ends edge told
      rw [ids]
      exact ⟨List.mem_append_right _ ends.1, List.mem_append_right _ ends.2⟩)
    held.joins.unnumbered
  exact ⟨_, by simpa [heldBack, graph] using edges, rfl⟩

theorem ofDocument_heldBack {document : Document} {batching : Batching} {narration : Narration}
    (graph : document.format = .dot)
    (graphs : ∀ placed ∈ document.statements, placed.statement.ofGraph = true)
    (told : ofDocument document batching = .ok narration) :
    ∃ intake, Reads narration.events intake ∧ intake.inBatch = false := by
  obtain ⟨last, run, closed, rfl⟩ := (ofDocument_ok_iff _ _ _).1 told
  obtain ⟨held, quiet⟩ : Held last ∧ Quiet (opening document batching) last :=
    tellAll_preserves (fun narration => Held narration ∧ Quiet (opening document batching) narration)
      (fun placed member before after kept one =>
        have moves := tell_held kept.1 (graphs placed member) one
        ⟨moves.held, kept.2.trans moves.quiet⟩)
      ⟨opening_held document batching, .refl _⟩ run
  obtain ⟨whole, opened⟩ := opening_reads graph batching
  obtain ⟨intake, reads, inBatch⟩ := heldBack_reads held (quiet.format.trans graph) (quiet.events ▸ opened)
  have ended := reads.snoc (.batchEnd inBatch)
  exact ⟨_, by simpa [quiet.batching, whole] using ended, rfl⟩

end Narration
end DiagramStream
