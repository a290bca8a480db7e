import DiagramStream.Proofs.Graph.Tally

/-!
The edges of a graph that is not strict. Main statement: they are the strokes that the chains ask for, one by
one in their order, each with its number, its ends and all that it carries read off the document.
-/

namespace DiagramStream

-- Strokes become edges under numbers that count from one.
def numbered (drawn : List Stroke) : List Edge := drawn.mapIdx fun index stroke => stroke.edge (index + 1)

theorem numbered_append (earlier later : List Stroke) :
    numbered (earlier ++ later) =
      numbered earlier ++ later.mapIdx fun index stroke => stroke.edge (earlier.length + index + 1) := by
  simp [numbered, List.mapIdx_append, Nat.add_comm]

theorem mem_joinAll {directed : Bool} {said : Attrs} {groups : List (List NodeRef)} {stroke : Stroke}
    (member : stroke ∈ joinAll directed said groups) : stroke.directed = directed ∧ stroke.said = said := by
  obtain ⟨pair, -, inside⟩ := List.mem_flatMap.1 member
  obtain ⟨source, -, reached⟩ := List.mem_flatMap.1 inside
  obtain ⟨target, -, rfl⟩ := List.mem_map.1 reached
  exact ⟨rfl, rfl⟩

namespace Narration

theorem edgePairs_eq (directed : Bool) (said : Attrs) (groups : List (List NodeRef)) :
    edgePairs (groups.map (·.map endOf)) =
      (joinAll directed said groups).map fun stroke => (endOf stroke.source, endOf stroke.target) := by
  induction groups with
  | nil => rfl
  | cons sources rest ih =>
    cases rest with
    | nil => rfl
    | cons targets rest =>
      simp only [List.map_cons] at ih
      simp only [List.map_cons, edgePairs, ih]
      simp [joinAll, List.flatMap_map, List.map_flatMap, Function.comp_def]

theorem portAttr_eq (key : String) (port : Option String) (attrs : Attrs) :
    portAttr key port attrs =
      ((Roster.given port).toList.map fun port => (key, port)).foldl (fun attrs port => attrs.set port.1 port.2) attrs := by
  unfold portAttr
  cases Roster.given port <;> rfl

theorem strokeAttrs_eq (stroke : Stroke) :
    stroke.attrs = portAttr "headport" stroke.target.port (portAttr "tailport" stroke.source.port
      ((stroke.said.erase "label").set "direction" (directionName stroke.directed))) := by
  rw [portAttr_eq, portAttr_eq, ← List.foldl_append]
  rfl

theorem addEdge_stroke {graph : GraphPart} (free : graph.strict = false) (stroke : Stroke) :
    addEdge graph (stroke.said.get? "label")
      ((stroke.said.erase "label").set "direction" (directionName stroke.directed)) (endOf stroke.source)
      (endOf stroke.target) =
    { graph with
      edgeCount := graph.edgeCount + 1, edges := graph.edges ++ [stroke.edge (graph.edgeCount + 1)] } := by
  simp only [addEdge, free, Bool.false_and, Bool.false_eq_true, if_false, Stroke.edge, strokeAttrs_eq]
  rfl

theorem addEdges_strokes {directed : Bool} {said : Attrs} {drawn : List Stroke}
    (alike : ∀ stroke ∈ drawn, stroke.directed = directed ∧ stroke.said = said) {graph : GraphPart}
    (free : graph.strict = false) :
    drawn.foldl (fun graph stroke => addEdge graph (said.get? "label")
        ((said.erase "label").set "direction" (directionName directed)) (endOf stroke.source) (endOf stroke.target))
      graph =
    { graph with
      edgeCount := graph.edgeCount + drawn.length
      edges := graph.edges ++ drawn.mapIdx fun index stroke => stroke.edge (graph.edgeCount + index + 1) } := by
  induction drawn generalizing graph with
  | nil => simp
  | cons stroke rest ih =>
    obtain ⟨rfl, rfl⟩ := alike stroke (List.mem_cons_self ..)
    have later : ∀ other ∈ rest, other.directed = stroke.directed ∧ other.said = stroke.said :=
      fun other member => alike other (List.mem_cons_of_mem _ member)
    rw [List.foldl_cons, addEdge_stroke free, ih later (by exact free)]
    simp [List.mapIdx_cons, Nat.add_assoc, Nat.add_comm 1]

theorem draw_eq {narration : Narration} (free : narration.graph.strict = false) (groups : List (List NodeRef))
    (attrs : Attrs) :
    let drawn := joinAll narration.graph.directed (narration.nesting.edgeAttrs.merge attrs) groups
    (narration.draw groups attrs).graph = { narration.graph with
      edgeCount := narration.graph.edgeCount + drawn.length
      edges := narration.graph.edges ++
        drawn.mapIdx fun index stroke => stroke.edge (narration.graph.edgeCount + index + 1) } := by
  intro drawn
  have alike : ∀ stroke ∈ drawn, stroke.directed = narration.graph.directed ∧
      stroke.said = narration.nesting.edgeAttrs.merge attrs := fun _ member => mem_joinAll member
  rw [← addEdges_strokes alike free]
  simp only [draw, edgePairs_eq narration.graph.directed (narration.nesting.edgeAttrs.merge attrs), List.foldl_map]
  rfl

-- What is held back of the edges.
structure Inked (narration : Narration) (before : List Placed) : Prop where
  free : narration.graph.strict = false
  count : narration.graph.edgeCount = (strokes before).length
  edges : narration.graph.edges = numbered (strokes before)

-- Statements without a chain add nothing.
theorem Inked.still {narration after : Narration} {before : List Placed} {placed : Placed}
    (inked : Inked narration before) (silent : groupsAfter before placed = [])
    (free : after.graph.strict = false) (count : after.graph.edgeCount = narration.graph.edgeCount)
    (edges : after.graph.edges = narration.graph.edges) : Inked after (before ++ [placed]) := by
  have none : strokesAfter before placed = [] := by rw [strokesAfter, silent]; rfl
  refine ⟨free, ?_, ?_⟩
  · rw [strokes_concat, none, List.append_nil, count, inked.count]
  · rw [strokes_concat, none, List.append_nil, edges, inked.edges]

-- The chain is drawn once its nodes are mentioned, with what its edges take over after a brace was left.
theorem Inked.draw {narration middle : Narration} {before : List Placed} {placed : Placed}
    (inked : Inked narration before) (tallied : Tallied narration before)
    (later : Tallied (middle.draw (groupsAfter before placed) placed.statement.edgeAttrs) (before ++ [placed]))
    (graph : middle.graph = { narration.graph with nodes := middle.graph.nodes }) :
    Inked (middle.draw (groupsAfter before placed) placed.statement.edgeAttrs) (before ++ [placed]) := by
  have free : middle.graph.strict = false := by rw [graph]; exact inked.free
  have directed : middle.graph.directed = (siteOf before).directed := by
    rw [graph]
    exact congrArg Site.directed tallied.site
  have defaults : middle.nesting.edgeAttrs = edgeDefaults (openScopes (before ++ [placed])) := later.edgeAttrs
  have count : middle.graph.edgeCount = (strokes before).length := by rw [graph]; exact inked.count
  have edges : middle.graph.edges = numbered (strokes before) := by rw [graph]; exact inked.edges
  have drawn := draw_eq free (groupsAfter before placed) placed.statement.edgeAttrs
  rw [directed, defaults] at drawn
  refine ⟨?_, ?_, ?_⟩
  · rw [drawn]
    exact free
  · rw [drawn, strokes_concat, List.length_append, count]
    rfl
  · rw [drawn, strokes_concat, numbered_append, edges, count]
    rfl

theorem tell_inked {narration after : Narration} {before : List Placed} {placed : Placed}
    (tallied : Tallied narration before) (inked : Inked narration before)
    (graph : placed.statement.ofGraph = true)
    (free : ∀ directed name, placed.statement ≠ .graphOpen directed true name)
    (told : narration.tell placed = .ok after) : Inked after (before ++ [placed]) := by
  have later := tell_tallied tallied graph told
  cases tell_goes tallied.held tallied.plain graph told with
  | begins place directed strict name none =>
    have loose : strict = false := by
      cases strict with
      | false => rfl
      | true => exact absurd rfl (free directed name)
    exact inked.still rfl loose rfl rfl
  | continues place endpoints operators attrs top outer frames some_ =>
    have referred := mentionAll_referred (leave_held tallied.held frames).1 tallied.plain
      (endpoints.flatten.map NodeRef.name)
    have members : top.members = insideOf before := (frames ▸ tallied.tallies).members
    have groups : groupsAfter before ⟨place, .scopeClose endpoints operators attrs⟩ =
        (top.members.map fun id => ⟨id, none⟩) :: endpoints := by
      simp [groupsAfter, some_, members]
    rw [← groups] at later ⊢
    exact inked.draw tallied later referred.refers.graph
  | joins place endpoints operators attrs body =>
    have referred := mentionAll_referred tallied.held tallied.plain (endpoints.flatten.map NodeRef.name)
    have groups : groupsAfter before ⟨place, .edgeStatement endpoints operators attrs⟩ = endpoints := rfl
    rw [← groups] at later ⊢
    exact inked.draw tallied later referred.refers.graph
  | states place node attrs own after body readable told =>
    have same := (declared_referred tallied.held tallied.plain rfl told).refers.graph
    refine inked.still rfl ?_ ?_ ?_
    all_goals rw [same]
    exact inked.free
  | _ => exact inked.still rfl inked.free rfl rfl

theorem ofDocument_edges {statements : List Placed} {batching : Batching} {narration : Narration}
    (graph : ∀ placed ∈ statements, placed.statement.ofGraph = true)
    (free : ∀ placed ∈ statements, ∀ directed name, placed.statement ≠ .graphOpen directed true name)
    (told : ofDocument ⟨.dot, statements⟩ batching = .ok narration) :
    edgesOf narration.events = numbered (strokes statements) ∧
      narration.graph.edgeCount = (strokes statements).length := by
  obtain ⟨last, -, inked, rfl⟩ := ofDocument_reaches graph
    (fun placed member before one other tallied inked one_ =>
      tell_inked tallied inked (graph placed member) (free placed member) one_)
    ⟨rfl, rfl, rfl⟩ told
  refine ⟨?_, inked.count⟩
  rw [← inked.edges]
  exact edgesOf_account ..

-- A chain behind a brace whose scope holds another such chain.
theorem ofDocument_edges_nested :
    let statements : List Placed :=
      [⟨⟨1, 1⟩, .graphOpen true false none⟩,
       ⟨⟨2, 1⟩, .attrStatement "edge" (Table.ofList [("label", "x")])⟩,
       ⟨⟨3, 1⟩, .subgraphOpen none⟩,
       ⟨⟨4, 1⟩, .edgeStatement [[⟨"b", none⟩], [⟨"a", some "n"⟩]] ["->"] Table.empty⟩,
       ⟨⟨5, 1⟩, .subgraphOpen (some "inner")⟩,
       ⟨⟨6, 1⟩, .nodeStatement ⟨"c", none⟩ Table.empty⟩,
       ⟨⟨7, 1⟩, .scopeClose [[⟨"d", none⟩]] ["->"] Table.empty⟩,
       ⟨⟨8, 1⟩, .scopeClose [[⟨"b", none⟩]] ["->"] (Table.ofList [("label", "y")])⟩,
       ⟨⟨9, 1⟩, .scopeClose [] [] Table.empty⟩]
    (∀ placed ∈ statements, placed.statement.ofGraph = true) ∧
    (∀ placed ∈ statements, ∀ directed name, placed.statement ≠ .graphOpen directed true name) ∧
    ∃ narration, ofDocument ⟨.dot, statements⟩ .diagram = .ok narration ∧ narration.graph.edgeCount = 6 ∧
      (edgesOf narration.events).map (fun edge => (edge.id, edge.source, edge.target, edge.label)) =
        [("edge-1", "b", "a", some "x"), ("edge-2", "c", "d", some "x"), ("edge-3", "b", "b", some "y"),
         ("edge-4", "a", "b", some "y"), ("edge-5", "c", "b", some "y"), ("edge-6", "d", "b", some "y")] := by
  intro statements
  have graph : ∀ placed ∈ statements, placed.statement.ofGraph = true := by decide
  have free : ∀ placed ∈ statements, ∀ directed name, placed.statement ≠ .graphOpen directed true name := by
    simp [statements]
  have counted : (ofDocument ⟨.dot, statements⟩ .diagram).toOption.bind (fun narration =>
      some narration.graph.edgeCount) = some 6 := by decide +kernel
  obtain ⟨narration, told, -⟩ := ok_of_seen counted
  obtain ⟨edges, count⟩ := ofDocument_edges graph free told
  refine ⟨graph, free, narration, told, ?_, ?_⟩
  · rw [count]
    decide +kernel
  · rw [edges]
    decide +kernel

end Narration
end DiagramStream
