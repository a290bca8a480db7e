import DiagramStream.Proofs.Canvas.Drawing
import DiagramStream.Proofs.Graph.Defaults
import DiagramStream.Proofs.Graph.Nodes

/-!
A graph told where its statements stand: each node when it is first referred to, each change of it with the statement
that makes the change, and each edge with the statement that draws it. Main statement: this draws the same diagram as
telling everything in the end.
-/

namespace DiagramStream
namespace Narration

-- What a node statement changes in a node that was there.
def change? (narration : Narration) (placed : Placed) : Option (String × Attrs) :=
  match placed.statement with
  | .nodeStatement node attrs =>
    match ownAttrs attrs with
    | .error _ => none
    | .ok own =>
      let said := narration.roster.declare (narration.stated node attrs own placed.position.line)
      if said.created.isSome || said.change.isEmpty then none else some (said.id, said.change)
  | _ => none

-- The members that were not there before, as they were enrolled.
def arrivals (before after : Narration) : List Member :=
  after.roster.members.values.drop before.roster.members.values.length

def drawn (before after : Narration) : List Edge := after.graph.edges.drop before.graph.edges.length

-- What there is to tell of a statement that leads from one narration to another.
def tidings (before : Narration) (placed : Placed) (after : Narration) : List Event :=
  (before.arrivals after).map (fun member => .addNode member.node)
    ++ (before.change? placed).toList.map (fun (id, change) => .updateNode id change)
    ++ (before.drawn after).map .addEdge

def tidingsAll (narration : Narration) : List Placed → List Event
  | [] => []
  | placed :: rest =>
    match narration.tell placed with
    | .error _ => []
    | .ok next => narration.tidings placed next ++ next.tidingsAll rest

-- The statements of a graph, told in their order.
def inOrder (statements : List Placed) (batching : Batching) : List Event :=
  let start := opening ⟨.dot, statements⟩ batching
  start.events ++ start.tidingsAll statements ++ [.batchEnd]

theorem tidingsAll_concat {narration middle after : Narration} {before : List Placed} {placed : Placed}
    (run : narration.tellAll before = .ok middle) (told : middle.tell placed = .ok after) :
    narration.tidingsAll (before ++ [placed]) = narration.tidingsAll before ++ middle.tidings placed after := by
  induction before generalizing narration with
  | nil =>
    cases run
    simp [tidingsAll, told]
  | cons first rest ih =>
    unfold tellAll at run
    split at run
    · cases run
    · rename_i next one
      simp only [List.cons_append, tidingsAll, one, ih run, List.append_assoc]

-- No hint is among the tidings: those are looked for before the first statement.
theorem hintsOf_tidings (before : Narration) (placed : Placed) (after : Narration) :
    hintsOf (before.tidings placed after) = [] := by
  refine hintsOf_nil_of ?_
  rintro event member layout direction attrs rfl
  simp [tidings] at member

theorem hintsOf_tidingsAll (narration : Narration) (statements : List Placed) :
    hintsOf (narration.tidingsAll statements) = [] := by
  induction statements generalizing narration with
  | nil => rfl
  | cons placed rest ih =>
    unfold tidingsAll
    split
    · rfl
    · rw [hintsOf_append, hintsOf_tidings, ih, List.nil_append]

end Narration

-- An index that took in nodes at its end.
def Grown (nodes after : Table Node) (added : List Node) : Prop :=
  after.entries = nodes.entries ++ added.map fun node => (node.id, node)

namespace Grown
variable {nodes middle after : Table Node} {added later : List Node}

theorem refl (nodes : Table Node) : Grown nodes nodes [] := by simp [Grown]

theorem trans (grown : Grown nodes middle added) (more : Grown middle after later) :
    Grown nodes after (added ++ later) := by
  unfold Grown at grown more ⊢
  rw [more, grown, List.map_append, List.append_assoc]

theorem set {node : Node} (fresh : node.id ∉ nodes.keys) : Grown nodes (nodes.set node.id node) [node] :=
  Table.write_of_not_mem fresh node

theorem keys (grown : Grown nodes after added) : after.keys = nodes.keys ++ added.map Node.id := by
  unfold Table.keys Table.keysOf
  rw [show after.entries = _ from grown]
  simp

-- Keys are told apart, so that the nodes that came differ from those that were there.
theorem apart (grown : Grown nodes after added) :
    (added.map Node.id).Nodup ∧ ∀ node ∈ added, node.id ∉ nodes.keys := by
  have nodup := after.keys_nodup
  rw [grown.keys] at nodup
  obtain ⟨-, new, apart⟩ := List.nodup_append.1 nodup
  exact ⟨new, fun node listed known => apart _ known _ (List.mem_map_of_mem listed) rfl⟩

-- Telling of the nodes one by one leads to the same index.
theorem register (grown : Grown nodes after added) (labelled : ∀ node ∈ added, node.Labelled) :
    (added.map Event.addNode).foldl register nodes = after := by
  induction added generalizing nodes with
  | nil => exact Table.ext (by simpa [Grown] using Eq.symm grown)
  | cons node rest ih =>
    have fresh := grown.apart.2 node (List.mem_cons_self ..)
    have first : Grown nodes (nodes.set node.id node) [node] := .set fresh
    rw [List.map_cons, List.foldl_cons, register_new fresh (labelled node (List.mem_cons_self ..))]
    refine ih ?_ fun later member => labelled later (List.mem_cons_of_mem _ member)
    unfold Grown at first grown ⊢
    rw [first, grown]
    simp

theorem labelled (grown : Grown nodes after added) (old : ∀ id node, nodes.get? id = some node → node.Labelled)
    (new : ∀ node ∈ added, node.Labelled) : ∀ id node, after.get? id = some node → node.Labelled := by
  intro id node found
  have listed := (Table.get?_eq_some_iff ..).1 found
  rw [show after.entries = _ from grown] at listed
  rcases List.mem_append.1 listed with before | arrived
  · exact old id node ((Table.get?_eq_some_iff ..).2 before)
  · obtain ⟨other, member, same⟩ := List.mem_map.1 arrived
    cases same
    exact new _ member

end Grown

theorem foldl_register_addEdges (nodes : Table Node) (edges : List Edge) :
    (edges.map Event.addEdge).foldl register nodes = nodes := by
  induction edges with
  | nil => rfl
  | cons edge rest ih => exact ih

namespace Narration

-- Nodes that were only referred to

-- Members that were enrolled, and held back as they were enrolled. Nothing else became of any node.
structure Gains (before after : Narration) (added : List Member) : Prop where
  members : after.roster.members.values = before.roster.members.values ++ added
  nodes : Grown before.graph.nodes after.graph.nodes (added.map Member.node)
  labelled : ∀ node ∈ added.map Member.node, node.Labelled

theorem Gains.none {before after : Narration} (members : after.roster.members = before.roster.members)
    (nodes : after.graph.nodes = before.graph.nodes) : Gains before after [] := by
  refine ⟨by simp [members], ?_, ?_⟩
  · rw [nodes]
    exact .refl _
  · intro node listed
    cases listed

theorem Gains.trans {first second third : Narration} {earlier later : List Member} (one : Gains first second earlier)
    (other : Gains second third later) : Gains first third (earlier ++ later) := by
  refine ⟨?_, ?_, ?_⟩
  · rw [other.members, one.members, List.append_assoc]
  · rw [List.map_append]
    exact one.nodes.trans other.nodes
  · intro node listed
    rw [List.map_append] at listed
    rcases List.mem_append.1 listed with early | late
    · exact one.labelled node early
    · exact other.labelled node late

theorem Gains.enroll {before after : Narration} (held : Held before) {member : Member}
    (newcomer : Roster.Newcomer before.roster member) (fresh : member.node.id ∉ before.roster.members.keys)
    (members : after.roster.members = before.roster.members.set member.node.id member)
    (nodes : after.graph.nodes = before.graph.nodes.set member.node.id member.node) : Gains before after [member] := by
  refine ⟨?_, ?_, ?_⟩
  · rw [members, Table.values_set_of_not_mem fresh]
  · rw [nodes]
    exact .set (by rwa [held.keys])
  · intro node listed
    cases List.mem_singleton.1 listed
    exact newcomer.label

theorem graphNode_gains {narration : Narration} (held : Held narration) (name : String) :
    ∃ members, Gains narration (narration.graphNode name).2 members := by
  have members := narration.roster.mention_members name narration.nesting.nodeAttrs
  have grows := Roster.mention_grows held.sound name narration.nesting.nodeAttrs
  rw [graphNode_eq]
  unfold received
  cases created : (narration.roster.mention name narration.nesting.nodeAttrs).created with
  | none =>
    simp only [created] at members
    exact ⟨[], .none (congrArg Roster.members members) rfl⟩
  | some member =>
    simp only [created] at members
    obtain ⟨same, fresh⟩ := grows.fresh member created
    exact ⟨[member], .enroll held members.1 (same ▸ fresh) members.2 rfl⟩

theorem mentionAll_gains {narration : Narration} (held : Held narration) (names : List String) :
    ∃ members, Gains narration (narration.mentionAll names) members := by
  induction names generalizing narration with
  | nil => exact ⟨[], .none rfl rfl⟩
  | cons name rest ih =>
    obtain ⟨first, one⟩ := graphNode_gains held name
    obtain ⟨later, other⟩ := ih (graphNode_refers held name).1.held
    exact ⟨first ++ later, one.trans other⟩

-- Edges come after those that are there.
theorem addEdges_edges (graph : GraphPart) (label : Option String) (base : Attrs) (pairs : List (EdgeEnd × EdgeEnd)) :
    graph.edges <+: (pairs.foldl (fun graph pair => addEdge graph label base pair.1 pair.2) graph).edges := by
  induction pairs generalizing graph with
  | nil => exact List.prefix_refl _
  | cons pair rest ih =>
    refine List.IsPrefix.trans ?_ (ih (addEdge graph label base pair.1 pair.2))
    unfold addEdge
    split
    · exact List.prefix_refl _
    · exact List.prefix_append ..

theorem chain_gains {narration : Narration} (held : Held narration) (plain : narration.roster.Plain)
    (names : List String) (groups : List (List NodeRef)) (attrs : Attrs) :
    let after := (narration.mentionAll names).draw groups attrs
    (∃ added, Gains narration after added) ∧ narration.graph.edges <+: after.graph.edges := by
  intro after
  obtain ⟨added, gains⟩ := mentionAll_gains held names
  have still : Gains (narration.mentionAll names) after [] := .none rfl (addEdges_same ..).1
  have edges : (narration.mentionAll names).graph.edges = narration.graph.edges := by
    rw [(mentionAll_referred held plain names).refers.graph]
  exact ⟨⟨_, gains.trans still⟩, edges ▸ addEdges_edges ..⟩

-- What was told so far

-- A stream that tells of all that is held back.
structure Conveys (narration : Narration) (events : List Event) : Prop where
  reads : Reads events ⟨narration.graph.nodes.keys, narration.graph.edges.map Edge.id, true, 0⟩
  nodes : registered events = narration.graph.nodes
  edges : edgesOf events = narration.graph.edges
  labelled : ∀ id node, narration.graph.nodes.get? id = some node → node.Labelled

theorem Gains.arrivals {before after : Narration} {added : List Member} (gains : Gains before after added) :
    before.arrivals after = added := by
  rw [Narration.arrivals, gains.members, List.drop_left]

-- Nodes that arrive, and edges that are drawn between nodes that are there.
theorem Conveys.grow {narration after : Narration} {events : List Event} (conveys : Conveys narration events)
    (held : Held after) {added : List Member} (arrived : narration.arrivals after = added)
    (grown : Grown narration.graph.nodes after.graph.nodes (added.map Member.node))
    (labelled : ∀ node ∈ added.map Member.node, node.Labelled)
    (edges : narration.graph.edges <+: after.graph.edges) {placed : Placed} (quiet : narration.change? placed = none) :
    Conveys after (events ++ narration.tidings placed after) := by
  obtain ⟨more, edges⟩ := edges
  have told : narration.tidings placed after =
      (added.map Member.node).map Event.addNode ++ more.map Event.addEdge := by
    simp [tidings, arrived, quiet, drawn, ← edges]
  have nodes := conveys.reads.addNodes (added.map Member.node) grown.apart.1 grown.apart.2
  have ids := numberedIds_nodup "edge-" after.graph.edgeCount
  rw [← held.joins.ids, ← edges, List.map_append] at ids
  obtain ⟨-, new, apart⟩ := List.nodup_append.1 ids
  have drawn := nodes.addEdges more new
    (fun edge listed known => apart _ known _ (List.mem_map_of_mem listed) rfl)
    (by
      intro edge listed
      have ends := held.joins.ends edge (edges ▸ List.mem_append_right _ listed)
      rwa [grown.keys] at ends)
    (fun edge listed => held.joins.unnumbered edge (edges ▸ List.mem_append_right _ listed))
  rw [told, ← List.append_assoc]
  refine ⟨?_, ?_, ?_, grown.labelled conveys.labelled labelled⟩
  · rw [grown.keys, ← edges, List.map_append]
    exact drawn
  · rw [registered_append, registered_append, conveys.nodes, grown.register labelled, foldl_register_addEdges]
  · rw [edgesOf_append, edgesOf_append, edgesOf_addNodes, edgesOf_addEdges, conveys.edges, List.append_nil, edges]

theorem Conveys.gain {narration after : Narration} {events : List Event} (conveys : Conveys narration events)
    (held : Held after) {added : List Member} (gains : Gains narration after added)
    (edges : narration.graph.edges <+: after.graph.edges) {placed : Placed} (quiet : narration.change? placed = none) :
    Conveys after (events ++ narration.tidings placed after) :=
  conveys.grow held gains.arrivals gains.nodes gains.labelled edges quiet

-- A change of a node that is there.
theorem Conveys.revise {narration after : Narration} {events : List Event} (conveys : Conveys narration events)
    (arrived : narration.arrivals after = []) {id : String} {change : Attrs} {before : Node}
    (found : narration.graph.nodes.get? id = some before)
    (nodes : after.graph.nodes = narration.graph.nodes.set id (before.merge change))
    (edges : after.graph.edges = narration.graph.edges) (keeps : change.KeepsLabel) {placed : Placed}
    (asked : narration.change? placed = some (id, change)) :
    Conveys after (events ++ narration.tidings placed after) := by
  have told : narration.tidings placed after = [.updateNode id change] := by
    simp [tidings, arrived, asked, drawn, edges]
  have known := Table.mem_keys_of_get? found
  rw [told]
  refine ⟨?_, ?_, ?_, ?_⟩
  · rw [nodes, edges, Table.keys_set_of_mem known]
    exact conveys.reads.snoc (.updateNode id change known)
  · rw [registered_append, conveys.nodes, nodes]
    exact register_known found change
  · rw [edgesOf_append, conveys.edges, edges]
    exact List.append_nil _
  · intro other node there
    rw [nodes, Table.get?_set] at there
    split at there
    · cases there
      exact (conveys.labelled id before found).merge keeps
    · exact conveys.labelled other node there

theorem arrivals_revised {narration after : Narration} {id : String} {before member : Member}
    (listed : narration.roster.member? id = some before)
    (members : after.roster.members = narration.roster.members.set id member) : narration.arrivals after = [] := by
  have lengths : ∀ members : Table Member, members.values.length = members.keys.length := by
    intro members
    simp [Table.values, Table.keys, Table.keysOf]
  rw [arrivals, members]
  refine List.drop_eq_nil_iff.2 (Nat.le_of_eq ?_)
  rw [lengths, lengths, Table.keys_set_of_mem (Table.mem_keys_of_get? listed)]

-- Statements

theorem states_conveys {narration after : Narration} {events : List Event} (conveys : Conveys narration events)
    (held : Held narration) (later : Held after) {place : Text.Position} {node : NodeRef} {attrs own : Attrs}
    (readable : ownAttrs attrs = .ok own) (keeps : (narration.stated node attrs own place.line).attrs.KeepsLabel)
    (told : narration.declared (narration.roster.declare (narration.stated node attrs own place.line)) = .ok after) :
    Conveys after (events ++ narration.tidings ⟨place, .nodeStatement node attrs⟩ after) := by
  have asked : narration.change? ⟨place, .nodeStatement node attrs⟩ =
      let said := narration.roster.declare (narration.stated node attrs own place.line)
      if said.created.isSome || said.change.isEmpty then none else some (said.id, said.change) := by
    simp only [change?, readable]
  have roster := (declared_same told).1
  generalize narration.stated node attrs own place.line = said at keeps told asked roster
  have grows := Roster.declare_grows held.sound said
  unfold declared at told
  rcases Roster.declare_members held.sound said with
    ⟨member, newcomer, created, id, members⟩ | ⟨member, listed, created, id, change, members⟩
  · have fresh : member.node.id ∉ narration.roster.members.keys := id ▸ (grows.fresh member created).2
    simp only [created] at told
    cases told
    exact conveys.gain later (.enroll held newcomer fresh (by rw [roster, members]) rfl) (List.prefix_refl _)
      (by simp [asked, created])
  · have arrived := arrivals_revised listed (by rw [roster, members])
    simp only [created] at told
    split at told
    · rename_i unchanged
      cases told
      exact conveys.grow later arrived (.refl _) (fun _ listed => nomatch listed) (List.prefix_refl _)
        (by simp [asked, unchanged])
    · rename_i changed
      split at told
      · cases told
      · rename_i before found
        have own : (before.merge (narration.roster.declare said).change).id = (narration.roster.declare said).id :=
          (Node.merge_id ..).trans (held.own _ _ found)
        have stated : narration.change? ⟨place, .nodeStatement node attrs⟩ =
            some ((narration.roster.declare said).id, (narration.roster.declare said).change) := by
          simp [asked, created, changed]
        cases told
        refine conveys.revise arrived found ?_ rfl ?_ stated
        · rw [← own]
          rfl
        · rw [change]
          exact Roster.revise_keepsLabel keeps member.node

theorem keepsLabel_carried : Carried Table.KeepsLabel :=
  ⟨Table.empty_keepsLabel, fun _ _ label keeps => keeps.set fun same => absurd same label⟩

-- What a node statement declares gives no empty label: its own label is no attribute, and the defaults have none.
theorem stated_keepsLabel {narration : Narration} (defaults : DefaultsKeep Table.KeepsLabel narration.nesting.frames)
    {node : NodeRef} {attrs own : Attrs} (readable : ownAttrs attrs = .ok own) (line : Int) :
    (narration.stated node attrs own line).attrs.KeepsLabel := by
  have ownLabel : own.KeepsLabel := by
    refine Table.keepsLabel_of_not_mem ?_
    intro listed
    rcases ownAttrs_keys readable _ listed with layer | ⟨other, -⟩
    · exact absurd layer (by decide)
    · exact other rfl
  unfold stated
  dsimp only
  split
  · exact (defaults.nodeAttrs keepsLabel_carried).merge ownLabel
  · exact ownLabel

theorem tell_conveys {narration after : Narration} {events : List Event} {placed : Placed} (held : Held narration)
    (plain : narration.roster.Plain) (defaults : DefaultsKeep Table.KeepsLabel narration.nesting.frames)
    (conveys : Conveys narration events) (graph : placed.statement.ofGraph = true)
    (told : narration.tell placed = .ok after) : Conveys after (events ++ narration.tidings placed after) := by
  have later := (tell_held held graph told).held
  cases tell_goes held plain graph told with
  | begins | enters | ends | leaves => exact conveys.gain later (.none rfl rfl) (List.prefix_refl _) rfl
  | continues place endpoints operators attrs top outer frames some_ =>
    obtain ⟨⟨added, gains⟩, edges⟩ := chain_gains (leave_held held frames).1 plain
      (endpoints.flatten.map NodeRef.name) ((top.members.map fun id => ⟨id, none⟩) :: endpoints) attrs
    exact conveys.gain later ⟨gains.members, gains.nodes, gains.labelled⟩ edges rfl
  | joins place endpoints operators attrs body =>
    obtain ⟨⟨added, gains⟩, edges⟩ := chain_gains held plain (endpoints.flatten.map NodeRef.name) endpoints attrs
    exact conveys.gain later gains edges rfl
  | states place node attrs own after body readable declared =>
    exact states_conveys conveys held later readable (stated_keepsLabel defaults readable place.line) declared
  | sets | assigns => exact conveys.gain later (.none rfl rfl) (List.prefix_refl _) rfl

theorem opening_conveys (statements : List Placed) (batching : Batching) :
    let start := opening ⟨.dot, statements⟩ batching
    Conveys start start.events := by
  intro start
  have reads : Reads start.events { Intake.start with inBatch := true } := (opening_reads rfl batching).2
  refine ⟨reads, ?_, (preface_plain statements).2, fun id node found => nomatch found⟩
  change registered (.batchStart :: (Hint.ofStatements statements).toList) = Table.empty
  rcases Hint.ofStatements_layout statements with asked | ⟨layout, direction, attrs, asked⟩ <;> rw [asked] <;> rfl

-- What the run up to here keeps.
structure Reports (start narration : Narration) (before : List Placed) : Prop where
  run : start.tellAll before = .ok narration
  conveys : Conveys narration (start.events ++ start.tidingsAll before)
  defaults : DefaultsKeep Table.KeepsLabel narration.nesting.frames

theorem tell_reports {start narration after : Narration} {before : List Placed} {placed : Placed}
    (tallied : Tallied narration before) (reports : Reports start narration before)
    (graph : placed.statement.ofGraph = true)
    (labels : ∀ attrs, placed.statement = .attrStatement "node" attrs → attrs.get? "label" ≠ some "")
    (told : narration.tell placed = .ok after) : Reports start after (before ++ [placed]) := by
  refine ⟨(tellAll_concat reports.run placed).trans told, ?_, ?_⟩
  · rw [tidingsAll_concat reports.run told, ← List.append_assoc]
    exact tell_conveys tallied.held tallied.plain reports.defaults reports.conveys graph told
  · have merges : ∀ attrs, placed.statement = .attrStatement "node" attrs → ∀ defaults : Attrs,
        defaults.KeepsLabel → (defaults.merge attrs).KeepsLabel :=
      fun attrs shape defaults kept => kept.merge (labels attrs shape)
    exact tell_defaultsKeep keepsLabel_carried tallied.held tallied.plain graph merges reports.defaults told

theorem opening_reports (statements : List Placed) (batching : Batching) :
    let start := opening ⟨.dot, statements⟩ batching
    Reports start start [] := by
  intro start
  have conveys : Conveys start start.events := opening_conveys statements batching
  exact ⟨rfl, by rwa [tidingsAll, List.append_nil], fun frame member => nomatch member⟩

-- What is held back

theorem grown_values {nodes : Table Node} (own : ∀ id node, nodes.get? id = some node → node.id = id) :
    Grown Table.empty nodes nodes.values := by
  change nodes.entries = [] ++ (nodes.entries.map Prod.snd).map fun node => (node.id, node)
  rw [List.nil_append, List.map_map]
  refine (List.map_id _).symm.trans (List.map_congr_left ?_)
  intro entry listed
  exact Prod.ext (own entry.1 entry.2 ((Table.get?_eq_some_iff ..).2 listed)).symm rfl

theorem registered_account {statements : List Placed} {narration : Narration} {events : List Event}
    (held : Held narration) (conveys : Conveys narration events) :
    registered (account statements narration.graph.nodes.values narration.graph.edges) = narration.graph.nodes := by
  have opened : registered (.batchStart :: (Hint.ofStatements statements).toList) = Table.empty :=
    (opening_conveys statements .diagram).nodes
  have labelled : ∀ node ∈ narration.graph.nodes.values, node.Labelled := by
    intro node listed
    obtain ⟨entry, member, rfl⟩ := List.mem_map.1 listed
    exact conveys.labelled entry.1 entry.2 ((Table.get?_eq_some_iff ..).2 member)
  rw [account, registered_append, registered_append, opened, List.foldl_append,
    (grown_values held.own).register labelled, foldl_register_addEdges]
  rfl

-- No layout is among what was held back.
theorem hintsOf_heldBack (nodes : List Node) (edges : List Edge) :
    hintsOf (nodes.map .addNode ++ edges.map .addEdge ++ [.batchEnd]) = [] := by
  refine hintsOf_nil_of ?_
  rintro event member layout direction attrs rfl
  simp at member

theorem hintsOf_account (statements : List Placed) (nodes : List Node) (edges : List Edge) :
    hintsOf (account statements nodes edges) = hintsOf (.batchStart :: (Hint.ofStatements statements).toList) := by
  rw [account, List.append_assoc, hintsOf_append, hintsOf_heldBack, List.append_nil]

-- A node that is stated again may take an empty label over from the defaults. Told as a change it stays empty, while
-- a node that is told with it gets its id instead.
theorem ofDocument_inOrder {statements : List Placed} {batching : Batching}
    (graph : ∀ placed ∈ statements, placed.statement.ofGraph = true)
    (labels : ∀ placed ∈ statements, ∀ attrs, placed.statement = .attrStatement "node" attrs →
      attrs.get? "label" ≠ some "")
    {narration : Narration} (told : ofDocument ⟨.dot, statements⟩ batching = .ok narration) (name : String)
    (format : Option String) :
    Diagram.ofEvents narration.events name format = Diagram.ofEvents (inOrder statements batching) name format := by
  have step : ∀ placed ∈ statements, ∀ before one other, Tallied one before →
      Reports (opening ⟨.dot, statements⟩ batching) one before → one.tell placed = .ok other →
      Reports (opening ⟨.dot, statements⟩ batching) other (before ++ [placed]) :=
    fun placed member before one other tallied reports told =>
      tell_reports tallied reports (graph placed member) (labels placed member) told
  obtain ⟨intake, hoisted, -⟩ := ofDocument_heldBack rfl graph told
  obtain ⟨last, tallied, ⟨-, conveys, -⟩, rfl⟩ :=
    ofDocument_reaches graph step (opening_reports statements batching) told
  have inOrder_reads := conveys.reads.snoc (.batchEnd rfl)
  refine hoisted.ofEvents_eq inOrder_reads ?_ ?_ ?_ name format
  · rw [registered_account tallied.held conveys, registered_append, conveys.nodes]
    rfl
  · rw [edgesOf_account, edgesOf_append, conveys.edges]
    exact (List.append_nil _).symm
  · rw [hintsOf_account, hintsOf_append, hintsOf_append, hintsOf_tidingsAll]
    exact ((List.append_nil _).trans (List.append_nil _)).symm

-- A node that is stated again between two edges, once with something new and once without.
theorem ofDocument_inOrder_restated :
    let box : Attrs := Table.ofList [("shape", "box")]
    let statements : List Placed :=
      [⟨⟨1, 1⟩, .graphOpen true false none⟩, ⟨⟨2, 1⟩, .attrStatement "node" box⟩,
       ⟨⟨3, 1⟩, .edgeStatement [[⟨"a", none⟩], [⟨"b", none⟩]] ["->"] Table.empty⟩,
       ⟨⟨4, 1⟩, .nodeStatement ⟨"a", none⟩ (Table.ofList [("label", "A"), ("color", "red")])⟩,
       ⟨⟨5, 1⟩, .edgeStatement [[⟨"b", none⟩], [⟨"c", none⟩]] ["->"] Table.empty⟩,
       ⟨⟨6, 1⟩, .nodeStatement ⟨"a", none⟩ (Table.ofList [("label", "A")])⟩, ⟨⟨7, 1⟩, .scopeClose [] [] Table.empty⟩]
    let directed : Attrs := Table.ofList [("direction", "directed")]
    (∀ placed ∈ statements, placed.statement.ofGraph = true) ∧
    (∀ placed ∈ statements, ∀ attrs, placed.statement = .attrStatement "node" attrs →
      attrs.get? "label" ≠ some "") ∧
    inOrder statements .diagram =
      [.batchStart, .addNode ⟨"a", "generic", "a", box⟩, .addNode ⟨"b", "generic", "b", box⟩,
       .addEdge ⟨"edge-1", "a", "b", none, none, directed⟩,
       .updateNode "a" (Table.ofList [("label", "A"), ("color", "red")]), .addNode ⟨"c", "generic", "c", box⟩,
       .addEdge ⟨"edge-2", "b", "c", none, none, directed⟩, .batchEnd] ∧
    ∃ narration, ofDocument ⟨.dot, statements⟩ .diagram = .ok narration ∧
      Diagram.ofEvents narration.events "" none = Diagram.ofEvents (inOrder statements .diagram) "" none := by
  intro box statements directed
  have graph : ∀ placed ∈ statements, placed.statement.ofGraph = true := by decide
  have labels : ∀ placed ∈ statements, ∀ attrs, placed.statement = .attrStatement "node" attrs →
      attrs.get? "label" ≠ some "" := by
    intro placed member attrs shape
    simp only [statements, List.mem_cons, List.not_mem_nil, or_false] at member
    rcases member with rfl | rfl | rfl | rfl | rfl | rfl | rfl <;> cases shape
    decide
  have fine : ((ofDocument ⟨.dot, statements⟩ .diagram).toOption.bind fun _ => some ()) = some () := by decide +kernel
  obtain ⟨narration, told, -⟩ := ok_of_seen fine
  exact ⟨graph, labels, by decide +kernel, narration, told, ofDocument_inOrder graph labels told "" none⟩

end Narration
end DiagramStream
