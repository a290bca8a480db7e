import DiagramStream.Proofs.Change
import DiagramStream.Proofs.Graph.Defaults
import DiagramStream.Proofs.Graph.Level

/-!
The nodes of a graph. Main statement: what is held back of them is at every point a copy of the roster, and it is
told as it stands in the end, each node once and before the first edge.
-/

namespace DiagramStream

-- Nothing that is set for a node would be taken for one of its fields. A node statement may set a label, which
-- it does not keep among the attributes.
def Statement.Sparing : Statement → Prop
  | .nodeStatement _ attrs => "kind" ∉ attrs.keys
  | .attrStatement target attrs => target = "node" → attrs.Unreserved
  | _ => True

-- Nodes under the ids of the members that they belong to.
def Mirrors (nodes : Table Node) (members : Table Member) : Prop :=
  nodes.entries = members.entries.map fun entry => (entry.1, entry.2.node)

namespace Mirrors
variable {nodes : Table Node} {members : Table Member}

theorem set (mirrors : Mirrors nodes members) (id : String) (member : Member) :
    Mirrors (nodes.set id member.node) (members.set id member) := by
  change Table.write id member.node nodes.entries = _
  rw [show nodes.entries = _ from mirrors]
  exact Table.write_map Member.node id member members.entries

theorem get? (mirrors : Mirrors nodes members) (id : String) :
    nodes.get? id = (members.get? id).map Member.node := by
  unfold Table.get?
  rw [mirrors]
  exact Table.find?_map Member.node id members.entries

-- A member that changes in something else than its node.
theorem keep (mirrors : Mirrors nodes members) {id : String} {member : Member}
    (same : nodes.get? id = some member.node) : Mirrors nodes (members.set id member) := by
  have after := mirrors.set id member
  unfold Mirrors at after ⊢
  rw [← after]
  exact (Table.write_of_find? same).symm

theorem values (mirrors : Mirrors nodes members) : nodes.values = members.values.map Member.node := by
  unfold Table.values
  rw [mirrors]
  simp

end Mirrors

namespace Narration

theorem graphNode_mirrors {narration : Narration}
    (mirrors : Mirrors narration.graph.nodes narration.roster.members) (name : String) :
    Mirrors (narration.graphNode name).2.graph.nodes (narration.graphNode name).2.roster.members := by
  have members := narration.roster.mention_members name narration.nesting.nodeAttrs
  rw [graphNode_eq]
  unfold received
  cases created : (narration.roster.mention name narration.nesting.nodeAttrs).created with
  | none =>
    simp only [created] at members
    change Mirrors narration.graph.nodes (narration.roster.mention name narration.nesting.nodeAttrs).roster.members
    rw [members]
    exact mirrors
  | some member =>
    simp only [created] at members
    have after := mirrors.set member.node.id member
    rw [← members.2] at after
    exact after

theorem mentionAll_mirrors {narration : Narration}
    (mirrors : Mirrors narration.graph.nodes narration.roster.members) (names : List String) :
    Mirrors (narration.mentionAll names).graph.nodes (narration.mentionAll names).roster.members := by
  induction names generalizing narration with
  | nil => exact mirrors
  | cons name rest ih => exact ih (graphNode_mirrors mirrors name)

theorem declared_mirrors {narration after : Narration} (held : Held narration)
    (mirrors : Mirrors narration.graph.nodes narration.roster.members) {said : Roster.Declaration}
    (unreserved : said.attrs.Unreserved)
    (told : narration.declared (narration.roster.declare said) = .ok after) :
    Mirrors after.graph.nodes after.roster.members := by
  unfold declared at told
  rcases Roster.declare_members held.sound said with
    ⟨member, -, created, id, members⟩ | ⟨member, found, created, id, change, members⟩
  · simp only [created] at told
    cases told
    have enrolled := mirrors.set member.node.id member
    rw [← members] at enrolled
    exact enrolled
  · have copy : narration.graph.nodes.get? member.node.id = some member.node := by
      rw [mirrors.get?]
      exact congrArg (Option.map Member.node) found
    have whole := Roster.merge_revise unreserved member.node
    simp only [created, id, change, copy] at told
    split at told
    · rename_i unchanged
      cases told
      have still : (Roster.revise member.node said).node = member.node := by
        rw [← whole, show (Roster.revise member.node said).change = Table.empty from
          Table.ext (List.isEmpty_iff.1 unchanged)]
        rfl
      have kept := mirrors.keep (show narration.graph.nodes.get? member.node.id =
        some ({ member with node := (Roster.revise member.node said).node, explicit := true } : Member).node by
          rw [copy, still])
      rw [← members] at kept
      exact kept
    · cases told
      have revised := mirrors.set member.node.id
        { member with node := (Roster.revise member.node said).node, explicit := true }
      rw [← members] at revised
      simp only [hold, addMember, whole, Roster.revise_id]
      exact revised

-- What nodes take over

theorem ownAttrs_keys {attrs own : Attrs} (readable : ownAttrs attrs = .ok own) :
    ∀ key ∈ own.keys, key = "layer" ∨ (key ≠ "label" ∧ key ∈ attrs.keys) := by
  have rest : ∀ key ∈ (((attrs.erase "type").erase "label").erase "level").keys,
      key ≠ "label" ∧ key ∈ attrs.keys := by
    intro key listed
    simp only [Table.mem_keys_erase] at listed
    exact ⟨listed.2.1, listed.2.2.2⟩
  unfold ownAttrs at readable
  split at readable
  · cases readable
    exact fun key listed => .inr (rest key listed)
  · split at readable
    · cases readable
    · cases readable
      exact fun key listed => .inr (rest key listed)
    · cases readable
      intro key listed
      exact ((Table.mem_keys_set _ _ _ _).1 listed).imp_right (rest key)

-- What no field takes is passed on as it is.
theorem ownAttrs_get? {attrs own : Attrs} (readable : ownAttrs attrs = .ok own) {key : String}
    (other : key ∉ ["type", "label", "level", "layer"]) : own.get? key = attrs.get? key := by
  obtain ⟨type, label, level, layer⟩ : key ≠ "type" ∧ key ≠ "label" ∧ key ≠ "level" ∧ key ≠ "layer" := by
    simpa using other
  have rest : (((attrs.erase "type").erase "label").erase "level").get? key = attrs.get? key := by
    simp [Table.get?_erase, type, label, level]
  unfold ownAttrs at readable
  split at readable
  · cases readable
    exact rest
  · split at readable <;> cases readable
    · exact rest
    · rw [Table.get?_set, if_neg layer, rest]

theorem ownAttrs_label {attrs own : Attrs} (readable : ownAttrs attrs = .ok own) : "label" ∉ own.keys := by
  intro listed
  rcases ownAttrs_keys readable _ listed with layer | ⟨other, -⟩
  · exact absurd layer (by decide)
  · exact other rfl

theorem ownAttrs_unreserved {attrs own : Attrs} (readable : ownAttrs attrs = .ok own) (sparing : "kind" ∉ attrs.keys) :
    own.Unreserved := by
  refine ⟨?_, ownAttrs_label readable⟩
  intro listed
  rcases ownAttrs_keys readable _ listed with layer | ⟨-, stated⟩
  · exact absurd layer (by decide)
  · exact sparing stated

-- Scopes whose defaults for nodes are all attributes.
def DefaultsFree (frames : List Frame) : Prop := ∀ frame ∈ frames, frame.nodeDefaults.Unreserved

theorem unreserved_carried : Carried Table.Unreserved :=
  ⟨Table.empty_unreserved, fun value kind label free => free.set value kind label⟩

structure Copied (narration : Narration) : Prop where
  mirrors : Mirrors narration.graph.nodes narration.roster.members
  free : DefaultsFree narration.nesting.frames

-- Drawing edges leaves the nodes alone.
theorem addEdges_nodes (add : GraphPart → EdgeEnd × EdgeEnd → GraphPart)
    (same : ∀ graph pair, (add graph pair).nodes = graph.nodes) (pairs : List (EdgeEnd × EdgeEnd))
    (graph : GraphPart) : (pairs.foldl add graph).nodes = graph.nodes := by
  induction pairs generalizing graph with
  | nil => rfl
  | cons pair rest ih => exact (ih (add graph pair)).trans (same graph pair)

theorem draw_nodes (narration : Narration) (groups : List (List NodeRef)) (attrs : Attrs) :
    (narration.draw groups attrs).graph.nodes = narration.graph.nodes :=
  addEdges_nodes _ (fun _ _ => (addEdge_same ..).1) _ _

theorem chain_mirrors {narration : Narration} (mirrors : Mirrors narration.graph.nodes narration.roster.members)
    (names : List String) (groups : List (List NodeRef)) (attrs : Attrs) :
    Mirrors ((narration.mentionAll names).draw groups attrs).graph.nodes
      ((narration.mentionAll names).draw groups attrs).roster.members := by
  rw [draw_nodes]
  exact mentionAll_mirrors mirrors names

theorem tell_copied {narration after : Narration} {before : List Placed} {placed : Placed}
    (tallied : Tallied narration before) (copied : Copied narration) (graph : placed.statement.ofGraph = true)
    (sparing : placed.statement.Sparing) (told : narration.tell placed = .ok after) : Copied after := by
  have merges : ∀ attrs, placed.statement = .attrStatement "node" attrs → ∀ defaults : Attrs,
      defaults.Unreserved → (defaults.merge attrs).Unreserved := by
    intro attrs shape defaults free
    rw [shape] at sparing
    exact free.merge (sparing rfl)
  have free : DefaultsKeep Table.Unreserved narration.nesting.frames := copied.free
  refine ⟨?_, tell_defaultsKeep unreserved_carried tallied.held tallied.plain graph merges free told⟩
  cases tell_goes tallied.held tallied.plain graph told with
  | continues place endpoints operators attrs top outer frames some_ =>
    exact chain_mirrors (show Mirrors (narration.left top outer).graph.nodes _ from copied.mirrors) _ _ _
  | joins place endpoints operators attrs body => exact chain_mirrors copied.mirrors _ _ _
  | states place node attrs own after body readable told =>
    have unreserved := ownAttrs_unreserved readable sparing
    refine declared_mirrors tallied.held copied.mirrors ?_ told
    unfold stated
    dsimp only
    split
    · exact (free.nodeAttrs unreserved_carried).merge unreserved
    · exact unreserved
  | _ => exact copied.mirrors

-- A site refuses a statement for what the statement is, and never for a node.
theorem fault?_never_lacks (site : Site) (placed : Placed) (id : String) :
    site.fault? placed ≠ some (.noPendingNode id) := by
  intro fault
  cases Site.fault?_line fault

-- A node that the roster knows is held, so that no change ever lacks its node.
theorem tell_never_lacks {narration : Narration} (held : Held narration) {placed : Placed}
    (graph : placed.statement.ofGraph = true) (id : String) : narration.tell placed ≠ .error (.noPendingNode id) := by
  by_cases sayable : placed.statement.Sayable
  · cases fault : narration.site.fault? placed with
    | none =>
      obtain ⟨next, told, -⟩ := tell_accepted held graph sayable fault
      intro failed
      cases told.symm.trans failed
    | some failure =>
      rw [tell_refused held graph sayable.hasEnd fault]
      rintro ⟨⟩
      exact fault?_never_lacks _ _ id fault
  · obtain ⟨place, statement⟩ := placed
    cases statement with
    | nodeStatement node attrs =>
      simp only [tell, requireBody_eq]
      cases narration.outline with
      | nil => rintro ⟨⟩
      | cons top outer =>
        unfold nodeStatement
        cases readable : ownAttrs attrs with
        | ok own => exact absurd ⟨own, readable⟩ sayable
        | error failure =>
          rintro ⟨⟩
          cases ownAttrs_error readable
    | edgeStatement endpoints operators attrs =>
      have none : endpoints = [] := Classical.not_not.1 sayable
      subst none
      simp only [tell, requireBody_eq]
      cases narration.outline <;> rintro ⟨⟩
    | _ => exact absurd trivial sayable

theorem ofDocument_nodes {statements : List Placed} {batching : Batching}
    (graph : ∀ placed ∈ statements, placed.statement.ofGraph = true)
    (sparing : ∀ placed ∈ statements, placed.statement.Sparing) :
    (∀ before rest narration, statements = before ++ rest →
      (opening ⟨.dot, statements⟩ batching).tellAll before = .ok narration →
      narration.graph.nodes.keys = narration.roster.members.keys) ∧
    (∀ id, ofDocument ⟨.dot, statements⟩ batching ≠ .error (.noPendingNode id)) ∧
    ∀ narration, ofDocument ⟨.dot, statements⟩ batching = .ok narration →
      nodesOf narration.events = narration.roster.members.values.map Member.node ∧
      (nodesOf narration.events).map Node.id = (refsOf statements).eraseDups ∧
      (∀ earlier node later, narration.events = earlier ++ .addNode node :: later → edgesOf earlier = []) ∧
      ∀ id change, .updateNode id change ∉ narration.events := by
  have step : ∀ placed ∈ statements, ∀ before one other, Tallied one before → Copied one →
      one.tell placed = .ok other → Copied other := fun placed member before one other tallied copied told =>
    tell_copied tallied copied (graph placed member) (sparing placed member) told
  have held : ∀ before rest narration, statements = before ++ rest →
      (opening ⟨.dot, statements⟩ batching).tellAll before = .ok narration → Held narration := by
    intro before rest narration parts told
    exact tellAll_preserves Held (fun placed member one other held one_ =>
      (tell_held held (graph placed (parts ▸ List.mem_append_left _ member)) one_).held) (opening_held _ batching) told
  refine ⟨?_, ?_, ?_⟩
  · intro before rest narration parts told
    exact (held before rest narration parts told).keys
  · intro id failed
    unfold ofDocument at failed
    split at failed
    · rename_i failure run
      obtain ⟨before, placed, rest, middle, parts, told, refused⟩ := tellAll_error run
      cases failed
      have member : placed ∈ statements := by
        rw [show statements = before ++ placed :: rest from parts]
        simp
      exact tell_never_lacks (held before _ middle parts told) (graph placed member) id refused
    · rename_i last run
      unfold finish Nesting.ensureClosed at failed
      cases frames : last.nesting.frames <;> simp [frames] at failed
  · intro narration told
    obtain ⟨last, tallied, copied, rfl⟩ := ofDocument_reaches graph step
      ⟨rfl, fun frame member => nomatch member⟩ told
    have values : last.graph.nodes.values = last.roster.members.values.map Member.node := copied.mirrors.values
    have ids : last.graph.nodes.values.map Node.id = last.graph.nodes.keys := Table.map_values tallied.held.own
    dsimp only
    refine ⟨?_, ?_, ?_, ?_⟩
    · rw [nodesOf_account, values]
    · rw [nodesOf_account, ids, tallied.held.keys, tallied.keys]
    · exact fun earlier node later parts => account_hoisted _ _ _ parts
    · exact account_updates _ _ _

-- A node that an edge mentions first, and that a subgraph restates.
theorem ofDocument_nodes_restated :
    let statements : List Placed :=
      [⟨⟨1, 1⟩, .graphOpen true false none⟩,
       ⟨⟨2, 1⟩, .attrStatement "node" (Table.ofList [("color", "red")])⟩,
       ⟨⟨3, 1⟩, .edgeStatement [[⟨"b", none⟩], [⟨"a", none⟩]] ["->"] Table.empty⟩,
       ⟨⟨4, 1⟩, .subgraphOpen (some "inner")⟩,
       ⟨⟨5, 1⟩, .nodeStatement ⟨"a", none⟩ (Table.ofList [("type", "box"), ("label", "A")])⟩,
       ⟨⟨6, 1⟩, .scopeClose [[⟨"c", none⟩]] ["->"] Table.empty⟩,
       ⟨⟨7, 1⟩, .scopeClose [] [] Table.empty⟩]
    (∀ placed ∈ statements, placed.statement.ofGraph = true) ∧ (∀ placed ∈ statements, placed.statement.Sparing) ∧
    ∃ narration, ofDocument ⟨.dot, statements⟩ .diagram = .ok narration ∧
      (nodesOf narration.events).map Node.id = ["b", "a", "c"] ∧
      (nodesOf narration.events).map (fun node => (node.kind, node.label)) =
        [("generic", "b"), ("box", "A"), ("generic", "c")] := by
  intro statements
  have graph : ∀ placed ∈ statements, placed.statement.ofGraph = true := by decide
  have sparing : ∀ placed ∈ statements, placed.statement.Sparing := by
    simp only [statements, List.mem_cons, List.not_mem_nil, or_false, forall_eq_or_imp, forall_eq]
    have own : "kind" ∉ (Table.ofList [("type", "box"), ("label", "A")] : Attrs).keys := by decide
    exact ⟨trivial, fun _ => ⟨by decide, by decide⟩, trivial, trivial, own, trivial, trivial⟩
  have fields : (ofDocument ⟨.dot, statements⟩ .diagram).toOption.bind (fun narration =>
      some (narration.roster.members.values.map fun member => (member.node.kind, member.node.label))) =
        some [("generic", "b"), ("box", "A"), ("generic", "c")] := by decide +kernel
  obtain ⟨narration, told, seen⟩ := ok_of_seen fields
  obtain ⟨copies, ids, -, -⟩ := (ofDocument_nodes graph sparing).2.2 narration told
  refine ⟨graph, sparing, narration, told, ?_, ?_⟩
  · rw [ids]
    decide
  · rw [copies, List.map_map]
    exact Option.some.inj seen

end Narration

-- Every name in a statement, whether or not it is looked at.
def Statement.names : Statement → List String
  | .nodeStatement node _ => [node.name]
  | .edgeStatement endpoints _ _ => endpoints.flatten.map NodeRef.name
  | .scopeClose endpoints _ _ => endpoints.flatten.map NodeRef.name
  | _ => []

-- Ends behind a brace that are joined to nothing make no nodes.
theorem Narration.ofDocument_unjoined :
    let statements : List Placed :=
      [⟨⟨1, 1⟩, .graphOpen true false none⟩, ⟨⟨2, 1⟩, .subgraphOpen none⟩,
       ⟨⟨3, 1⟩, .scopeClose [[⟨"x", none⟩]] [] Table.empty⟩, ⟨⟨4, 1⟩, .scopeClose [] [] Table.empty⟩]
    (∀ placed ∈ statements, placed.statement.ofGraph = true) ∧ (∀ placed ∈ statements, placed.statement.Sparing) ∧
    ∃ narration, ofDocument ⟨.dot, statements⟩ .diagram = .ok narration ∧
      (nodesOf narration.events).map Node.id ≠ (statements.flatMap (·.statement.names)).eraseDups := by
  refine ⟨by decide, ?_, _, rfl, by decide⟩
  simp [Statement.Sparing]

end DiagramStream
