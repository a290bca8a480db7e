import DiagramStream.Proofs.Graph.Edges
import DiagramStream.Proofs.Graph.Repeats

/-!
Strict graphs against those that are not. Main statement: whether a graph is strict changes neither whether it is
told, nor its roster, nor anything it tells but the edges, and the edges of the strict one are those of the other
without the ones that repeat an earlier one, numbered anew.
-/

namespace DiagramStream

-- The same statement, of a graph that is not strict.
def Statement.loosened : Statement → Statement
  | .graphOpen directed _ name => .graphOpen directed false name
  | statement => statement

def Placed.loosened (placed : Placed) : Placed := { placed with statement := placed.statement.loosened }

def Statement.opensStrict : Statement → Bool
  | .graphOpen _ strict _ => strict
  | _ => false

def isStrict (statements : List Placed) : Bool := statements.any (·.statement.opensStrict)

@[simp] theorem isStrict_concat (before : List Placed) (placed : Placed) :
    isStrict (before ++ [placed]) = (isStrict before || placed.statement.opensStrict) := by
  simp [isStrict]

namespace Narration

-- The same narration with other edges.
def traced (narration : Narration) (drawn : GraphPart) : Narration :=
  { narration with graph := { drawn with
      directed := narration.graph.directed, closed := narration.graph.closed, nodes := narration.graph.nodes } }

-- Two narrations that differ in nothing but their edges.
def Twins (strict : Bool) (narration loose : Narration) : Prop :=
  ∃ drawn, loose = narration.traced drawn ∧ narration.graph.Thins strict drawn

section
variable {strict : Bool} {narration loose : Narration}

theorem graphNode_twins (twins : Twins strict narration loose) (name : String) :
    (loose.graphNode name).1 = (narration.graphNode name).1 ∧
      Twins strict (narration.graphNode name).2 (loose.graphNode name).2 := by
  obtain ⟨drawn, rfl, thins⟩ := twins
  refine ⟨rfl, drawn, ?_⟩
  simp only [graphNode, traced]
  cases (narration.roster.mention name narration.nesting.nodeAttrs).created with
  | none => exact ⟨rfl, thins⟩
  | some member => exact ⟨rfl, thins.alter _ _⟩

theorem edgeEnds_twins (twins : Twins strict narration loose) (refs : List NodeRef) :
    (loose.edgeEnds refs).1 = (narration.edgeEnds refs).1 ∧
      Twins strict (narration.edgeEnds refs).2 (loose.edgeEnds refs).2 := by
  induction refs generalizing narration loose with
  | nil => exact ⟨rfl, twins⟩
  | cons ref rest ih =>
    obtain ⟨id, next⟩ := graphNode_twins twins ref.name
    obtain ⟨ends, last⟩ := ih next
    exact ⟨by simp only [edgeEnds, id, ends], last⟩

theorem edgeEndGroups_twins (twins : Twins strict narration loose) (groups : List (List NodeRef)) :
    (loose.edgeEndGroups groups).1 = (narration.edgeEndGroups groups).1 ∧
      Twins strict (narration.edgeEndGroups groups).2 (loose.edgeEndGroups groups).2 := by
  induction groups generalizing narration loose with
  | nil => exact ⟨rfl, twins⟩
  | cons group rest ih =>
    obtain ⟨ends, next⟩ := edgeEnds_twins twins group
    obtain ⟨groups, last⟩ := ih next
    exact ⟨by simp only [edgeEndGroups, ends, groups], last⟩

-- Edges between ends that are known, with what their chain and the scope around it say of them.
def linked (narration : Narration) (pairs : List (EdgeEnd × EdgeEnd)) (attrs : Attrs) : Narration :=
  let said := narration.nesting.edgeAttrs.merge attrs
  let base := (said.erase "label").set "direction" (directionName narration.graph.directed)
  { narration with
    graph := pairs.foldl (fun graph pair => addEdge graph (said.get? "label") base pair.1 pair.2) narration.graph }

theorem linked_same (narration : Narration) (pairs : List (EdgeEnd × EdgeEnd)) (attrs : Attrs) :
    (narration.linked pairs attrs).graph.nodes = narration.graph.nodes ∧
      (narration.linked pairs attrs).graph.directed = narration.graph.directed ∧
      (narration.linked pairs attrs).graph.closed = narration.graph.closed := addEdges_same ..

theorem linked_twins (twins : Twins strict narration loose) (pairs : List (EdgeEnd × EdgeEnd)) (attrs : Attrs) :
    Twins strict (narration.linked pairs attrs) (loose.linked pairs attrs) := by
  obtain ⟨drawn, rfl, thins⟩ := twins
  have same : narration.graph.Thins strict (narration.traced drawn).graph :=
    ⟨thins.flag, thins.free, thins.count, thins.counted, thins.joined, thins.edges⟩
  refine ⟨((narration.traced drawn).linked pairs attrs).graph, ?_, addEdges_thins same ..⟩
  obtain ⟨nodes, directed, closed⟩ := linked_same narration pairs attrs
  obtain ⟨nodes', directed', closed'⟩ := linked_same (narration.traced drawn) pairs attrs
  unfold traced
  rw [nodes.trans nodes'.symm, directed.trans directed'.symm, closed.trans closed'.symm]
  rfl

-- The one place where being strict matters.
theorem chain_twins (twins : Twins strict narration loose) (tails : List EdgeEnd) (endpoints : List (List NodeRef))
    (operators : List String) (attrs : Attrs) (line : Int) :
    Both (Twins strict) (narration.chain tails endpoints operators attrs line)
      (loose.chain tails endpoints operators attrs line) := by
  obtain ⟨groups, last⟩ := edgeEndGroups_twins twins endpoints
  have directed : loose.graph.directed = narration.graph.directed := by
    obtain ⟨drawn, rfl, -⟩ := twins
    rfl
  simp only [chain, groups, directed]
  cases checkOperators operators narration.graph.directed line with
  | error failure => exact rfl
  | ok _ =>
    generalize narration.edgeEndGroups endpoints = one at last ⊢
    generalize loose.edgeEndGroups endpoints = other at last ⊢
    exact linked_twins last ..

theorem inBody_twins (twins : Twins strict narration loose) (statement : String) (place : Text.Position)
    {one other : Except Failure Narration} (proceed : Both (Twins strict) one other) :
    Both (Twins strict)
      (match narration.requireBody statement place with
        | .error failure => .error failure
        | .ok () => one)
      (match loose.requireBody statement place with
        | .error failure => .error failure
        | .ok () => other) := by
  obtain ⟨drawn, rfl, -⟩ := twins
  rw [show (narration.traced drawn).requireBody statement place = narration.requireBody statement place from rfl]
  cases narration.requireBody statement place with
  | error failure => exact rfl
  | ok _ => exact proceed

theorem scopeClose_twins (twins : Twins strict narration loose) (endpoints : List (List NodeRef))
    (operators : List String) (attrs : Attrs) (place : Text.Position) :
    Both (Twins strict) (narration.scopeClose endpoints operators attrs place)
      (loose.scopeClose endpoints operators attrs place) := by
  obtain ⟨drawn, rfl, thins⟩ := twins
  unfold scopeClose
  rw [show (narration.traced drawn).nesting = narration.nesting from rfl]
  cases narration.nesting.leave "\x7d" ScopeKind.isGraph place.line with
  | error failure => exact rfl
  | ok left =>
    obtain ⟨nesting, closed⟩ := left
    have moved : Twins strict { narration with nesting := nesting }
        { narration.traced drawn with nesting := nesting } := ⟨drawn, rfl, thins⟩
    dsimp only
    split
    · split
      · exact ⟨drawn, rfl, thins.alter _ _⟩
      · exact rfl
    · split
      · exact moved
      · exact chain_twins moved ..

theorem declared_twins (twins : Twins strict narration loose) (said : Roster.Declared) :
    Both (Twins strict) (narration.declared said) (loose.declared said) := by
  obtain ⟨drawn, rfl, thins⟩ := twins
  unfold declared
  cases said.created with
  | some member => exact ⟨drawn, rfl, thins.alter _ _⟩
  | none =>
    cases said.change.isEmpty with
    | true => exact ⟨drawn, rfl, thins⟩
    | false =>
      simp only [traced, Bool.false_eq_true, if_false]
      cases narration.graph.nodes.get? said.id with
      | none => exact rfl
      | some before => exact ⟨drawn, rfl, thins.alter _ _⟩

theorem nodeStatement_twins (twins : Twins strict narration loose) (node : NodeRef) (attrs : Attrs) (line : Int) :
    Both (Twins strict) (narration.nodeStatement node attrs line) (loose.nodeStatement node attrs line) := by
  obtain ⟨drawn, rfl, thins⟩ := twins
  unfold nodeStatement
  cases ownAttrs attrs with
  | error failure => exact rfl
  | ok own => exact declared_twins ⟨drawn, rfl, thins⟩ _

-- Statements that draw nothing do the same on both sides.
theorem tell_twins (twins : Twins strict narration loose) {placed : Placed} (graph : placed.statement.ofGraph = true)
    (later : ∀ directed strict name, placed.statement ≠ .graphOpen directed strict name) :
    Both (Twins strict) (narration.tell placed) (loose.tell placed) := by
  have still {change : Frame → Frame} : Twins strict { narration with nesting := narration.nesting.update change }
      { loose with nesting := loose.nesting.update change } := by
    obtain ⟨drawn, rfl, thins⟩ := twins
    exact ⟨drawn, rfl, thins⟩
  obtain ⟨place, statement⟩ := placed
  cases statement with
  | graphOpen directed strict name => exact absurd rfl (later directed strict name)
  | subgraphOpen name =>
    refine inBody_twins twins _ _ ?_
    obtain ⟨drawn, rfl, thins⟩ := twins
    exact ⟨drawn, rfl, thins⟩
  | scopeClose endpoints operators attrs => exact scopeClose_twins twins ..
  | nodeStatement node attrs => exact inBody_twins twins _ _ (nodeStatement_twins twins ..)
  | edgeStatement endpoints operators attrs =>
    refine inBody_twins twins _ _ ?_
    cases endpoints with
    | nil => exact rfl
    | cons first rest =>
      obtain ⟨ends, next⟩ := edgeEnds_twins twins first
      simp only [edgeStatement, ends]
      exact chain_twins next ..
  | attrStatement target attrs => exact inBody_twins twins _ _ still
  | assignment key value => exact inBody_twins twins _ _ still
  | _ => cases graph

-- Nothing was drawn before a graph opens, so that it does not matter yet how edges are counted.
theorem graphOpen_twins (twins : Twins strict narration loose) (directed flag : Bool) (name : Option String)
    (place : Text.Position)
    (blank : narration.nesting.frames = [] → narration.graph.closed = false → loose.graph.edges = []) :
    Both (Twins flag) (narration.graphOpen directed flag name place) (loose.graphOpen directed false name place) := by
  obtain ⟨drawn, rfl, thins⟩ := twins
  unfold graphOpen
  rw [show (narration.traced drawn).graph.closed = narration.graph.closed from rfl,
    show (narration.traced drawn).nesting = narration.nesting from rfl]
  split
  · exact rfl
  · rename_i alone
    have alone : narration.graph.closed = false ∧ narration.nesting.depth = 0 := by simpa using alone
    have undrawn : drawn.edges = [] := blank (List.length_eq_zero_iff.1 alone.2) alone.1
    have none : narration.graph.edges = [] := by simpa [undrawn, renumbered] using thins.edges
    have joined : narration.graph.joined = [] := by simpa [none] using thins.joined
    refine ⟨{ drawn with strict := false }, rfl, rfl, rfl, thins.count, thins.counted, ?_, ?_⟩
    · simp [none, joined]
    · simp [none, undrawn, renumbered]

end

-- Whole graphs

theorem fine_of_told {narration after : Narration} (held : Held narration) {placed : Placed}
    (graph : placed.statement.ofGraph = true) (told : narration.tell placed = .ok after) :
    narration.site.fault? placed = none := by
  cases fault : narration.site.fault? placed with
  | none => rfl
  | some failure => cases (tell_refused held graph (sayable_of_told told).hasEnd fault).symm.trans told

structure Apart (start : Narration) (before : List Placed) (narration loose : Narration) : Prop where
  held : Held narration
  quiet : Quiet start narration
  site : narration.site = siteOf before
  twins : Twins (isStrict before) narration loose
  blank : narration.site.scopes = [] → narration.site.closed = false →
    loose.graph.edges = [] ∧ isStrict before = false

-- Whatever is accepted leaves the graph open, or over.
theorem after_begun {site : Site} {placed : Placed} (fine : site.fault? placed = none)
    (outside : (site.after placed).scopes = []) : (site.after placed).closed = true := by
  cases scopes : site.scopes with
  | nil =>
    obtain ⟨-, directed, strict, name, shape⟩ := (Site.fault?_outside scopes).1 fine
    simp [Site.after, shape] at outside
  | cons top outer => exact (Site.after_inside scopes ((Site.fault?_inside scopes).1 fine).1).2.2.2 (.inr outside)

section
variable {start narration loose : Narration} {before : List Placed} {placed : Placed}

theorem Apart.tell_twins (apart : Apart start before narration loose) (graph : placed.statement.ofGraph = true) :
    Both (Twins (isStrict (before ++ [placed]))) (narration.tell placed) (loose.tell placed.loosened) := by
  rw [isStrict_concat]
  obtain ⟨place, statement⟩ := placed
  cases statement with
  | graphOpen directed strict name =>
    have blank : narration.nesting.frames = [] → narration.graph.closed = false → loose.graph.edges = [] :=
      fun outside fresh => (apart.blank (outline_nil outside) fresh).1
    refine (graphOpen_twins apart.twins directed strict name place blank).imp ?_
    intro one other told twins
    have fine := fine_of_told apart.held graph told
    have first : isStrict before = false := by
      cases outside : narration.site.scopes with
      | nil => exact (apart.blank outside ((Site.fault?_outside outside).1 fine).1).2
      | cons top outer => exact absurd rfl (((Site.fault?_inside outside).1 fine).1 directed strict name)
    rwa [first, Bool.false_or]
  | _ =>
    rw [show Statement.opensStrict _ = false from rfl, Bool.or_false]
    exact Narration.tell_twins apart.twins graph (by simp)

theorem tell_apart (apart : Apart start before narration loose) (graph : placed.statement.ofGraph = true) :
    Both (Apart start (before ++ [placed])) (narration.tell placed) (loose.tell placed.loosened) := by
  refine (apart.tell_twins graph).imp ?_
  intro one other told twins
  have moves := tell_held apart.held graph told
  have fine := fine_of_told apart.held graph told
  refine ⟨moves.held, apart.quiet.trans moves.quiet, ?_, twins, ?_⟩
  · rw [moves.site, apart.site, siteOf_concat]
  · intro outside open_
    rw [moves.site] at outside open_
    cases (after_begun fine outside).symm.trans open_

end

end Narration

-- What is asked of the layout does not depend on it either.
theorem Hint.rootAttrs_loosened (depth : Nat) (root : Attrs) (statements : List Placed) :
    rootAttrs depth root (statements.map Placed.loosened) = rootAttrs depth root statements := by
  induction statements generalizing depth root with
  | nil => rfl
  | cons placed rest ih =>
    obtain ⟨place, statement⟩ := placed
    cases statement <;> simp [rootAttrs, Placed.loosened, Statement.loosened, ih]

def Event.isEdge : Event → Bool
  | .addEdge _ => true
  | _ => false

-- What is told beside the edges.
def unlinked (events : List Event) : List Event := events.filter fun event => !event.isEdge

theorem unlinked_account (statements : List Placed) (nodes : List Node) (edges : List Edge) :
    unlinked (account statements nodes edges) = account statements nodes [] := by
  have drawn : unlinked (edges.map .addEdge) = [] := by simp [unlinked, Event.isEdge]
  have listed : unlinked (nodes.map .addNode) = nodes.map .addNode := by
    refine List.filter_eq_self.2 ?_
    intro event member
    obtain ⟨node, -, rfl⟩ := List.mem_map.1 member
    rfl
  have asked : unlinked (Hint.ofStatements statements).toList = (Hint.ofStatements statements).toList := by
    rcases Hint.ofStatements_layout statements with asked | ⟨layout, direction, attrs, asked⟩ <;> rw [asked] <;> rfl
  unfold unlinked at drawn listed asked
  simp only [unlinked, account, List.filter_append, List.filter_cons, drawn, listed, asked, List.map_nil]
  rfl

namespace Narration

-- A graph that is told, against the same graph when it is not strict.
structure Reduces (statements : List Placed) (narration loose : Narration) : Prop where
  roster : narration.roster = loose.roster
  unlinked : unlinked narration.events = unlinked loose.events
  edges : edgesOf narration.events =
    if isStrict statements then renumbered (unrepeated (siteOf statements).directed (edgesOf loose.events))
    else edgesOf loose.events

theorem finish_graph {statements : List Placed} {batching : Batching} {narration : Narration}
    (quiet : Quiet (opening ⟨.dot, statements⟩ batching) narration) :
    narration.finish = match narration.nesting.ensureClosed with
      | .error failure => .error failure
      | .ok () => .ok { narration with
          events := account statements narration.graph.nodes.values narration.graph.edges } := by
  have format : narration.format = .dot := quiet.format
  have whole : narration.batching = .diagram := quiet.batching
  have events : narration.events = .batchStart :: (Hint.ofStatements statements).toList := quiet.events
  unfold finish
  cases narration.nesting.ensureClosed with
  | error failure => rfl
  | ok _ => simp [heldBack, account, format, whole, events]

theorem finish_apart {statements : List Placed} {batching : Batching} {narration loose : Narration}
    (apart : Apart (opening ⟨.dot, statements⟩ batching) statements narration loose) :
    Both (Reduces statements) narration.finish loose.finish := by
  have site := apart.site
  have quiet := apart.quiet
  obtain ⟨drawn, rfl, thins⟩ := apart.twins
  have quiet' : Quiet (opening ⟨.dot, statements⟩ batching) (narration.traced drawn) :=
    ⟨quiet.format, quiet.batching, quiet.events⟩
  rw [finish_graph quiet, finish_graph quiet',
    show (narration.traced drawn).nesting = narration.nesting from rfl]
  cases narration.nesting.ensureClosed with
  | error failure => exact rfl
  | ok _ =>
    refine ⟨rfl, ?_, ?_⟩
    · rw [unlinked_account, unlinked_account]
      rfl
    · have directed : narration.graph.directed = (siteOf statements).directed := congrArg Site.directed site
      rw [edgesOf_account, edgesOf_account, ← directed]
      exact thins.edges

theorem ofDocument_loosened {statements : List Placed} (batching : Batching)
    (graph : ∀ placed ∈ statements, placed.statement.ofGraph = true) :
    Both (Reduces statements) (ofDocument ⟨.dot, statements⟩ batching)
      (ofDocument ⟨.dot, statements.map Placed.loosened⟩ batching) := by
  have same : opening ⟨.dot, statements.map Placed.loosened⟩ batching = opening ⟨.dot, statements⟩ batching := by
    simp [opening, layoutHint, Hint.ofStatements, Hint.rootAttrs_loosened]
  have begins : Apart (opening ⟨.dot, statements⟩ batching) [] (opening ⟨.dot, statements⟩ batching)
      (opening ⟨.dot, statements⟩ batching) :=
    ⟨opening_held _ batching, .refl _, rfl, ⟨_, rfl, rfl, rfl, rfl, rfl, rfl, rfl⟩, fun _ _ => ⟨rfl, rfl⟩⟩
  unfold ofDocument
  rw [same]
  have both := tellAll_both (Apart (opening ⟨.dot, statements⟩ batching)) Placed.loosened begins
    fun placed member _ _ _ apart => tell_apart apart (graph placed member)
  rcases both.cases with ⟨failure, run, run'⟩ | ⟨narration, loose, run, run', apart⟩
  · simp only [run, run']
    exact rfl
  · simp only [run, run']
    exact finish_apart apart

theorem loosened_ofGraph (placed : Placed) : placed.loosened.statement.ofGraph = placed.statement.ofGraph := by
  obtain ⟨place, statement⟩ := placed
  cases statement <;> rfl

theorem ofDocument_strict {one other : List Placed} (batching : Batching)
    (graph : ∀ placed ∈ one, placed.statement.ofGraph = true)
    (alike : one.map Placed.loosened = other.map Placed.loosened) :
    (∀ failure, ofDocument ⟨.dot, one⟩ batching = .error failure ↔ ofDocument ⟨.dot, other⟩ batching = .error failure) ∧
    ((∃ narration, ofDocument ⟨.dot, one⟩ batching = .ok narration) ↔
      ∃ narration, ofDocument ⟨.dot, other⟩ batching = .ok narration) ∧
    ∀ strict loose, ofDocument ⟨.dot, one⟩ batching = .ok strict → ofDocument ⟨.dot, other⟩ batching = .ok loose →
      strict.roster = loose.roster ∧ unlinked strict.events = unlinked loose.events ∧
      (isStrict one = true → isStrict other = false →
        edgesOf strict.events = renumbered (unrepeated (siteOf one).directed (edgesOf loose.events))) := by
  have graph' : ∀ placed ∈ other, placed.statement.ofGraph = true := by
    intro placed member
    have listed : placed.loosened ∈ one.map Placed.loosened := by
      rw [alike]
      exact List.mem_map_of_mem member
    obtain ⟨twin, inside, same⟩ := List.mem_map.1 listed
    rw [← loosened_ofGraph, ← same, loosened_ofGraph]
    exact graph twin inside
  have first := ofDocument_loosened batching graph
  rw [alike] at first
  rcases first.join (ofDocument_loosened batching graph') with
    ⟨failure, refused, refused'⟩ | ⟨narration, narration', common, told, told', reduces, reduces'⟩
  · simp [refused, refused']
  · refine ⟨by simp [told, told'], by simp [told, told'], ?_⟩
    intro strict loose same same'
    cases told.symm.trans same
    cases told'.symm.trans same'
    refine ⟨reduces.roster.trans reduces'.roster.symm, reduces.unlinked.trans reduces'.unlinked.symm, ?_⟩
    intro thinned free
    rw [reduces.edges, reduces'.edges, if_pos thinned, free]
    rfl

-- Edges that repeat one the other way round, within a chain, a self-loop behind a brace and a later statement.
theorem ofDocument_strict_undirected :
    let graph (strict : Bool) : List Placed :=
      [⟨⟨1, 1⟩, .graphOpen false strict none⟩,
       ⟨⟨2, 1⟩, .edgeStatement [[⟨"a", none⟩], [⟨"b", none⟩], [⟨"a", none⟩]] ["--", "--"] Table.empty⟩,
       ⟨⟨3, 1⟩, .subgraphOpen none⟩,
       ⟨⟨4, 1⟩, .edgeStatement [[⟨"c", none⟩], [⟨"c", none⟩]] ["--"] Table.empty⟩,
       ⟨⟨5, 1⟩, .scopeClose [[⟨"c", none⟩]] ["--"] Table.empty⟩,
       ⟨⟨6, 1⟩, .edgeStatement [[⟨"b", none⟩], [⟨"c", none⟩, ⟨"a", none⟩]] ["--"] Table.empty⟩,
       ⟨⟨7, 1⟩, .scopeClose [] [] Table.empty⟩]
    (∀ placed ∈ graph true, placed.statement.ofGraph = true) ∧
    (graph true).map Placed.loosened = (graph false).map Placed.loosened ∧
    ∃ strict loose, ofDocument ⟨.dot, graph true⟩ .diagram = .ok strict ∧
      ofDocument ⟨.dot, graph false⟩ .diagram = .ok loose ∧ (edgesOf loose.events).length = 6 ∧
      (edgesOf strict.events).map (fun edge => (edge.id, edge.source, edge.target)) =
        [("edge-1", "a", "b"), ("edge-2", "c", "c"), ("edge-3", "b", "c")] := by
  intro graph
  have spoken : ∀ placed ∈ graph true, placed.statement.ofGraph = true := by decide
  have alike : (graph true).map Placed.loosened = (graph false).map Placed.loosened := rfl
  have drawn : (ofDocument ⟨.dot, graph false⟩ .diagram).toOption.bind (fun narration =>
      some (edgesOf narration.events)) = some (numbered (strokes (graph false))) := by decide +kernel
  obtain ⟨loose, told, edges⟩ := ok_of_seen drawn
  have edges := Option.some.inj edges
  obtain ⟨-, taken, same⟩ := ofDocument_strict .diagram spoken alike
  obtain ⟨strict, told'⟩ := taken.2 ⟨loose, told⟩
  obtain ⟨-, -, thinned⟩ := same strict loose told' told
  refine ⟨spoken, alike, strict, loose, told', told, ?_, ?_⟩
  · rw [edges]
    decide +kernel
  · rw [thinned rfl rfl, edges]
    decide +kernel

end Narration
end DiagramStream
