import DiagramStream.Narration.Exchange
import DiagramStream.Narration.Graph
import DiagramStream.Narration.Hint

/-!
Whole documents told as events. The first fault ends the telling, and nothing is told of a document
that has one.
-/

namespace DiagramStream.Narration

-- Statements of either notation are understood in both formats.
def tell (narration : Narration) (placed : Placed) : Except Failure Narration :=
  let place := placed.position
  let inBody (proceed : Except Failure Narration) : Except Failure Narration :=
    match narration.requireBody placed.statement.name place with
    | .error failure => .error failure
    | .ok () => proceed
  match placed.statement with
  | .declaration kind name otherName label attrs =>
    .ok (narration.declaration kind name otherName label attrs place.line)
  | .message source arrow target label mark => narration.message source arrow target label mark place.line
  | .activation name attrs =>
    let (id, narration) := narration.participant name
    .ok (narration.activate id attrs)
  | .deactivation name =>
    let (id, narration) := narration.participant name
    narration.deactivate id place.line
  | .destruction name =>
    let (id, narration) := narration.participant name
    .ok (narration.destroy id)
  | .note targets side text => .ok (narration.note targets side text)
  | .divider .. => .ok narration
  | .comment .. => .ok narration
  | .blockOpen kind condition => narration.blockOpen kind condition place.line
  | .blockElse condition => narration.blockElse condition place.line
  | .blockEnd => narration.blockEnd place.line
  | .graphOpen directed strict name => narration.graphOpen directed strict name place
  | .subgraphOpen name => inBody (.ok (narration.subgraphOpen name place))
  | .scopeClose endpoints operators attrs => narration.scopeClose endpoints operators attrs place
  | .nodeStatement node attrs => inBody (narration.nodeStatement node attrs place.line)
  | .edgeStatement endpoints operators attrs =>
    inBody (narration.edgeStatement endpoints operators attrs place.line)
  | .attrStatement target attrs => inBody (.ok (narration.setDefaults target attrs))
  | .assignment key value => inBody (.ok (narration.assign key value))
  | .vacant => .error (.unsupported place)

def tellAll (narration : Narration) : List Placed → Except Failure Narration
  | [] => .ok narration
  | placed :: rest =>
    match narration.tell placed with
    | .error failure => .error failure
    | .ok narration => narration.tellAll rest

-- A graph is always one batch.
def batchingFor (format : Format) (batching : Batching) : Batching :=
  match format with
  | .sequence => batching
  | .dot => .diagram

def layoutHint (document : Document) : Option Event :=
  match document.format with
  | .sequence => some (.setLayout .sequential .leftToRight Table.empty)
  | .dot => Hint.ofStatements document.statements

-- What is told before the first statement.
def opening (document : Document) (batching : Batching) : Narration :=
  let batching := batchingFor document.format batching
  let start := Narration.start document.format batching
  { start with events :=
      (if batching = .diagram then [.batchStart] else []) ++ (layoutHint document).toList }

-- What a graph held back.
def heldBack (narration : Narration) : List Event :=
  match narration.format with
  | .sequence => []
  | .dot => narration.graph.nodes.values.map .addNode ++ narration.graph.edges.map .addEdge

def finish (narration : Narration) : Except Failure Narration :=
  match narration.nesting.ensureClosed with
  | .error failure => .error failure
  | .ok () =>
    .ok { narration with events := narration.events ++ narration.heldBack
      ++ (if narration.batching = .diagram then [.batchEnd] else []) }

def ofDocument (document : Document) (batching : Batching) : Except Failure Narration :=
  match (opening document batching).tellAll document.statements with
  | .error failure => .error failure
  | .ok narration => narration.finish

end DiagramStream.Narration
