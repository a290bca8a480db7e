import DiagramStream.Narration
import DiagramStream.Arrow
import DiagramStream.Text.Digit

/-!
The statements of graphs. Nodes and edges are held back in the order of their first mention.
-/

namespace DiagramStream.Narration
open Text

def requireBody (narration : Narration) (statement : String) (place : Position) : Except Failure Unit :=
  if narration.nesting.depth = 0 then .error (.outsideGraph statement place) else .ok ()

def hold (narration : Narration) (node : Node) : Narration :=
  { narration with graph := { narration.graph with nodes := narration.graph.nodes.set node.id node } }

def addMember (narration : Narration) (id : String) : Narration :=
  { narration with nesting := narration.nesting.addMember id }

-- A node that an edge refers to.
def graphNode (narration : Narration) (name : String) : String × Narration :=
  let said := narration.roster.mention name narration.nesting.nodeAttrs
  let narration := { narration with roster := said.roster }
  let narration := match said.created with
    | none => narration
    | some member => narration.hold member.node
  (said.id, narration.addMember said.id)

-- One end of an edge: the node's id, and how the statement refers to it.
abbrev EdgeEnd := String × NodeRef

def edgeEnds (narration : Narration) : List NodeRef → List EdgeEnd × Narration
  | [] => ([], narration)
  | ref :: rest =>
    let (id, narration) := narration.graphNode ref.name
    let (ends, narration) := narration.edgeEnds rest
    ((id, ref) :: ends, narration)

def edgeEndGroups (narration : Narration) : List (List NodeRef) → List (List EdgeEnd) × Narration
  | [] => ([], narration)
  | group :: rest =>
    let (ends, narration) := narration.edgeEnds group
    let (groups, narration) := narration.edgeEndGroups rest
    (ends :: groups, narration)

def graphOpen (narration : Narration) (directed strict : Bool) (name : Option String) (place : Position) :
    Except Failure Narration :=
  if narration.graph.closed || narration.nesting.depth ≠ 0 then .error (.secondGraph place)
  else .ok { narration with
    graph := { narration.graph with directed := directed, strict := strict }
    nesting := (narration.nesting.enter .graph name place.line).1 }

def subgraphOpen (narration : Narration) (name : Option String) (place : Position) : Narration :=
  { narration with nesting := (narration.nesting.enter .subgraph name place.line).1 }

-- In an undirected graph the two ends of an edge may change places.
def isJoined (graph : GraphPart) (source target : String) : Bool :=
  graph.joined.contains (source, target) || (!graph.directed && graph.joined.contains (target, source))

def portAttr (key : String) (port : Option String) (attrs : Attrs) : Attrs :=
  match Roster.given port with
  | none => attrs
  | some port => attrs.set key port

-- A strict graph has at most one edge between two nodes.
def addEdge (graph : GraphPart) (label : Option String) (base : Attrs) (source target : EdgeEnd) : GraphPart :=
  if graph.strict && isJoined graph source.1 target.1 then graph
  else
    let number := graph.edgeCount + 1
    let attrs := portAttr "headport" target.2.port (portAttr "tailport" source.2.port base)
    { graph with
      edgeCount := number
      edges := graph.edges ++ [⟨"edge-" ++ toString number, source.1, target.1, none, label, attrs⟩]
      joined := if graph.strict then (source.1, target.1) :: graph.joined else graph.joined }

-- Every member of a group is joined to every member of the next.
def edgePairs : List (List EdgeEnd) → List (EdgeEnd × EdgeEnd)
  | sources :: targets :: rest =>
    (sources.flatMap fun source => targets.map fun target => (source, target)) ++ edgePairs (targets :: rest)
  | _ => []

def directionName (directed : Bool) : String := if directed then "directed" else "undirected"

-- Edges of a chain whose first ends are known. The operators are checked before any node is mentioned.
def chain (narration : Narration) (tails : List EdgeEnd) (endpoints : List (List NodeRef))
    (operators : List String) (attrs : Attrs) (line : Int) : Except Failure Narration :=
  match checkOperators operators narration.graph.directed line with
  | .error failure => .error failure
  | .ok () =>
    let (groups, narration) := narration.edgeEndGroups endpoints
    let said := narration.nesting.edgeAttrs.merge attrs
    let base := (said.erase "label").set "direction" (directionName narration.graph.directed)
    let add (graph : GraphPart) (pair : EdgeEnd × EdgeEnd) : GraphPart :=
      addEdge graph (said.get? "label") base pair.1 pair.2
    .ok { narration with graph := (edgePairs (tails :: groups)).foldl add narration.graph }

-- The nodes referred to in a closed subgraph are the first ends of a chain after its brace.
def scopeClose (narration : Narration) (endpoints : List (List NodeRef)) (operators : List String)
    (attrs : Attrs) (place : Position) : Except Failure Narration :=
  match narration.nesting.leave "\x7d" ScopeKind.isGraph place.line with
  | .error failure => .error failure
  | .ok (nesting, closed) =>
    let narration := { narration with nesting := nesting }
    if nesting.depth = 0 then
      if operators.isEmpty then .ok { narration with graph := { narration.graph with closed := true } }
      else .error (.rootEdge place)
    else if operators.isEmpty then .ok narration
    else narration.chain (closed.members.map fun id => (id, ⟨id, none⟩)) endpoints operators attrs place.line

-- A level of digits becomes a layer; one that is no number otherwise is passed over.
def layer? (level : String) : Except Failure (Option Nat) :=
  let text := level.toList
  if text.isEmpty || !text.all isDigit then .ok none
  else
    let places := (text.takeWhile isDecimal).length
    if Failure.levelLimit < places then .error (.levelTooLong places)
    else match readDecimal? text with
      | some value => .ok (some value)
      | none => .error (.levelNotDecimal level)

-- The attributes of a node statement that are not for the node's own fields.
def ownAttrs (attrs : Attrs) : Except Failure Attrs :=
  let rest := ((attrs.erase "type").erase "label").erase "level"
  match attrs.get? "level" with
  | none => .ok rest
  | some level =>
    match layer? level with
    | .error failure => .error failure
    | .ok none => .ok rest
    | .ok (some layer) => .ok (rest.set "layer" (toString layer))

-- A node takes over what its scopes give it where it is new, or where it is stated in a subgraph.
def nodeStatement (narration : Narration) (node : NodeRef) (attrs : Attrs) (line : Int) :
    Except Failure Narration :=
  match ownAttrs attrs with
  | .error failure => .error failure
  | .ok own =>
    let inherits := !narration.roster.knows node.name || 1 < narration.nesting.depth
    let all := if inherits then narration.nesting.nodeAttrs.merge own else own
    let said := narration.roster.declare ⟨node.name, attrs.get? "type", attrs.get? "label", none, all, line⟩
    let narration := { narration with roster := said.roster }
    match said.created with
    | some member => .ok ((narration.hold member.node).addMember said.id)
    | none =>
      if said.change.isEmpty then .ok (narration.addMember said.id)
      else match narration.graph.nodes.get? said.id with
        | none => .error (.noPendingNode said.id)
        | some held => .ok ((narration.hold (held.merge said.change)).addMember said.id)

def edgeStatement (narration : Narration) (endpoints : List (List NodeRef)) (operators : List String)
    (attrs : Attrs) (line : Int) : Except Failure Narration :=
  match endpoints with
  | [] => .error .noFirstEnd
  | first :: rest =>
    let (tails, narration) := narration.edgeEnds first
    narration.chain tails rest operators attrs line

def setDefaults (narration : Narration) (target : String) (attrs : Attrs) : Narration :=
  { narration with nesting := narration.nesting.update fun frame =>
      if target = "node" then { frame with nodeDefaults := frame.nodeDefaults.merge attrs }
      else if target = "edge" then { frame with edgeDefaults := frame.edgeDefaults.merge attrs }
      else { frame with attrs := frame.attrs.merge attrs } }

def assign (narration : Narration) (key value : String) : Narration :=
  { narration with nesting := narration.nesting.update fun frame =>
      { frame with attrs := frame.attrs.set key value } }

end DiagramStream.Narration
