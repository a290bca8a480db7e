import DiagramStream.Diagram

/-!
A canvas: a diagram under construction with its indexes. Every event is answered by an outcome, and
one that cannot be applied changes nothing. Changes are announced at once, or together when the
outermost batch ends.
-/

namespace DiagramStream

inductive Outcome where
  | done
  | nodeExists (id : String)
  | nodeMissing (id : String)
  | edgeExists (id : String)
  | notInBatch
deriving DecidableEq

def Outcome.isDone : Outcome → Bool
  | .done => true
  | _ => false

def Outcome.status : Outcome → String
  | .done => "success"
  | .nodeExists _ => "node_exists"
  | .nodeMissing _ => "node_not_found"
  | .edgeExists _ => "edge_exists"
  | .notInBatch => "invalid"

def Outcome.message : Outcome → String
  | .done => ""
  | .nodeExists id => "Node " ++ id ++ " already exists"
  | .nodeMissing id => "Node " ++ id ++ " not found"
  | .edgeExists id => "Edge " ++ id ++ " already exists"
  | .notInBatch => "BatchEnd without BatchStart"

-- The indexes lead from ids to nodes and lines, from kinds to node ids, and from node ids to the ids
-- of the lines that touch them. `batches` counts the open batches, `unannounced` tells of a change
-- inside them, and `announcements` counts what was announced.
structure Canvas where
  diagram : Diagram
  nodes : Table Node
  lines : Table Line
  kinds : Table (List String)
  touching : Table (List String)
  batches : Nat
  unannounced : Bool
  announcements : Nat
deriving DecidableEq

namespace Canvas

def blank (name : String) (format : Option String) : Canvas :=
  ⟨Diagram.empty name format, Table.empty, Table.empty, Table.empty, Table.empty, 0, false, 0⟩

def inBatch (canvas : Canvas) : Bool := 0 < canvas.batches

-- Sets of ids; an id is in one at most once.
def addTo (index : Table (List String)) (key id : String) : Table (List String) :=
  let ids := (index.get? key).getD []
  index.set key (if ids.contains id then ids else ids ++ [id])

def takeFrom (index : Table (List String)) (key id : String) : Table (List String) :=
  match index.get? key with
  | none => index
  | some ids => index.set key (ids.filter (· ≠ id))

def node? (canvas : Canvas) (id : String) : Option Node := canvas.nodes.get? id

def line? (canvas : Canvas) (id : String) : Option Line := canvas.lines.get? id

def nodesOfKind (canvas : Canvas) (kind : String) : List Node :=
  let ids := (canvas.kinds.get? kind).getD []
  canvas.diagram.nodes.filter fun node => ids.contains node.id

def linesAt (canvas : Canvas) (id : String) : List Line :=
  let ids := (canvas.touching.get? id).getD []
  canvas.diagram.lines.filter fun line => ids.contains line.id

-- Announces a change, or remembers that there is one to announce.
def announce (canvas : Canvas) : Canvas :=
  if canvas.inBatch then { canvas with unannounced := true }
  else { canvas with unannounced := false, announcements := canvas.announcements + 1 }

def addNode (canvas : Canvas) (node : Node) : Canvas × Outcome :=
  if canvas.nodes.contains node.id then (canvas, .nodeExists node.id)
  else
    let node := { node with label := if node.label = "" then node.id else node.label }
    ({ canvas with
      diagram := { canvas.diagram with nodes := canvas.diagram.nodes ++ [node] }
      nodes := canvas.nodes.set node.id node
      kinds := addTo canvas.kinds node.kind node.id }.announce, .done)

def replace (node : Node) (nodes : List Node) : List Node :=
  nodes.map fun other => if other.id = node.id then node else other

def updateNode (canvas : Canvas) (id : String) (change : Attrs) : Canvas × Outcome :=
  match canvas.nodes.get? id with
  | none => (canvas, .nodeMissing id)
  | some before =>
    let node := before.merge change
    let kinds := if node.kind = before.kind then canvas.kinds
      else addTo (takeFrom canvas.kinds before.kind id) node.kind id
    ({ canvas with
      diagram := { canvas.diagram with nodes := replace node canvas.diagram.nodes }
      nodes := canvas.nodes.set id node
      kinds := kinds }.announce, .done)

def addEdge (canvas : Canvas) (edge : Edge) : Canvas × Outcome :=
  if canvas.lines.contains edge.id then (canvas, .edgeExists edge.id)
  else if !canvas.nodes.contains edge.source then (canvas, .nodeMissing edge.source)
  else if !canvas.nodes.contains edge.target then (canvas, .nodeMissing edge.target)
  else
    let line := Line.ofEdge edge
    ({ canvas with
      diagram := { canvas.diagram with lines := canvas.diagram.lines ++ [line] }
      lines := canvas.lines.set edge.id line
      touching := addTo (addTo canvas.touching edge.source edge.id) edge.target edge.id }.announce, .done)

def setLayout (canvas : Canvas) (layout : Layout) (direction : Direction) (attrs : Attrs) : Canvas :=
  { canvas with
    diagram := { canvas.diagram with
      layout := some layout, direction := some direction, layoutAttrs := attrs } }.announce

def endBatch (canvas : Canvas) : Canvas × Outcome :=
  match canvas.batches with
  | 0 => (canvas, .notInBatch)
  | batches + 1 =>
    let canvas := { canvas with batches := batches }
    (if batches = 0 && canvas.unannounced then canvas.announce else canvas, .done)

def apply (canvas : Canvas) : Event → Canvas × Outcome
  | .addNode node => canvas.addNode node
  | .updateNode id change => canvas.updateNode id change
  | .addEdge edge => canvas.addEdge edge
  | .setLayout layout direction attrs => (canvas.setLayout layout direction attrs, .done)
  | .batchStart => ({ canvas with batches := canvas.batches + 1 }, .done)
  | .batchEnd => canvas.endBatch

-- What cannot be applied is passed over.
def applyAll (canvas : Canvas) : List Event → Canvas × List Outcome
  | [] => (canvas, [])
  | event :: rest =>
    let (canvas, outcome) := canvas.apply event
    let (canvas, outcomes) := canvas.applyAll rest
    (canvas, outcome :: outcomes)

end Canvas

def Diagram.ofEvents (events : List Event) (name : String) (format : Option String) : Diagram :=
  ((Canvas.blank name format).applyAll events).1.diagram

end DiagramStream
