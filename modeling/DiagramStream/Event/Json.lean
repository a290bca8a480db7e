import DiagramStream.Event
import DiagramStream.Json.Basic

/-!
Events as JSON objects. The member `type` tells them apart.
-/

namespace DiagramStream
open Json

def Attrs.toJson (attrs : Attrs) : Json := .obj (attrs.entries.map fun entry => (entry.1, .str entry.2))

def Event.tag : Event → String
  | .setLayout .. => "set_layout"
  | .batchStart => "batch_start"
  | .batchEnd => "batch_end"
  | .addNode .. => "add_node"
  | .updateNode .. => "update_node"
  | .addEdge .. => "add_edge"

def Event.tags : List String :=
  ["set_layout", "batch_start", "batch_end", "add_node", "update_node", "add_edge"]

def Node.members (node : Node) : List (String × Json) :=
  [("id", .str node.id), ("kind", .str node.kind), ("label", .str node.label), ("attrs", node.attrs.toJson)]

def Event.members : Event → List (String × Json)
  | .batchStart => []
  | .batchEnd => []
  | .setLayout layout direction attrs =>
    [("layout", .str layout.name), ("direction", .str direction.name), ("attrs", attrs.toJson)]
  | .addNode node => node.members
  | .updateNode id change => [("id", .str id), ("attrs", change.toJson)]
  | .addEdge edge =>
    [("id", .str edge.id), ("source", .str edge.source), ("target", .str edge.target),
     ("sequence", intOrNull edge.sequence), ("label", strOrNull edge.label), ("attrs", edge.attrs.toJson)]

def Event.toJson (event : Event) : Json := .obj (("type", .str event.tag) :: event.members)

end DiagramStream
