import DiagramStream.Event.Json

/-!
Diagrams: what events add up to.
-/

namespace DiagramStream

-- An edge in place; without a label its label is empty.
structure Line where
  id : String
  source : String
  target : String
  label : String
  sequence : Option Int
  attrs : Attrs
deriving DecidableEq

structure Diagram where
  name : String
  nodes : List Node
  lines : List Line
  format : Option String
  layout : Option Layout
  direction : Option Direction
  layoutAttrs : Attrs
deriving DecidableEq

namespace Diagram
open Json

def defaultName : String := "Untitled Diagram"

def empty (name : String) (format : Option String) : Diagram := ⟨name, [], [], format, none, none, Table.empty⟩

def node? (diagram : Diagram) (id : String) : Option Node := diagram.nodes.find? (·.id = id)

def line? (diagram : Diagram) (id : String) : Option Line := diagram.lines.find? (·.id = id)

def nodesOfKind (diagram : Diagram) (kind : String) : List Node := diagram.nodes.filter (·.kind = kind)

def linesAt (diagram : Diagram) (id : String) : List Line :=
  diagram.lines.filter fun line => line.source = id || line.target = id

end Diagram

open Json

def Line.ofEdge (edge : Edge) : Line :=
  ⟨edge.id, edge.source, edge.target, edge.label.getD "", edge.sequence, edge.attrs⟩

def Node.toJson (node : Node) : Json := .obj node.members

-- Only messages have a number to show.
def Line.toJson (line : Line) : Json :=
  .obj ([("id", .str line.id), ("source", .str line.source), ("target", .str line.target),
      ("label", .str line.label), ("attrs", line.attrs.toJson)]
    ++ (line.sequence.map fun number => ("sequence", .int number)).toList)

def Diagram.members (diagram : Diagram) : List (String × Json) :=
  [("name", .str diagram.name), ("nodes", .arr (diagram.nodes.map Node.toJson)),
   ("edges", .arr (diagram.lines.map Line.toJson)),
   ("metadata", .obj [("format", strOrNull diagram.format),
     ("layout", strOrNull (diagram.layout.map Layout.name)),
     ("direction", strOrNull (diagram.direction.map Direction.name)),
     ("layout_attrs", diagram.layoutAttrs.toJson)])]

def Diagram.toJson (diagram : Diagram) : Json := .obj diagram.members

end DiagramStream
