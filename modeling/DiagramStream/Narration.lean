import DiagramStream.Statement
import DiagramStream.Roster
import DiagramStream.Nesting
import DiagramStream.Lifelines

/-!
Telling a document as events: the state that the statements of a document work on, one after the
other. Sequence diagrams tell their events as they go; a graph holds its nodes and edges back so that
every node is told, with all that was said of it, before the first edge.
-/

namespace DiagramStream

-- One batch around everything, or one around each outermost block of a sequence diagram.
inductive Batching where
  | diagram
  | block
deriving DecidableEq, Repr

def Batching.name : Batching → String
  | .diagram => "diagram"
  | .block => "block"

def Batching.all : List Batching := [.diagram, .block]

def Batching.ofName? (name : String) : Option Batching := Batching.all.find? (·.name = name)

-- `joined` are the pairs of nodes that a strict graph has an edge between.
structure GraphPart where
  directed : Bool
  strict : Bool
  closed : Bool
  edgeCount : Nat
  nodes : Table Node
  edges : List Edge
  joined : List (String × String)
deriving DecidableEq

structure Narration where
  format : Format
  batching : Batching
  roster : Roster
  nesting : Nesting
  lifelines : Lifelines
  events : List Event
  nextMessage : Nat
  graph : GraphPart
deriving DecidableEq

namespace Narration

def start (format : Format) (batching : Batching) : Narration :=
  ⟨format, batching, Roster.empty genericKind, Nesting.empty, Lifelines.empty, [], 1,
    ⟨true, false, false, 0, Table.empty, [], []⟩⟩

def emit (narration : Narration) (event : Event) : Narration :=
  { narration with events := narration.events ++ [event] }

@[simp] theorem events_emit (narration : Narration) (event : Event) :
    (narration.emit event).events = narration.events ++ [event] := rfl

end Narration
end DiagramStream
