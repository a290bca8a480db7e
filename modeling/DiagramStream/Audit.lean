import DiagramStream.Event
import DiagramStream.Json.Basic

/-!
Looking a stream of events over for what a consumer could stumble on, and for what may not be meant.
-/

namespace DiagramStream

inductive Severity where
  | error
  | warning
  | info
deriving DecidableEq, Repr

def Severity.name : Severity → String
  | .error => "error"
  | .warning => "warning"
  | .info => "info"

inductive Role where
  | source
  | target
deriving DecidableEq, Repr

def Role.name : Role → String
  | .source => "source"
  | .target => "target"

-- An `index` is the place of the offending event.
inductive Finding where
  | emptyStream
  | nestedStart (index : Nat)
  | strayEnd (index : Nat)
  | lateLayout (index : Nat)
  | nodeTwice (index : Nat) (id : String)
  | unknownNode (index : Nat) (id : String)
  | unknownEnd (index : Nat) (role : Role) (id edge : String)
  | selfEdge (index : Nat) (id edge : String)
  | sequenceGap (index : Nat) (number last : Int) (edge : String)
  | openBatch
  | orphans (ids : List String)
deriving DecidableEq

namespace Finding

def severity : Finding → Severity
  | .emptyStream => .info
  | .selfEdge .. => .info
  | .orphans _ => .warning
  | _ => .error

def message : Finding → String
  | .emptyStream => "Event stream is empty"
  | .nestedStart _ => "BatchStart inside an open batch"
  | .strayEnd _ => "BatchEnd without BatchStart"
  | .lateLayout _ => "SetLayout after node or edge events"
  | .nodeTwice _ id => "Node added twice: " ++ id
  | .unknownNode _ id => "Update references non-existent node: " ++ id
  | .unknownEnd _ role id _ => "Edge references non-existent " ++ role.name ++ " node: " ++ id
  | .selfEdge .. => "Self-referencing edge (node points to itself)"
  | .sequenceGap _ number last _ => "Sequence number " ++ toString number ++ " follows " ++ toString last
  | .openBatch => "Stream ends inside an open batch"
  | .orphans ids => "Orphan nodes (no connections): " ++ ", ".intercalate ids

def index? : Finding → Option Nat
  | .nestedStart index => some index
  | .strayEnd index => some index
  | .lateLayout index => some index
  | .nodeTwice index _ => some index
  | .unknownNode index _ => some index
  | .unknownEnd index .. => some index
  | .selfEdge index .. => some index
  | .sequenceGap index .. => some index
  | _ => none

def node? : Finding → Option String
  | .nodeTwice _ id => some id
  | .unknownNode _ id => some id
  | .selfEdge _ id _ => some id
  | _ => none

def edge? : Finding → Option String
  | .unknownEnd _ _ _ edge => some edge
  | .selfEdge _ _ edge => some edge
  | .sequenceGap _ _ _ edge => some edge
  | _ => none

end Finding

-- What is known of the stream so far. `nodes` are the ids in the order of their first telling.
structure Audit where
  nodes : List String
  connected : List String
  batchOpen : Bool
  told : Bool
  lastSequence : Int
  findings : List Finding

namespace Audit

def start : Audit := ⟨[], [], false, false, 0, []⟩

def note (audit : Audit) (finding : Finding) : Audit :=
  { audit with findings := audit.findings ++ [finding] }

def noteIf (audit : Audit) (holds : Bool) (finding : Finding) : Audit :=
  if holds then audit.note finding else audit

def addNode (audit : Audit) (index : Nat) (id : String) : Audit :=
  let audit := { audit with told := true }
  if audit.nodes.contains id then audit.note (.nodeTwice index id)
  else { audit with nodes := audit.nodes ++ [id] }

-- Numbers are to go up by one each; the highest so far counts as the last.
def number (audit : Audit) (index : Nat) (edge : Edge) : Audit :=
  match edge.sequence with
  | none => audit
  | some number =>
    let last := audit.lastSequence
    { audit.noteIf (number ≠ last + 1) (.sequenceGap index number last edge.id) with
      lastSequence := max last number }

def addEdge (audit : Audit) (index : Nat) (edge : Edge) : Audit :=
  let audit := { audit with told := true }
  let audit := audit.noteIf (!audit.nodes.contains edge.source) (.unknownEnd index .source edge.source edge.id)
  let audit := audit.noteIf (!audit.nodes.contains edge.target) (.unknownEnd index .target edge.target edge.id)
  let audit := { audit with connected := audit.connected ++ [edge.source, edge.target] }
  let audit := audit.noteIf (edge.source = edge.target) (.selfEdge index edge.source edge.id)
  audit.number index edge

def look (audit : Audit) (index : Nat) : Event → Audit
  | .batchStart => { audit.noteIf audit.batchOpen (.nestedStart index) with batchOpen := true }
  | .batchEnd => { audit.noteIf (!audit.batchOpen) (.strayEnd index) with batchOpen := false }
  | .setLayout .. => audit.noteIf audit.told (.lateLayout index)
  | .addNode node => audit.addNode index node.id
  | .updateNode id _ =>
    let audit := { audit with told := true }
    audit.noteIf (!audit.nodes.contains id) (.unknownNode index id)
  | .addEdge edge => audit.addEdge index edge

def lookAll (audit : Audit) (index : Nat) : List Event → Audit
  | [] => audit
  | event :: rest => (audit.look index event).lookAll (index + 1) rest

def orphans (audit : Audit) : List String := audit.nodes.filter fun id => !audit.connected.contains id

def finish (audit : Audit) : List Finding :=
  let audit := audit.noteIf audit.batchOpen .openBatch
  (audit.noteIf (!audit.orphans.isEmpty) (.orphans audit.orphans)).findings

-- Everything there is to say about a stream, in its order.
def ofEvents (events : List Event) : List Finding :=
  match events with
  | [] => [.emptyStream]
  | events => (start.lookAll 0 events).finish

def count (severity : Severity) (findings : List Finding) : Nat :=
  (findings.filter (·.severity = severity)).length

def isValid (findings : List Finding) : Bool := count .error findings = 0

end Audit

open Json

def Finding.toJson (finding : Finding) : Json :=
  let named (key : String) (id : Option String) : List (String × Json) :=
    ((id.filter (· ≠ "")).map fun id => (key, .str id)).toList
  .obj ([("type", .str finding.severity.name), ("message", .str finding.message)]
    ++ (finding.index?.map fun index => ("index", nat index)).toList
    ++ named "node_id" finding.node? ++ named "edge_id" finding.edge?)

namespace Audit

def summary (findings : List Finding) : Json :=
  .obj [("total", nat findings.length), ("errors", nat (count .error findings)),
        ("warnings", nat (count .warning findings)), ("info", nat (count .info findings)),
        ("valid", .bool (isValid findings))]

def issues (findings : List Finding) : Json := .arr (findings.map Finding.toJson)

def report (findings : List Finding) : Json :=
  .obj [("summary", summary findings), ("issues", issues findings)]

end Audit
end DiagramStream
