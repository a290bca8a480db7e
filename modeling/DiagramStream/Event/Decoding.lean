import DiagramStream.Event.Json
import DiagramStream.Json.Checked

/-!
Events read back from JSON values. Members that an event does not have are passed over, absent ones
take their defaults, and every fault of a list is reported at once.
-/

namespace DiagramStream
open Json

def Attrs.ofJson : Json → Checked Attrs
  | .obj members =>
    (Checked.all (members.map fun entry =>
      Checked.under (.member entry.1) (entry.2.text.map fun value => (entry.1, value)))).map Table.ofList
  | value => complain .notMapping value

namespace Event

def textOr (name default : String) (value : Json) : Checked String := defaulted name default Json.text value

def attrsOf (value : Json) : Checked Attrs := defaulted "attrs" Table.empty Attrs.ofJson value

-- Older streams call the ends of an edge `from` and `to`; those names count where the present ones
-- are absent.
def edgeEnd (name formerName : String) (value : Json) : Checked String :=
  match value.member? name, value.member? formerName with
  | none, some part => Checked.under (.member name) part.text
  | _, _ => required name Json.text value

def nodeOfJson (value : Json) : Checked Node :=
  (Checked.both (required "id" Json.text value) (Checked.both (textOr "kind" genericKind value)
    (Checked.both (textOr "label" "" value) (attrsOf value)))).map
    fun (id, kind, label, attrs) => ⟨id, kind, label, attrs⟩

def layoutOfJson (value : Json) : Checked Event :=
  (Checked.both (required "layout" (named Layout.name Layout.all) value)
    (Checked.both (defaulted "direction" .topToBottom (named Direction.name Direction.all) value)
      (attrsOf value))).map fun (layout, direction, attrs) => .setLayout layout direction attrs

def updateOfJson (value : Json) : Checked Event :=
  (Checked.both (required "id" Json.text value) (attrsOf value)).map
    fun (id, change) => .updateNode id change

def edgeOfJson (value : Json) : Checked Edge :=
  (Checked.both (required "id" Json.text value) (Checked.both (edgeEnd "source" "from" value)
    (Checked.both (edgeEnd "target" "to" value)
      (Checked.both (defaulted "sequence" none optionalInteger value)
        (Checked.both (defaulted "label" none optionalText value) (attrsOf value)))))).map
    fun (id, source, target, sequence, label, attrs) => ⟨id, source, target, sequence, label, attrs⟩

def ofTag? (tag : String) (value : Json) : Option (Checked Event) :=
  if tag = "set_layout" then some (layoutOfJson value)
  else if tag = "batch_start" then some (.ok .batchStart)
  else if tag = "batch_end" then some (.ok .batchEnd)
  else if tag = "add_node" then some ((nodeOfJson value).map .addNode)
  else if tag = "update_node" then some (updateOfJson value)
  else if tag = "add_edge" then some ((edgeOfJson value).map .addEdge)
  else none

-- Faults inside an event carry its tag after its place in the list.
def ofJson (value : Json) : Checked Event :=
  match value with
  | .obj _ =>
    match value.member? "type" with
    | none => complain (.untagged "type") value
    | some tag =>
      let unknown : Checked Event := complain (.unknownTag "type" tag.bare Event.tags) value
      match tag with
      | .str name => ((ofTag? name value).map (Checked.under (.member name))).getD unknown
      | _ => unknown
  | _ => complain .notObject value

def allOfJson : Nat → List Json → Checked (List Event)
  | _, [] => .ok []
  | index, value :: rest =>
    (Checked.both (Checked.under (.item index) (ofJson value)) (allOfJson (index + 1) rest)).map
      fun (event, events) => event :: events

def listOfJson : Json → Checked (List Event)
  | .arr values => allOfJson 0 values
  | value => complain .notArray value

end Event

-- A node on its own may carry the tag of its event and no other.
def Node.ofJson (value : Json) : Checked Node :=
  let tagged : Checked Unit :=
    match value.member? "type" with
    | none => .ok ()
    | some (.str "add_node") => .ok ()
    | some tag => Checked.under (.member "type") (complain (.otherTag "add_node") tag)
  (Checked.both tagged (Event.nodeOfJson value)).map Prod.snd

end DiagramStream
