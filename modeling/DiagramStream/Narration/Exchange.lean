import DiagramStream.Narration
import DiagramStream.Arrow

/-!
The statements of sequence diagrams. Messages are numbered through the whole diagram, whatever blocks
they stand in.
-/

namespace DiagramStream.Narration

-- A participant is told with its place in the order of appearance.
def introduction (member : Member) : Event :=
  .addNode { member.node with attrs := member.node.attrs.set "order" (toString member.order) }

-- A name that a statement uses: its id, after telling of a participant that is new.
def participant (narration : Narration) (name : String) : String × Narration :=
  let said := narration.roster.mention name Table.empty
  let narration := { narration with roster := said.roster }
  match said.created with
  | none => (said.id, narration)
  | some member => (said.id, narration.emit (introduction member))

def participants (narration : Narration) : List String → List String × Narration
  | [] => ([], narration)
  | name :: rest =>
    let (id, narration) := narration.participant name
    let (ids, narration) := narration.participants rest
    (id :: ids, narration)

-- What a message carries of the branch it stands in.
def blockAttrs (nesting : Nesting) : List (String × String) :=
  match nesting.innermost? with
  | none => []
  | some frame =>
    if frame.kind.isBlock then
      [("block", frame.kind.name), ("block_id", toString frame.block), ("branch", toString frame.branch),
       ("depth", toString nesting.depth)]
        ++ ((Roster.given frame.label).map fun label => ("condition", label)).toList
    else []

def declaration (narration : Narration) (kind name : String) (otherName label : Option String)
    (attrs : Attrs) (line : Int) : Narration :=
  let attrs := match Roster.given otherName with
    | none => attrs
    | some other => attrs.set "alias" other
  let said := narration.roster.declare ⟨name, some kind, label, otherName, attrs, line⟩
  let narration := { narration with roster := said.roster }
  match said.created with
  | some member => narration.emit (introduction member)
  | none => if said.change.isEmpty then narration else narration.emit (.updateNode said.id said.change)

def activate (narration : Narration) (id : String) (attrs : Attrs) : Narration :=
  let (lifelines, change) := narration.lifelines.activate id attrs
  { narration with lifelines := lifelines }.emit (.updateNode id change)

def deactivate (narration : Narration) (id : String) (line : Int) : Except Failure Narration :=
  match narration.lifelines.deactivate id line with
  | .error failure => .error failure
  | .ok (lifelines, change) => .ok ({ narration with lifelines := lifelines }.emit (.updateNode id change))

def destroy (narration : Narration) (id : String) : Narration :=
  let (lifelines, change) := narration.lifelines.destroy id
  { narration with lifelines := lifelines }.emit (.updateNode id change)

-- The mark `++` activates the node that the arrow points to, `--` deactivates the one it comes from.
def applyMark (narration : Narration) (mark : Option String) (source target : String) (line : Int) :
    Except Failure Narration :=
  if mark = some "++" then .ok (narration.activate target Table.empty)
  else if mark = some "--" then narration.deactivate source line
  else .ok narration

def send (narration : Narration) (arrow : Arrow) (spelling source target : String) (label : Option String) :
    Narration :=
  let number := narration.nextMessage
  let attrs := Table.ofList
    ([("direction", arrow.kind.name), ("arrow", spelling)] ++ blockAttrs narration.nesting)
  { narration with nextMessage := number + 1 }.emit
    (.addEdge ⟨"msg-" ++ toString number, source, target, some number, label, attrs⟩)

def message (narration : Narration) (source arrow target : String) (label mark : Option String)
    (line : Int) : Except Failure Narration :=
  match Arrow.classify arrow line with
  | .error failure => .error failure
  | .ok kind =>
    let (first, narration) := narration.participant source
    let (second, narration) := narration.participant target
    let (source, target) := if kind.reversed then (second, first) else (first, second)
    (narration.send kind arrow source target label).applyMark mark source target line

-- All participants are there before the note lands on any of them.
def note (narration : Narration) (targets : List String) (side text : String) : Narration :=
  let (ids, narration) := narration.participants targets
  ids.foldl (fun narration id =>
    narration.emit (.updateNode id (Table.ofList [("note", text), ("note_position", side)]))) narration

-- A marker belongs here where each outermost block is a batch.
def atBatchEdge (narration : Narration) : Bool :=
  narration.batching = .block && narration.nesting.depth = 0

def blockOpen (narration : Narration) (kind : String) (condition : Option String) (line : Int) :
    Except Failure Narration :=
  let narration := if narration.atBatchEdge then narration.emit .batchStart else narration
  match ScopeKind.ofName? kind with
  | none => .error (.unknownScopeKind kind)
  | some kind => .ok { narration with nesting := (narration.nesting.enter kind condition line).1 }

def blockElse (narration : Narration) (condition : Option String) (line : Int) : Except Failure Narration :=
  match narration.nesting.branch condition ScopeKind.isBranching line with
  | .error failure => .error failure
  | .ok (nesting, _) => .ok { narration with nesting := nesting }

def blockEnd (narration : Narration) (line : Int) : Except Failure Narration :=
  match narration.nesting.leave "end" ScopeKind.isBlock line with
  | .error failure => .error failure
  | .ok (nesting, _) =>
    let narration := { narration with nesting := nesting }
    .ok (if narration.atBatchEdge then narration.emit .batchEnd else narration)

end DiagramStream.Narration
