import DiagramStream.Failure
import DiagramStream.Table

/-!
The scopes that stand open while a diagram is read. A new scope starts with copies of the defaults
and graph attributes of the one around it, so that only the innermost needs to be asked; the one
around it cannot change before the inner one is closed.
-/

namespace DiagramStream

-- `parent` counts from the outermost scope. All branches of a block share its number and differ in
-- `branch`. `members` are the nodes that were referred to inside.
structure Frame where
  kind : ScopeKind
  label : Option String
  parent : Option Nat
  block : Nat
  branch : Nat
  line : Int
  nodeDefaults : Attrs
  edgeDefaults : Attrs
  attrs : Attrs
  members : List String
deriving DecidableEq

def Frame.addMember (frame : Frame) (id : String) : Frame :=
  if frame.members.contains id then frame else { frame with members := frame.members ++ [id] }

def Frame.addMembers (frame : Frame) (ids : List String) : Frame := ids.foldl Frame.addMember frame

-- The innermost frame comes first.
structure Nesting where
  frames : List Frame
  nextBlock : Nat
deriving DecidableEq

namespace Nesting

def empty : Nesting := ⟨[], 1⟩

def depth (nesting : Nesting) : Nat := nesting.frames.length

def innermost? (nesting : Nesting) : Option Frame := nesting.frames.head?

def enter (nesting : Nesting) (kind : ScopeKind) (label : Option String) (line : Int) : Nesting × Frame :=
  let frame : Frame := match nesting.frames with
    | [] => ⟨kind, label, none, nesting.nextBlock, 0, line, Table.empty, Table.empty, Table.empty, []⟩
    | outer :: _ =>
      ⟨kind, label, some (nesting.depth - 1), nesting.nextBlock, 0, line, outer.nodeDefaults,
        outer.edgeDefaults, outer.attrs, []⟩
  (⟨frame :: nesting.frames, nesting.nextBlock + 1⟩, frame)

-- The innermost frame and those around it, if the closer may close it.
def split (nesting : Nesting) (closer : String) (accepts : ScopeKind → Bool) (line : Int) :
    Except Failure (Frame × List Frame) :=
  match nesting.frames with
  | [] => .error (.nothingToClose closer line)
  | top :: outer =>
    if accepts top.kind then .ok (top, outer) else .error (.wrongCloser closer line top.kind top.line)

def carry (ids : List String) : List Frame → List Frame
  | [] => []
  | frame :: rest => frame.addMembers ids :: rest

-- The members of the closed scope carry over to the one around it.
def leave (nesting : Nesting) (closer : String) (accepts : ScopeKind → Bool) (line : Int) :
    Except Failure (Nesting × Frame) :=
  match nesting.split closer accepts line with
  | .error failure => .error failure
  | .ok (closed, outer) => .ok ({ nesting with frames := carry closed.members outer }, closed)

-- The next branch takes the place of the innermost one.
def branch (nesting : Nesting) (condition : Option String) (accepts : ScopeKind → Bool) (line : Int) :
    Except Failure (Nesting × Frame) :=
  match nesting.split "else" accepts line with
  | .error failure => .error failure
  | .ok (closed, outer) =>
    let frame := { closed with label := condition, branch := closed.branch + 1, line := line, members := [] }
    .ok ({ nesting with frames := frame :: outer }, frame)

-- Changes the innermost frame, if there is one.
def update (nesting : Nesting) (change : Frame → Frame) : Nesting :=
  match nesting.frames with
  | [] => nesting
  | top :: outer => { nesting with frames := change top :: outer }

def addMember (nesting : Nesting) (id : String) : Nesting := nesting.update (·.addMember id)

def ensureClosed (nesting : Nesting) : Except Failure Unit :=
  match nesting.frames with
  | [] => .ok ()
  | top :: _ => .error (.neverClosed top.kind top.line)

-- The names of the open subgraphs that have one, outermost first.
def groups (nesting : Nesting) : List String :=
  nesting.frames.reverse.filterMap fun frame =>
    if frame.kind = .subgraph then frame.label.filter (· ≠ "") else none

def rank? (nesting : Nesting) : Option String := nesting.frames.findSome? fun frame => frame.attrs.get? "rank"

-- What a node takes from the scopes around it.
def nodeAttrs (nesting : Nesting) : Attrs :=
  match nesting.frames with
  | [] => Table.empty
  | top :: _ =>
    let ranked := match nesting.rank? with
      | none => top.nodeDefaults
      | some rank => top.nodeDefaults.set "rank" rank
    match nesting.groups.getLast? with
    | none => ranked
    | some group => (ranked.set "group" group).set "group_path" ("/".intercalate nesting.groups)

-- What an edge takes from the scopes around it.
def edgeAttrs (nesting : Nesting) : Attrs :=
  match nesting.frames with
  | [] => Table.empty
  | top :: _ => top.edgeDefaults

end Nesting
end DiagramStream
