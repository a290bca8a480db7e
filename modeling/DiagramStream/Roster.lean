import DiagramStream.Event

/-!
The roster of a diagram: which nodes there are and by which names they go. A node's id is the name it
was first seen under. A name that is only mentioned gets a generic node, which a later declaration
makes explicit; a declaration may bind a second name.
-/

namespace DiagramStream

-- `order` counts the members of the roster before this one.
structure Member where
  node : Node
  explicit : Bool
  order : Nat
deriving DecidableEq

-- A declaration that changed the kind of a declared node. It stands: the later one wins.
structure Conflict where
  name : String
  id : String
  before : String
  after : String
  line : Int
deriving DecidableEq

-- What is worth telling about a change to the roster.
inductive Notice where
  | rebound (name before after : String)
  | redeclared (conflict : Conflict)
deriving DecidableEq

structure Roster where
  defaultKind : String
  names : Table String
  members : Table Member
  notices : List Notice
deriving DecidableEq

namespace Roster

def empty (defaultKind : String) : Roster := ⟨defaultKind, Table.empty, Table.empty, []⟩

def size (roster : Roster) : Nat := roster.members.size

def member? (roster : Roster) (id : String) : Option Member := roster.members.get? id

def id? (roster : Roster) (name : String) : Option String := roster.names.get? name

def knows (roster : Roster) (name : String) : Bool := roster.names.contains name

-- The member that a name stands for.
def find? (roster : Roster) (name : String) : Option Member := roster.id? name >>= roster.member?

-- In the order in which they were first bound.
def namesOf (roster : Roster) (id : String) : List String :=
  (roster.names.entries.filter (·.2 = id)).map Prod.fst

def conflicts (roster : Roster) : List Conflict :=
  roster.notices.filterMap fun
    | .redeclared conflict => some conflict
    | .rebound .. => none

-- An empty text counts as none given.
def given (text : Option String) : Option String := text.filter (· ≠ "")

def enroll (roster : Roster) (name kind : String) (label : Option String) (attrs : Attrs)
    (explicit : Bool) : Member × Roster :=
  let member : Member := ⟨⟨name, kind, (given label).getD name, attrs⟩, explicit, roster.size⟩
  (member, { roster with names := roster.names.set name name, members := roster.members.set name member })

-- Binds a name to a node, with a notice when it stood for another.
def bind (roster : Roster) (name id : String) : Roster :=
  let notices := match roster.id? name with
    | none => roster.notices
    | some before => if before = id then roster.notices else roster.notices ++ [.rebound name before id]
  { roster with names := roster.names.set name id, notices := notices }

def bindGiven (roster : Roster) (name : Option String) (id : String) : Roster :=
  match given name with
  | none => roster
  | some name => roster.bind name id

-- `created` holds the member if the mention was its first.
structure Mention where
  id : String
  created : Option Member
  roster : Roster

-- A name that is used. The attributes are for a node that has to be created.
def mention (roster : Roster) (name : String) (attrs : Attrs) : Mention :=
  match roster.find? name with
  | some member => ⟨member.node.id, none, roster⟩
  | none =>
    let (member, roster) := roster.enroll name roster.defaultKind none attrs false
    ⟨name, some member, roster⟩

-- What a declaration says of a node.
structure Declaration where
  name : String
  kind : Option String
  label : Option String
  otherName : Option String
  attrs : Attrs
  line : Int

-- `change` holds what became different in a node that was there.
structure Declared where
  id : String
  created : Option Member
  change : Attrs
  roster : Roster

-- The node that a declaration is about. Its second name leads only to a node that nobody declared.
def subject? (roster : Roster) (said : Declaration) : Option Member :=
  match roster.id? said.name with
  | some id => roster.member? id
  | none => ((given said.otherName).bind roster.find?).filter fun member => !member.explicit

-- A node under revision, with what has been changed of it.
structure Revision where
  node : Node
  change : Attrs

def Revision.kind (revision : Revision) (kind : Option String) : Revision :=
  match given kind with
  | none => revision
  | some kind =>
    if kind = revision.node.kind then revision
    else ⟨{ revision.node with kind := kind }, revision.change.set "kind" kind⟩

def Revision.label (revision : Revision) (label : Option String) : Revision :=
  match given label with
  | none => revision
  | some label =>
    if label = revision.node.label then revision
    else ⟨{ revision.node with label := label }, revision.change.set "label" label⟩

def Revision.attr (revision : Revision) (entry : String × String) : Revision :=
  if revision.node.attrs.get? entry.1 = some entry.2 then revision
  else ⟨{ revision.node with attrs := revision.node.attrs.set entry.1 entry.2 },
    revision.change.set entry.1 entry.2⟩

def Revision.attrs (revision : Revision) (attrs : Attrs) : Revision :=
  attrs.entries.foldl Revision.attr revision

-- Kind first, then label, then attributes; only what differs is changed.
def revise (node : Node) (said : Declaration) : Revision :=
  (((⟨node, Table.empty⟩ : Revision).kind said.kind).label said.label).attrs said.attrs

-- A declared kind gives way to a different one, but not silently.
def conflict? (member : Member) (said : Declaration) : Option Conflict :=
  match given said.kind with
  | none => none
  | some kind =>
    if member.explicit && kind ≠ member.node.kind then
      some ⟨said.name, member.node.id, member.node.kind, kind, said.line⟩
    else none

def declare (roster : Roster) (said : Declaration) : Declared :=
  match roster.subject? said with
  | none =>
    let (member, roster) :=
      roster.enroll said.name ((given said.kind).getD roster.defaultKind) said.label said.attrs true
    ⟨said.name, some member, Table.empty, roster.bindGiven said.otherName said.name⟩
  | some member =>
    let id := member.node.id
    let revision := revise member.node said
    let roster := { roster with
      members := roster.members.set id { member with node := revision.node, explicit := true }
      notices := roster.notices ++ ((conflict? member said).map Notice.redeclared).toList }
    ⟨id, none, revision.change, (roster.bind said.name id).bindGiven said.otherName id⟩

end Roster
end DiagramStream
