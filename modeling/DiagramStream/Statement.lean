import DiagramStream.Failure
import DiagramStream.Table

/-!
Statements of the two notations, and the documents they make up. What opens and what closes a scope
are statements of their own; whether they balance is not decided here.
-/

namespace DiagramStream
open Text

structure NodeRef where
  name : String
  port : Option String
deriving DecidableEq

-- The first group is a sequence diagram's, the second a graph's. Kinds, arrows, activation marks and
-- operators are kept as they were spelled: a document may come from elsewhere than a text.
inductive Statement where
  | declaration (kind name : String) (otherName label : Option String) (attrs : Attrs)
  | message (source arrow target : String) (label mark : Option String)
  | activation (name : String) (attrs : Attrs)
  | deactivation (name : String)
  | destruction (name : String)
  | note (targets : List String) (side text : String)
  | divider (style text : String)
  | blockOpen (kind : String) (condition : Option String)
  | blockElse (condition : Option String)
  | blockEnd
  | comment (text : String)
  | graphOpen (directed strict : Bool) (name : Option String)
  | subgraphOpen (name : Option String)
  -- A closing brace may be the first end of an edge chain, of which the rest is given.
  | scopeClose (endpoints : List (List NodeRef)) (operators : List String) (attrs : Attrs)
  | nodeStatement (node : NodeRef) (attrs : Attrs)
  -- Operators join each group of ends to the next.
  | edgeStatement (endpoints : List (List NodeRef)) (operators : List String) (attrs : Attrs)
  | attrStatement (target : String) (attrs : Attrs)
  | assignment (key value : String)
  -- A statement without any meaning.
  | vacant
deriving DecidableEq

def Statement.name : Statement → String
  | .declaration .. => "Declaration"
  | .message .. => "Message"
  | .activation .. => "Activation"
  | .deactivation .. => "Deactivation"
  | .destruction .. => "Destroy"
  | .note .. => "Note"
  | .divider .. => "Divider"
  | .blockOpen .. => "BlockOpen"
  | .blockElse .. => "BlockElse"
  | .blockEnd => "BlockEnd"
  | .comment .. => "Comment"
  | .graphOpen .. => "GraphOpen"
  | .subgraphOpen .. => "SubgraphOpen"
  | .scopeClose .. => "ScopeClose"
  | .nodeStatement .. => "NodeStatement"
  | .edgeStatement .. => "EdgeStatement"
  | .attrStatement .. => "AttrStatement"
  | .assignment .. => "Assignment"
  | .vacant => "Production"

-- A statement and where it starts.
structure Placed where
  position : Position
  statement : Statement
deriving DecidableEq

structure Document where
  format : Format
  statements : List Placed
deriving DecidableEq

end DiagramStream
