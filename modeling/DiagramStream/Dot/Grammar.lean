import DiagramStream.Dot.Token
import DiagramStream.Scan.Report
import DiagramStream.Statement

/-!
The grammar of graph texts. A statement is in hand until the next token shows that it is over; braces
open and close statements of their own and need not balance.
-/

namespace DiagramStream.Dot
open Text Scan

-- An edge chain so far. Without a head it hangs on a closing brace. The last operator may still want
-- its target.
structure Chain where
  head : Option NodeRef
  operators : List String
  targets : List (List NodeRef)

def Chain.join (chain : Chain) (operator : String) : Chain :=
  { chain with operators := chain.operators ++ [operator] }

def Chain.reach (chain : Chain) (target : List NodeRef) : Chain :=
  { chain with targets := chain.targets ++ [target] }

def Chain.statement (chain : Chain) (attrs : Attrs) : Statement :=
  match chain.head with
  | some ref => .edgeStatement ([ref] :: chain.targets) chain.operators attrs
  | none => .scopeClose chain.targets chain.operators attrs

-- Where a node reference stands: first in its statement, as a target, or in a group that is a target.
inductive Site where
  | head
  | target (chain : Chain)
  | group (chain : Chain) (members : List NodeRef)

-- What an attribute list may belong to.
inductive Subject where
  | node (ref : NodeRef)
  | chain (chain : Chain)
  | defaults (target : String)

def Subject.statement (subject : Subject) (attrs : Attrs) : Statement :=
  match subject with
  | .node ref => .nodeStatement ref attrs
  | .chain link => link.statement attrs
  | .defaults target => .attrStatement target attrs

-- How far the statement in hand has been read.
inductive Stage where
  | start
  | strict
  | graph (strict directed : Bool)
  | graphNamed (strict directed : Bool) (name : String)
  -- No statement is in hand.
  | ready
  -- A brace that opened a scope.
  | opened (statement : Statement)
  | subgraph
  | subgraphNamed (name : String)
  | closed
  | defaults (target : String)
  -- An id that is a node's name, or the key of an assignment.
  | named (site : Site) (name : String)
  -- A colon after a node's name, or after the first half of its port.
  | colon (site : Site) (name : String) (half : Option String)
  | atPort (site : Site) (name port : String) (whole : Bool)
  | equals (key : String)
  | assigned (key value : String)
  | operator (chain : Chain)
  -- A group that is a target, before its brace.
  | group (chain : Chain)
  | groupNamed (chain : Chain)
  | member (chain : Chain) (members : List NodeRef)
  | grouped (chain : Chain)
  -- An attribute list: between attributes, after a key, after its `=`, after a value, and closed.
  | attrs (subject : Subject) (attrs : Attrs)
  | attrKey (subject : Subject) (attrs : Attrs) (key : String)
  | attrEquals (subject : Subject) (attrs : Attrs) (key : String)
  | attrValue (subject : Subject) (attrs : Attrs)
  | attrsClosed (subject : Subject) (attrs : Attrs)

def isStatementStart (kind : Kind) : Bool :=
  kind.isId || kind == .subgraph || kind == .graph || kind == .edge || kind == .node || kind == .leftBrace
    || kind == .rightBrace || kind == .semicolon

-- What may follow an id somewhere. It is looked for after every id, wherever that stands.
def afterId (kind : Kind) : Bool :=
  isStatementStart kind || kind == .operator || kind == .colon || kind == .comma || kind == .equals
    || kind == .leftBracket || kind == .rightBracket

def Stage.expects : Stage → Kind → Bool
  | .start, kind => kind == .digraph || kind == .strict || kind == .graph
  | .strict, kind => kind == .digraph || kind == .graph
  | .graph .., kind => kind.isId || kind == .leftBrace
  | .subgraph, kind => kind.isId || kind == .leftBrace
  | .group _, kind => kind.isId || kind == .leftBrace
  | .graphNamed .., kind => afterId kind
  | .subgraphNamed _, kind => afterId kind
  | .groupNamed _, kind => afterId kind
  | .named .., kind => afterId kind
  | .atPort .., kind => afterId kind
  | .assigned .., kind => afterId kind
  | .attrKey .., kind => afterId kind
  | .attrValue .., kind => afterId kind
  | .ready, kind => isStatementStart kind
  | .opened _, kind => isStatementStart kind
  | .closed, kind => isStatementStart kind || kind == .operator
  | .grouped _, kind => isStatementStart kind || kind == .operator || kind == .leftBracket
  | .member .., kind => kind.isId || kind == .rightBrace
  | .operator _, kind => kind.isId || kind == .subgraph || kind == .leftBrace
  | .defaults _, kind => kind == .leftBracket
  | .attrs .., kind => kind.isId || kind == .rightBracket
  | .attrsClosed .., kind => isStatementStart kind || kind == .leftBracket
  | .colon .., kind => kind.isId
  | .equals _, kind => kind.isId
  | .attrEquals .., kind => kind.isId

-- A complete node reference, and what may come of it at its site.
def Site.subject : Site → NodeRef → Option Subject
  | .head, ref => some (.node ref)
  | .target chain, ref => some (.chain (chain.reach [ref]))
  | .group .., _ => none

def Site.chain : Site → NodeRef → Option Chain
  | .head, ref => some ⟨some ref, [], []⟩
  | .target chain, ref => some (chain.reach [ref])
  | .group .., _ => none

-- What follows a node reference other than its port: an operator, an attribute list, or the next
-- member of a group.
def Site.follow (site : Site) (ref : NodeRef) (token : Token Kind) : Option Stage :=
  match site with
  | .group chain members =>
    let members := members ++ [ref]
    match token.kind with
    | .semicolon => some (.member chain members)
    | .rightBrace => some (.grouped (chain.reach members))
    | kind => if kind.isId then some (.named (.group chain members) (idText token)) else none
  | _ =>
    match token.kind with
    | .operator => (site.chain ref).map fun chain => .operator (chain.join (String.ofList token.text))
    | .leftBracket => (site.subject ref).map fun subject => .attrs subject Table.empty
    | _ => none

-- A token that goes on with the statement in hand.
def Stage.follow (stage : Stage) (token : Token Kind) : Option Stage :=
  match stage, token.kind with
  | .start, .strict => some .strict
  | .start, .graph => some (.graph false false)
  | .start, .digraph => some (.graph false true)
  | .strict, .graph => some (.graph true false)
  | .strict, .digraph => some (.graph true true)
  | .graph isStrict isDirected, .leftBrace => some (.opened (.graphOpen isDirected isStrict none))
  | .graph isStrict isDirected, kind => if kind.isId then some (.graphNamed isStrict isDirected (idText token)) else none
  | .graphNamed isStrict isDirected name, .leftBrace => some (.opened (.graphOpen isDirected isStrict (some name)))
  | .subgraph, .leftBrace => some (.opened (.subgraphOpen none))
  | .subgraph, kind => if kind.isId then some (.subgraphNamed (idText token)) else none
  | .subgraphNamed name, .leftBrace => some (.opened (.subgraphOpen (some name)))
  | .closed, .operator => some (.operator ⟨none, [String.ofList token.text], []⟩)
  | .defaults target, .leftBracket => some (.attrs (.defaults target) Table.empty)
  | .named site name, .colon => some (.colon site name none)
  | .named .head name, .equals => some (.equals name)
  | .named site name, _ => site.follow ⟨name, none⟩ token
  | .colon site name none, kind => if kind.isId then some (.atPort site name (idText token) false) else none
  | .colon site name (some half), kind =>
    if kind.isId then some (.atPort site name (half ++ ":" ++ idText token) true) else none
  | .atPort site name port false, .colon => some (.colon site name (some port))
  | .atPort site name port _, _ => site.follow ⟨name, some port⟩ token
  | .equals key, kind => if kind.isId then some (.assigned key (idText token)) else none
  | .operator chain, .subgraph => some (.group chain)
  | .operator chain, .leftBrace => some (.member chain [])
  | .operator chain, kind => if kind.isId then some (.named (.target chain) (idText token)) else none
  | .group chain, .leftBrace => some (.member chain [])
  | .group chain, kind => if kind.isId then some (.groupNamed chain) else none
  | .groupNamed chain, .leftBrace => some (.member chain [])
  | .member chain members, .rightBrace => some (.grouped (chain.reach members))
  | .member chain members, kind =>
    if kind.isId then some (.named (.group chain members) (idText token)) else none
  | .grouped chain, .operator => some (.operator (chain.join (String.ofList token.text)))
  | .grouped chain, .leftBracket => some (.attrs (.chain chain) Table.empty)
  | .attrs subject sum, .rightBracket => some (.attrsClosed subject sum)
  | .attrs subject sum, kind => if kind.isId then some (.attrKey subject sum (idText token)) else none
  | .attrKey subject sum key, .equals => some (.attrEquals subject sum key)
  -- A key alone counts as true.
  | .attrKey subject sum key, .comma => some (.attrs subject (sum.set key "true"))
  | .attrKey subject sum key, .semicolon => some (.attrs subject (sum.set key "true"))
  | .attrKey subject sum key, .rightBracket => some (.attrsClosed subject (sum.set key "true"))
  | .attrKey subject sum key, kind =>
    if kind.isId then some (.attrKey subject (sum.set key "true") (idText token)) else none
  | .attrEquals subject sum key, kind =>
    if kind.isId then some (.attrValue subject (sum.set key (idText token))) else none
  | .attrValue subject sum, .comma => some (.attrs subject sum)
  | .attrValue subject sum, .semicolon => some (.attrs subject sum)
  | .attrValue subject sum, .rightBracket => some (.attrsClosed subject sum)
  | .attrValue subject sum, kind => if kind.isId then some (.attrKey subject sum (idText token)) else none
  | .attrsClosed subject sum, .leftBracket => some (.attrs subject sum)
  | _, _ => none

-- The statement in hand, where it may end here. The inner `none` is no statement at all.
def Stage.complete? : Stage → Option (Option Statement)
  | .ready => some none
  | .opened statement => some (some statement)
  | .closed => some (some (.scopeClose [] [] Table.empty))
  | .named site name => (site.subject ⟨name, none⟩).map fun subject => some (subject.statement Table.empty)
  | .atPort site name port _ =>
    (site.subject ⟨name, some port⟩).map fun subject => some (subject.statement Table.empty)
  | .assigned key value => some (some (.assignment key value))
  | .grouped chain => some (some (chain.statement Table.empty))
  | .attrsClosed subject sum => some (some (subject.statement sum))
  | _ => none

-- A token that starts a statement.
def Stage.begin (token : Token Kind) : Option Stage :=
  match token.kind with
  | .semicolon => some .ready
  | .leftBrace => some (.opened (.subgraphOpen none))
  | .rightBrace => some .closed
  | .subgraph => some .subgraph
  | .graph => some (.defaults "graph")
  | .node => some (.defaults "node")
  | .edge => some (.defaults "edge")
  | kind => if kind.isId then some (.named .head (idText token)) else none

-- The statements so far, the one in hand, and where that one starts.
structure State where
  done : List Placed
  stage : Stage
  position : Position

def State.start : State := ⟨[], .start, Position.start⟩

-- The statements so far with the one in hand, where that may end.
def State.complete? (state : State) : Option (List Placed) :=
  state.stage.complete?.map fun
    | none => state.done
    | some statement => state.done ++ [⟨state.position, statement⟩]

def State.shift (state : State) (token : Token Kind) : Option State :=
  match state.stage, state.stage.follow token with
  | .start, some stage => some { state with stage := stage, position := token.position }
  | _, some stage => some { state with stage := stage }
  | _, none =>
    match state.complete?, Stage.begin token with
    | some done, some stage => some ⟨done, stage, token.position⟩
    | _, _ => none

def grammar : Grammar Kind State (List Placed) where
  rules := rules
  ignored := Kind.ignored
  spelling := Kind.spelling
  stray := fun token => token.kind.spelling
  start := State.start
  expects := fun state => state.stage.expects
  shift := State.shift
  finish := State.complete?

def parse (text : String) : Except Failure Document :=
  match grammar.parse .dot text.toList with
  | .ok statements => .ok ⟨.dot, statements⟩
  | .error failure => .error failure

end DiagramStream.Dot
