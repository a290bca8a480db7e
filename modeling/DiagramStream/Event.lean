import DiagramStream.Table

/-!
Events: the ordered messages in which a diagram is told to whoever draws it. Nodes and edges are told
once and nodes may be told changes; layout hints and batch markers stand between.
-/

namespace DiagramStream

inductive Layout where
  | hierarchical
  | force
  | circular
  | grid
  | sequential
deriving DecidableEq, Repr

inductive Direction where
  | topToBottom
  | bottomToTop
  | leftToRight
  | rightToLeft
deriving DecidableEq, Repr

def Layout.name : Layout → String
  | .hierarchical => "hierarchical"
  | .force => "force"
  | .circular => "circular"
  | .grid => "grid"
  | .sequential => "sequential"

def Layout.all : List Layout := [.hierarchical, .force, .circular, .grid, .sequential]

def Layout.ofName? (name : String) : Option Layout := Layout.all.find? (·.name = name)

def Direction.name : Direction → String
  | .topToBottom => "TB"
  | .bottomToTop => "BT"
  | .leftToRight => "LR"
  | .rightToLeft => "RL"

def Direction.all : List Direction := [.topToBottom, .bottomToTop, .leftToRight, .rightToLeft]

def Direction.ofName? (name : String) : Option Direction := Direction.all.find? (·.name = name)

theorem Layout.ofName?_name (layout : Layout) : Layout.ofName? layout.name = some layout := by
  cases layout <;> rfl

theorem Direction.ofName?_name (direction : Direction) :
    Direction.ofName? direction.name = some direction := by
  cases direction <;> rfl

-- The kind of a node that nothing more is known of.
def genericKind : String := "generic"

structure Node where
  id : String
  kind : String
  label : String
  attrs : Attrs
deriving DecidableEq

-- One entry of a change: `kind` and `label` name the fields, every other key an attribute.
def Node.write (node : Node) (key value : String) : Node :=
  if key = "kind" then { node with kind := value }
  else if key = "label" then { node with label := value }
  else { node with attrs := node.attrs.set key value }

-- Folds a change in, entry by entry.
def Node.merge (node : Node) (change : Attrs) : Node :=
  change.entries.foldl (fun node entry => node.write entry.1 entry.2) node

@[simp] theorem Node.write_id (node : Node) (key value : String) : (node.write key value).id = node.id := by
  unfold write; split
  · rfl
  · split <;> rfl

@[simp] theorem Node.merge_id (node : Node) (change : Attrs) : (node.merge change).id = node.id := by
  unfold merge
  generalize change.entries = entries
  induction entries generalizing node with
  | nil => rfl
  | cons entry rest ih => simp [ih]

-- Messages are numbered, edges of a graph are not.
structure Edge where
  id : String
  source : String
  target : String
  sequence : Option Int
  label : Option String
  attrs : Attrs
deriving DecidableEq

inductive Event where
  | batchStart
  | batchEnd
  | setLayout (layout : Layout) (direction : Direction) (attrs : Attrs)
  | addNode (node : Node)
  | updateNode (id : String) (change : Attrs)
  | addEdge (edge : Edge)
deriving DecidableEq

end DiagramStream
