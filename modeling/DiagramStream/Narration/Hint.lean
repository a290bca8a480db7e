import DiagramStream.Event
import DiagramStream.Statement
import DiagramStream.Text.Case

/-!
The layout that a graph asks for. It is read off the attributes of the root graph before anything
else is told.
-/

namespace DiagramStream.Hint
open Text

-- Collects the attributes of the root until it closes. `depth` counts the scopes that are open.
def rootAttrs (depth : Nat) (root : Attrs) : List Placed → Attrs
  | [] => root
  | placed :: rest =>
    match placed.statement with
    | .graphOpen .. => rootAttrs (depth + 1) root rest
    | .subgraphOpen .. => rootAttrs (depth + 1) root rest
    | .scopeClose .. => if depth ≤ 1 then root else rootAttrs (depth - 1) root rest
    | .assignment key value => rootAttrs depth (if depth = 1 then root.set key value else root) rest
    | .attrStatement target attrs =>
      rootAttrs depth (if depth = 1 && target = "graph" then root.merge attrs else root) rest
    | _ => rootAttrs depth root rest

-- The layout programs that a graph may ask for, and what they do.
def engines : List (String × Layout) :=
  [("dot", .hierarchical), ("neato", .force), ("fdp", .force), ("sfdp", .force), ("circo", .circular),
   ("twopi", .circular), ("osage", .grid), ("patchwork", .grid)]

def engineLayout (engine : String) : Layout := (Table.find? (lower engine) engines).getD .hierarchical

def rankDirection (name : String) : Direction := (Direction.ofName? (upper name)).getD .topToBottom

-- None where the root asks for nothing.
def ofRoot (root : Attrs) : Option Event :=
  match root.get? "layout", root.get? "rankdir" with
  | none, none => none
  | engine, direction =>
    let rest := (root.erase "layout").erase "rankdir"
    let asked := engine.filter (· ≠ "")
    some (.setLayout (engineLayout (asked.getD "dot")) (rankDirection (direction.getD "TB"))
      (match asked with
        | none => rest
        | some engine => rest.set "engine" engine))

def ofStatements (statements : List Placed) : Option Event := ofRoot (rootAttrs 0 Table.empty statements)

end DiagramStream.Hint
