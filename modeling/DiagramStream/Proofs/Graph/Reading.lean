import Mathlib.Data.List.Induction
import DiagramStream.Proofs.Graph.Balance

/-!
A graph read off its statements alone: which names it refers to, which scopes are open, and which edges its
chains ask for.
-/

namespace DiagramStream

-- Names

-- The names that a statement refers to, in order. The ends behind a brace belong to its chain: where there is
-- no operator there is no chain, and nobody looks at them.
def Statement.refs : Statement → List String
  | .nodeStatement node _ => [node.name]
  | .edgeStatement endpoints _ _ => endpoints.flatten.map NodeRef.name
  | .scopeClose endpoints operators _ => if operators.isEmpty then [] else endpoints.flatten.map NodeRef.name
  | _ => []

def refsOf (statements : List Placed) : List String := statements.flatMap (·.statement.refs)

@[simp] theorem refsOf_append (earlier later : List Placed) :
    refsOf (earlier ++ later) = refsOf earlier ++ refsOf later := List.flatMap_append

@[simp] theorem refsOf_singleton (placed : Placed) : refsOf [placed] = placed.statement.refs := by simp [refsOf]

theorem eraseDups_concat (seen : List String) (name : String) :
    (seen ++ [name]).eraseDups = if name ∈ seen then seen.eraseDups else seen.eraseDups ++ [name] := by
  rw [List.eraseDups_append]
  by_cases known : name ∈ seen
  · simp [List.removeAll, known]
  · simp [List.removeAll, known, List.eraseDups_cons]

-- Names that were gathered apart count once with the others.
theorem eraseDups_append_eraseDups (seen later : List String) :
    (seen ++ later.eraseDups).eraseDups = (seen ++ later).eraseDups := by
  induction later using List.reverseRecOn with
  | nil => rfl
  | append_singleton earlier name ih =>
    rw [eraseDups_concat]
    by_cases known : name ∈ earlier
    · rw [if_pos known, ih, ← List.append_assoc, eraseDups_concat, if_pos (List.mem_append_right _ known)]
    · rw [if_neg known, ← List.append_assoc, ← List.append_assoc, eraseDups_concat, eraseDups_concat, ih]
      simp [List.mem_eraseDups]

theorem eraseDups_eraseDups_append (seen later : List String) :
    (seen.eraseDups ++ later).eraseDups = (seen ++ later).eraseDups := by
  induction later using List.reverseRecOn with
  | nil => simpa using eraseDups_append_eraseDups [] seen
  | append_singleton earlier name ih =>
    rw [← List.append_assoc, ← List.append_assoc, eraseDups_concat, eraseDups_concat, ih]
    simp [List.mem_eraseDups]

def Statement.states (id : String) : Statement → Bool
  | .nodeStatement node _ => node.name = id
  | _ => false

-- What a statement sets in a node under a key.
def Statement.sets? (id key : String) : Statement → Option String
  | .nodeStatement node attrs => if node.name = id then attrs.get? key else none
  | _ => none

theorem Statement.sets?_of_other {id : String} {statement : Statement} (other : statement.states id = false)
    (key : String) : statement.sets? id key = none := by
  cases statement with
  | nodeStatement node attrs => exact if_neg (by simpa [states] using other)
  | _ => rfl

theorem Statement.refs_of_sets? {id key : String} {statement : Statement}
    (sets : (statement.sets? id key).isSome = true) : id ∈ statement.refs := by
  cases statement with
  | nodeStatement node attrs =>
    by_cases named : node.name = id
    · simp [refs, named]
    · simp [sets?, named] at sets
  | _ => cases sets

-- Scopes

-- A scope that is open, with the place of its opener in the document and what its edges take over.
structure Scope where
  opened : Nat
  edgeDefaults : Attrs
deriving DecidableEq

-- What the innermost scope gives to an edge.
def edgeDefaults (scopes : List Scope) : Attrs :=
  match scopes with
  | [] => Table.empty
  | scope :: _ => scope.edgeDefaults

-- What a statement at a place does to the open scopes, innermost first.
def enclose (place : Nat) (scopes : List Scope) (placed : Placed) : List Scope :=
  match placed.statement, scopes with
  | .graphOpen .., scopes => ⟨place, edgeDefaults scopes⟩ :: scopes
  | .subgraphOpen _, scopes => ⟨place, edgeDefaults scopes⟩ :: scopes
  | .scopeClose .., _ :: outer => outer
  | .attrStatement target attrs, scope :: outer =>
    ⟨scope.opened, if target = "edge" then scope.edgeDefaults.merge attrs else scope.edgeDefaults⟩ :: outer
  | _, scopes => scopes

def openScopes (statements : List Placed) : List Scope :=
  statements.zipIdx.foldl (fun scopes entry => enclose entry.2 scopes entry.1) []

@[simp] theorem openScopes_nil : openScopes [] = [] := rfl

@[simp] theorem openScopes_concat (before : List Placed) (placed : Placed) :
    openScopes (before ++ [placed]) = enclose before.length (openScopes before) placed := by
  simp [openScopes, List.zipIdx_append]

-- The names referred to since the innermost scope was opened, each at its first mention.
def insideOf (before : List Placed) : List String :=
  match openScopes before with
  | [] => []
  | scope :: _ => (refsOf (before.drop (scope.opened + 1))).eraseDups

-- Edges

-- One edge as a chain asks for it: two ends, and what is said of it by itself and by the scopes around.
structure Stroke where
  source : NodeRef
  target : NodeRef
  directed : Bool
  said : Attrs
deriving DecidableEq

def Stroke.ports (stroke : Stroke) : List (String × String) :=
  (Roster.given stroke.source.port).toList.map (fun port => ("tailport", port)) ++
    (Roster.given stroke.target.port).toList.map (fun port => ("headport", port))

def Stroke.attrs (stroke : Stroke) : Attrs :=
  stroke.ports.foldl (fun attrs port => attrs.set port.1 port.2)
    ((stroke.said.erase "label").set "direction" (if stroke.directed then "directed" else "undirected"))

def Stroke.edge (stroke : Stroke) (number : Nat) : Edge :=
  ⟨"edge-" ++ toString number, stroke.source.name, stroke.target.name, none, stroke.said.get? "label", stroke.attrs⟩

-- The groups of ends that a chain joins one to the next. A chain behind a brace begins with everything inside.
def groupsAfter (before : List Placed) (placed : Placed) : List (List NodeRef) :=
  match placed.statement with
  | .edgeStatement endpoints _ _ => endpoints
  | .scopeClose endpoints operators _ =>
    if operators.isEmpty then [] else ((insideOf before).map fun name => ⟨name, none⟩) :: endpoints
  | _ => []

def Statement.edgeAttrs : Statement → Attrs
  | .edgeStatement _ _ attrs => attrs
  | .scopeClose _ _ attrs => attrs
  | _ => Table.empty

-- Everyone in a group is joined to everyone in the next.
def joinAll (directed : Bool) (said : Attrs) (groups : List (List NodeRef)) : List Stroke :=
  (groups.zip groups.tail).flatMap fun pair =>
    pair.1.flatMap fun source => pair.2.map fun target => ⟨source, target, directed, said⟩

def strokesAfter (before : List Placed) (placed : Placed) : List Stroke :=
  joinAll (siteOf before).directed
    ((edgeDefaults (openScopes (before ++ [placed]))).merge placed.statement.edgeAttrs) (groupsAfter before placed)

def strokes (statements : List Placed) : List Stroke := gather strokesAfter statements

@[simp] theorem strokes_concat (before : List Placed) (placed : Placed) :
    strokes (before ++ [placed]) = strokes before ++ strokesAfter before placed := gather_concat ..

end DiagramStream
