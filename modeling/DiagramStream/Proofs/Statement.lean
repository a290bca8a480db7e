import DiagramStream.Statement
import DiagramStream.Proofs.Past

/-!
Which notation a statement belongs to, documents that keep to the notation of their format, and what the
statements of a document add up to.
-/

namespace DiagramStream

namespace Statement

-- The statements of sequence diagrams.
def ofSequence : Statement → Bool
  | .declaration .. => true
  | .message .. => true
  | .activation .. => true
  | .deactivation .. => true
  | .destruction .. => true
  | .note .. => true
  | .divider .. => true
  | .comment .. => true
  | .blockOpen .. => true
  | .blockElse .. => true
  | .blockEnd => true
  | _ => false

-- The statements of graphs.
def ofGraph : Statement → Bool
  | .graphOpen .. => true
  | .subgraphOpen .. => true
  | .scopeClose .. => true
  | .nodeStatement .. => true
  | .edgeStatement .. => true
  | .attrStatement .. => true
  | .assignment .. => true
  | _ => false

-- An edge has a first end. Every other statement passes.
def hasEnd : Statement → Bool
  | .edgeStatement endpoints _ _ => !endpoints.isEmpty
  | _ => true

-- What a graph text can say.
def Written (statement : Statement) : Prop := statement.ofGraph = true ∧ statement.hasEnd = true

-- A block is opened by the keyword of a control block. Every other statement passes.
def opensControl : Statement → Bool
  | .blockOpen kind _ => (ScopeKind.ofName? kind).any ScopeKind.isBlock
  | _ => true

theorem opensControl_kind {kind : String} {condition : Option String}
    (control : (blockOpen kind condition).opensControl = true) :
    ∃ scope, ScopeKind.ofName? kind = some scope ∧ scope.isBlock = true := by
  simpa [opensControl, Option.any_eq_true] using control

end Statement

def Document.Coherent (document : Document) : Prop :=
  match document.format with
  | .sequence => ∀ placed ∈ document.statements,
      placed.statement.ofSequence = true ∧ placed.statement.opensControl = true
  | .dot => ∀ placed ∈ document.statements, placed.statement.ofGraph = true

-- What the statements add, one after the other, each seen from the statements before it.
def gather {α : Type} (adds : List Placed → Placed → List α) (statements : List Placed) : List α :=
  statements.zipIdx.flatMap fun entry => adds (statements.take entry.2) entry.1

theorem gather_eq {α : Type} (adds : List Placed → Placed → List α) (statements : List Placed) :
    gather adds statements = (withPast statements).flatMap fun moment => adds moment.1 moment.2 := by
  unfold gather withPast
  rw [List.flatMap_map]

@[simp] theorem gather_nil {α : Type} (adds : List Placed → Placed → List α) : gather adds [] = [] := rfl

@[simp] theorem gather_concat {α : Type} (adds : List Placed → Placed → List α) (before : List Placed)
    (placed : Placed) : gather adds (before ++ [placed]) = gather adds before ++ adds before placed := by
  simp only [gather_eq, withPast_concat, List.flatMap_append, List.flatMap_singleton]

-- The same where a statement adds at most one thing, and the last of them counts.
theorem getLast?_gather_concat {α : Type} (add? : List Placed → Placed → Option α) (before : List Placed)
    (placed : Placed) :
    (gather (fun before placed => (add? before placed).toList) (before ++ [placed])).getLast? =
      (add? before placed).or (gather (fun before placed => (add? before placed).toList) before).getLast? := by
  rw [gather_concat]
  cases add? before placed <;> simp

end DiagramStream
