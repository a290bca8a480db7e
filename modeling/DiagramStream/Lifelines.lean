import DiagramStream.Failure
import DiagramStream.Table

/-!
How deeply the participants of a sequence diagram are activated. Each step answers with the change
to tell about the participant.
-/

namespace DiagramStream

structure Lifelines where
  depths : Table Nat
deriving DecidableEq

namespace Lifelines

def empty : Lifelines := ⟨Table.empty⟩

def depth (lifelines : Lifelines) (id : String) : Nat := (lifelines.depths.get? id).getD 0

-- In the order in which they were first activated or destroyed.
def active (lifelines : Lifelines) : List String :=
  (lifelines.depths.entries.filter (0 < ·.2)).map Prod.fst

def activate (lifelines : Lifelines) (id : String) (attrs : Attrs) : Lifelines × Attrs :=
  let depth := lifelines.depth id + 1
  (⟨lifelines.depths.set id depth⟩, attrs.set "activation" (toString depth))

def deactivate (lifelines : Lifelines) (id : String) (line : Int) : Except Failure (Lifelines × Attrs) :=
  match lifelines.depth id with
  | 0 => .error (.notActive id line)
  | depth + 1 => .ok (⟨lifelines.depths.set id depth⟩, Table.ofList [("activation", toString depth)])

-- Ends a lifeline, whatever was still active on it.
def destroy (lifelines : Lifelines) (id : String) : Lifelines × Attrs :=
  (⟨lifelines.depths.set id 0⟩, Table.ofList [("destroyed", "true"), ("activation", "0")])

end Lifelines
end DiagramStream
