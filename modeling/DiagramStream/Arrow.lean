import DiagramStream.Failure
import DiagramStream.Table

/-!
The arrows of sequence messages, and the one operator that a graph's edges may use.
-/

namespace DiagramStream

inductive MessageKind where
  | synchronous
  | asynchronous
  | reply
  | lost
  | found
  | bidirectional
deriving DecidableEq, Repr

def MessageKind.name : MessageKind → String
  | .synchronous => "synchronous"
  | .asynchronous => "asynchronous"
  | .reply => "return"
  | .lost => "lost"
  | .found => "found"
  | .bidirectional => "bidirectional"

-- A reversed arrow points from the second name to the first.
structure Arrow where
  kind : MessageKind
  reversed : Bool
deriving DecidableEq, Repr

def Arrow.table : List (String × Arrow) :=
  [("->", ⟨.synchronous, false⟩), ("->>", ⟨.asynchronous, false⟩), ("-->", ⟨.reply, false⟩),
   ("-->>", ⟨.reply, false⟩), ("<-", ⟨.synchronous, true⟩), ("<<-", ⟨.asynchronous, true⟩),
   ("<--", ⟨.reply, true⟩), ("<<--", ⟨.reply, true⟩), ("<->", ⟨.bidirectional, false⟩),
   ("<-->", ⟨.bidirectional, false⟩), ("->x", ⟨.lost, false⟩), ("-->x", ⟨.lost, false⟩),
   ("-\\", ⟨.lost, false⟩), ("\\-", ⟨.found, true⟩), ("\\\\", ⟨.synchronous, false⟩)]

def Arrow.ofText? (text : String) : Option Arrow := Table.find? text Arrow.table

def Arrow.classify (text : String) (line : Int) : Except Failure Arrow :=
  match Arrow.ofText? text with
  | some arrow => .ok arrow
  | none => .error (.unknownArrow text line)

def checkOperator (operator : String) (directed : Bool) (line : Int) : Except Failure Unit :=
  if operator = edgeOperator directed then .ok () else .error (.wrongOperator operator directed line)

-- The first operator that does not fit counts.
def checkOperators (operators : List String) (directed : Bool) (line : Int) : Except Failure Unit :=
  match operators with
  | [] => .ok ()
  | operator :: rest =>
    match checkOperator operator directed line with
    | .error failure => .error failure
    | .ok () => checkOperators rest directed line

end DiagramStream
