import DiagramStream.Text.Position
import DiagramStream.Text.Quoted

/-!
Everything that can go wrong with a diagram, by cause. A cause that lies in the diagram has a
diagnosis: a code that never changes, a message, and the place. The few that do not have only a message.
-/

namespace DiagramStream
open Text

inductive Format where
  | dot
  | sequence
deriving DecidableEq, Repr

def Format.name : Format → String
  | .dot => "dot"
  | .sequence => "sequence"

def Format.all : List Format := [.dot, .sequence]

def Format.ofName? (name : String) : Option Format := Format.all.find? (·.name = name)

-- What can be open while a diagram is read: the graph and its parts, and the blocks of a sequence.
inductive ScopeKind where
  | graph
  | subgraph
  | alt
  | loop
  | opt
  | par
  | group
  | critical
  | break
deriving DecidableEq, Repr

def ScopeKind.name : ScopeKind → String
  | .graph => "graph"
  | .subgraph => "subgraph"
  | .alt => "alt"
  | .loop => "loop"
  | .opt => "opt"
  | .par => "par"
  | .group => "group"
  | .critical => "critical"
  | .break => "break"

def ScopeKind.all : List ScopeKind :=
  [.graph, .subgraph, .alt, .loop, .opt, .par, .group, .critical, .break]

def ScopeKind.ofName? (name : String) : Option ScopeKind := ScopeKind.all.find? (·.name = name)

def ScopeKind.isGraph : ScopeKind → Bool
  | .graph => true
  | .subgraph => true
  | _ => false

def ScopeKind.isBlock (kind : ScopeKind) : Bool := !kind.isGraph

-- The blocks that have an alternative branch.
def ScopeKind.isBranching : ScopeKind → Bool
  | .alt => true
  | .par => true
  | .critical => true
  | _ => false

-- What stopped the reading of a text.
inductive Misreading where
  | endOfText
  | token (name text : String)
  | character (c : Char)

inductive Failure where
  | misread (format : Format) (what : Misreading) (place : Position) (near : String)
  | unsupported (place : Position)
  | nothingToClose (closer : String) (line : Int)
  | wrongCloser (closer : String) (line : Int) (kind : ScopeKind) (opened : Int)
  | neverClosed (kind : ScopeKind) (opened : Int)
  | notActive (id : String) (line : Int)
  | unknownArrow (arrow : String) (line : Int)
  | wrongOperator (operator : String) (directed : Bool) (line : Int)
  | secondGraph (place : Position)
  | outsideGraph (statement : String) (place : Position)
  | rootEdge (place : Position)
  | unknownFormat (name : String)
  | unknownBatching (name : String)
  | unknownScopeKind (name : String)
  | levelNotDecimal (level : String)
  | levelTooLong (digits : Nat)
  | noPendingNode (id : String)
  | noFirstEnd

-- `--` joins the ends of an undirected edge.
def edgeOperator (directed : Bool) : String := if directed then "->" else "--"

def Misreading.message : Misreading → String
  | .endOfText => "Unexpected end of input"
  | .token name text => "Unexpected " ++ name ++ " " ++ quoted text
  | .character c => "Unexpected character " ++ quoted (String.singleton c)

namespace Failure

-- A quotation this long is cut in the complaint about a level.
def levelReach : Nat := 200

-- More digits than this are not read as a number.
def levelLimit : Nat := 4300

def message : Failure → String
  | .misread format what _ near => format.name ++ ": " ++ what.message ++ " near " ++ quoted near
  | .unsupported _ => "Unsupported production Production"
  | .nothingToClose closer _ => "'" ++ closer ++ "' without an open scope"
  | .wrongCloser closer _ kind opened =>
    "'" ++ closer ++ "' cannot close '" ++ kind.name ++ "' opened at line " ++ toString opened
  | .neverClosed kind opened => "'" ++ kind.name ++ "' opened at line " ++ toString opened ++ " is never closed"
  | .notActive id _ => "'" ++ id ++ "' deactivated while not active"
  | .unknownArrow arrow _ => "Unknown arrow '" ++ arrow ++ "'"
  | .wrongOperator operator directed _ =>
    "Edge operator '" ++ operator ++ "' not allowed in a " ++ (if directed then "digraph" else "graph")
      ++ ", use '" ++ edgeOperator directed ++ "'"
  | .secondGraph _ => "Only one graph per document"
  | .outsideGraph statement _ => statement ++ " outside of the graph body"
  | .rootEdge _ => "Edge from the root graph"
  | .unknownFormat name => quoted name ++ " is not a valid DiagramFormat"
  | .unknownBatching name => quoted name ++ " is not a valid BatchMode"
  | .unknownScopeKind name => quoted name ++ " is not a valid ScopeKind"
  | .levelNotDecimal level =>
    "invalid literal for int() with base 10: " ++ String.ofList ((quoted level).toList.take levelReach)
  | .levelTooLong digits =>
    "Exceeds the limit (" ++ toString levelLimit ++ " digits) for integer string conversion: value has "
      ++ toString digits ++ " digits; use sys.set_int_max_str_digits() to increase the limit"
  | .noPendingNode id => quoted id
  | .noFirstEnd => "tuple index out of range"

end Failure

-- The report that the outer surfaces give of a fault in a diagram.
structure Diagnosis where
  code : String
  message : String
  line : Option Int
  column : Option Int
  scopeKind : Option ScopeKind
  construct : String

namespace Failure

def code? : Failure → Option String
  | .misread .. => some "E_SYNTAX"
  | .unsupported .. => some "E_ASSEMBLY"
  | .nothingToClose .. => some "E_UNMATCHED_CLOSE"
  | .wrongCloser .. => some "E_UNMATCHED_CLOSE"
  | .neverClosed .. => some "E_UNTERMINATED"
  | .notActive .. => some "E_NEGATIVE_ACTIVATION"
  | .unknownArrow .. => some "E_MALFORMED_ARROW"
  | .wrongOperator .. => some "E_MALFORMED_ARROW"
  | .secondGraph .. => some "E_STRAY_STATEMENT"
  | .outsideGraph .. => some "E_STRAY_STATEMENT"
  | .rootEdge .. => some "E_STRAY_STATEMENT"
  | _ => none

def position? : Failure → Option Position
  | .misread _ _ place _ => some place
  | .unsupported place => some place
  | .secondGraph place => some place
  | .outsideGraph _ place => some place
  | .rootEdge place => some place
  | _ => none

def line? : Failure → Option Int
  | .nothingToClose _ line => some line
  | .wrongCloser _ line _ _ => some line
  | .neverClosed _ opened => some opened
  | .notActive _ line => some line
  | .unknownArrow _ line => some line
  | .wrongOperator _ _ line => some line
  | failure => failure.position?.map Position.line

def scopeKind? : Failure → Option ScopeKind
  | .wrongCloser _ _ kind _ => some kind
  | .neverClosed kind _ => some kind
  | _ => none

-- The offending word, empty where there is none.
def construct : Failure → String
  | .nothingToClose closer _ => closer
  | .wrongCloser closer _ _ _ => closer
  | .notActive .. => "deactivate"
  | .unknownArrow arrow _ => arrow
  | .wrongOperator operator _ _ => operator
  | _ => ""

def diagnosis? (failure : Failure) : Option Diagnosis :=
  failure.code?.map fun code =>
    ⟨code, failure.message, failure.line?, failure.position?.map Position.column, failure.scopeKind?,
      failure.construct⟩

end Failure

-- The message led by its line, where there is one; line zero is none.
def Diagnosis.summary (diagnosis : Diagnosis) : String :=
  match diagnosis.line with
  | none => diagnosis.message
  | some line => if line = 0 then diagnosis.message else "line " ++ toString line ++ ": " ++ diagnosis.message

def Failure.summary (failure : Failure) : String :=
  match failure.diagnosis? with
  | some diagnosis => diagnosis.summary
  | none => failure.message

end DiagramStream
