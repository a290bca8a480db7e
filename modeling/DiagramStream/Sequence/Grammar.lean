import DiagramStream.Sequence.Token
import DiagramStream.Scan.Report
import DiagramStream.Statement

/-!
The grammar of sequence texts: one statement to a line, except for notes that run over several.
-/

namespace DiagramStream.Sequence
open Text Scan

-- A declaration as far as it has been read.
structure Declaring where
  kind : String
  name : Name
  other : Option Name
  stereotype : Option String

-- A quoted second name is also what the participant is called; otherwise it goes by the first.
def Declaring.statement (said : Declaring) (color : Option String) : Statement :=
  let label := match said.other with
    | some other => if other.quoted then other.text else said.name.text
    | none => said.name.text
  .declaration said.kind said.name.text (said.other.map Name.text) (some label)
    (Table.ofList ((said.stereotype.map fun text => ("stereotype", text)).toList
      ++ (color.map fun text => ("color", text)).toList))

inductive NameUse where
  | deactivation
  | destruction

-- How far the statement in hand has been read.
inductive Stage where
  | ready
  | participant (kind : String)
  | declared (said : Declaring)
  | also (said : Declaring)
  | stereotyped (said : Declaring)
  | sender (name : Name)
  | arrow (source : Name) (arrow : String)
  | receiver (source : Name) (arrow : String) (target : Name)
  | marked (source : Name) (arrow : String) (target : Name) (mark : String)
  | activate
  | activated (name : Name)
  | single (use : NameUse)
  | block (kind : String)
  | otherwise
  | note
  | noteSide (side : String)
  | noteOf (side : String)
  | noteOver (targets : List String)
  -- The targets of a note are there; `more` tells that another may follow a comma.
  | noteTargets (side : String) (targets : List String) (more : Bool)
  | noteLines (side : String) (targets : List String)
  -- Only the line end is missing. `named` tells that the last token was a name.
  | whole (statement : Statement) (named : Bool)

def isName (kind : Kind) : Bool := kind == .name || kind == .quoted

-- What is looked for after every name, wherever that stands.
def afterName (kind : Kind) : Bool :=
  kind == .stereotype || kind == .mark || kind == .also || kind == .arrow || kind == .lineEnd
    || kind == .label || kind == .color || kind == .comma

def isStatementStart (kind : Kind) : Bool :=
  isName kind || kind == .participant || kind == .deactivate || kind == .block || kind == .activate
    || kind == .destroy || kind == .note || kind == .otherwise || kind == .finish || kind == .blockComment
    || kind == .delay || kind == .spacer || kind == .lineEnd || kind == .separator || kind == .comment

def Stage.expects : Stage → Kind → Bool
  | .ready, kind => isStatementStart kind
  | .participant _, kind => isName kind
  | .declared _, kind => afterName kind
  | .also _, kind => isName kind
  | .stereotyped _, kind => kind == .lineEnd || kind == .color
  | .sender _, kind => afterName kind
  | .arrow .., kind => isName kind
  | .receiver .., kind => afterName kind
  | .marked .., kind => kind == .lineEnd || kind == .label
  | .activate, kind => isName kind
  | .activated _, kind => afterName kind
  | .single _, kind => isName kind
  | .block _, kind => kind == .text || kind == .lineEnd
  | .otherwise, kind => kind == .text || kind == .lineEnd
  | .note, kind => kind == .side || kind == .over
  | .noteSide _, kind => isName kind || kind == .sideOf
  | .noteOf _, kind => isName kind
  | .noteOver _, kind => isName kind
  | .noteTargets .., kind => afterName kind
  | .noteLines .., kind => kind == .noteBody
  | .whole _ true, kind => afterName kind
  | .whole _ false, kind => kind == .lineEnd

def colorAttr (color : String) : Attrs := Table.ofList [("color", color)]

-- A token that goes on with the statement in hand, or starts one where there is none.
def Stage.follow (stage : Stage) (token : Token Kind) : Option Stage :=
  let text := String.ofList token.text
  match stage, token.kind with
  | .ready, .participant => some (.participant text)
  | .ready, .activate => some .activate
  | .ready, .deactivate => some (.single .deactivation)
  | .ready, .destroy => some (.single .destruction)
  | .ready, .block => some (.block text)
  | .ready, .otherwise => some .otherwise
  | .ready, .finish => some (.whole .blockEnd false)
  | .ready, .note => some .note
  | .ready, .separator =>
    some (.whole (.divider "separator" (String.ofList (trim isSeparatorEdge token.text))) false)
  | .ready, .delay => some (.whole (.divider "delay" (String.ofList (stripped 3 0 token.text))) false)
  | .ready, .spacer => some (.whole (.divider "space" (String.ofList (stripped 3 0 token.text))) false)
  | .ready, .comment => some (.whole (.comment (String.ofList (stripped 1 0 token.text))) false)
  | .ready, .blockComment => some (.whole (.comment (String.ofList (stripped 2 2 token.text))) false)
  | .ready, _ => (nameOf? token).map .sender
  | .participant kind, _ => (nameOf? token).map fun name => .declared ⟨kind, name, none, none⟩
  | .declared said, .also => if said.other.isNone then some (.also said) else none
  | .declared said, .stereotype =>
    some (.stereotyped { said with stereotype := some (String.ofList (stripped 2 2 token.text)) })
  | .declared said, .color => some (.whole (said.statement (some text)) false)
  | .also said, _ => (nameOf? token).map fun name => .declared { said with other := some name }
  | .stereotyped said, .color => some (.whole (said.statement (some text)) false)
  | .sender source, .arrow => some (.arrow source text)
  | .arrow source shape, _ => (nameOf? token).map fun target => .receiver source shape target
  | .receiver source shape target, .mark => some (.marked source shape target text)
  | .receiver source shape target, .label =>
    some (.whole (.message source.text shape target.text (labelOf token.text) none) false)
  | .marked source shape target mark, .label =>
    some (.whole (.message source.text shape target.text (labelOf token.text) (some mark)) false)
  | .activate, _ => (nameOf? token).map .activated
  | .activated name, .color => some (.whole (.activation name.text (colorAttr text)) false)
  | .single .deactivation, _ => (nameOf? token).map fun name => .whole (.deactivation name.text) true
  | .single .destruction, _ => (nameOf? token).map fun name => .whole (.destruction name.text) true
  | .block kind, .text => some (.whole (.blockOpen kind (condition token.text)) false)
  | .otherwise, .text => some (.whole (.blockElse (condition token.text)) false)
  | .note, .side => some (.noteSide text)
  | .note, .over => some (.noteOver [])
  | .noteSide side, .sideOf => some (.noteOf side)
  | .noteSide side, _ => (nameOf? token).map fun name => .noteTargets side [name.text] false
  | .noteOf side, _ => (nameOf? token).map fun name => .noteTargets side [name.text] false
  | .noteOver targets, _ => (nameOf? token).map fun name => .noteTargets "over" (targets ++ [name.text]) true
  | .noteTargets _ targets true, .comma => some (.noteOver targets)
  | .noteTargets side targets _, .label =>
    some (.whole (.note targets side (String.ofList (stripped 1 0 token.text))) false)
  | .noteTargets side targets _, .lineEnd => some (.noteLines side targets)
  | .noteLines side targets, .noteBody =>
    some (.whole (.note targets side (String.ofList (noteText token.text))) false)
  | _, _ => none

-- The statement that a line end completes. The inner `none` is an empty line.
def Stage.complete? : Stage → Option (Option Statement)
  | .ready => some none
  | .declared said => some (some (said.statement none))
  | .stereotyped said => some (some (said.statement none))
  | .receiver source shape target => some (some (.message source.text shape target.text none none))
  | .marked source shape target mark =>
    some (some (.message source.text shape target.text none (some mark)))
  | .activated name => some (some (.activation name.text Table.empty))
  | .block kind => some (some (.blockOpen kind none))
  | .otherwise => some (some (.blockElse none))
  | .whole statement _ => some (some statement)
  | _ => none

-- The statements so far, the one in hand, and where that one starts.
structure State where
  done : List Placed
  stage : Stage
  position : Position

def State.start : State := ⟨[], .ready, Position.start⟩

def State.endLine (state : State) : Option State :=
  state.stage.complete?.map fun
    | none => state
    | some statement => { state with done := state.done ++ [⟨state.position, statement⟩], stage := .ready }

def State.shift (state : State) (token : Token Kind) : Option State :=
  match state.stage, state.stage.follow token with
  | .ready, some stage => some { state with stage := stage, position := token.position }
  | _, some stage => some { state with stage := stage }
  | _, none => if token.kind = .lineEnd then state.endLine else none

-- Only at the head of a line may the text end.
def State.finish (state : State) : Option (List Placed) :=
  match state.stage with
  | .ready => some state.done
  | _ => none

-- A lone comma that was not looked for is still called one.
def strayLabel (token : Token Kind) : String :=
  if token.kind = .text && token.text = [','] then Kind.comma.spelling else token.kind.spelling

def grammar : Grammar Kind State (List Placed) where
  rules := rules
  ignored := Kind.ignored
  spelling := Kind.spelling
  stray := strayLabel
  start := State.start
  expects := fun state => state.stage.expects
  shift := State.shift
  finish := State.finish

-- Every line is given an end.
def prepare (text : List Char) : List Char := unifyLineEnds text ++ ['\n']

def parse (text : String) : Except Failure Document :=
  match grammar.parse .sequence (prepare text.toList) with
  | .ok statements => .ok ⟨.sequence, statements⟩
  | .error failure => .error failure

end DiagramStream.Sequence
