import DiagramStream.Conversion
import DiagramStream.Canvas
import DiagramStream.Audit
import DiagramStream.Event.Decoding
import DiagramStream.Failure.Json
import DiagramStream.Json.Reader

/-!
The command line: one command with a source and options, one line of JSON printed, and an exit code.
-/

namespace DiagramStream.CommandLine
open Json Text

inductive Action where
  | parse
  | build
  | check
deriving DecidableEq

structure Command where
  action : Action
  source : String
  format : Option String
  batching : Option String
  name : String
  events : Bool

inductive Setting where
  | help
  | format
  | batching
  | name
  | events
deriving DecidableEq

def Action.ofName? (name : String) : Option Action :=
  if name = "parse" then some .parse else if name = "build" then some .build
  else if name = "check" then some .check else none

def Action.settings (action : Action) : List (String × Setting) :=
  [("-h", .help), ("--help", .help), ("--format", .format), ("--batch-mode", .batching)]
    ++ (match action with
      | .parse => []
      | .build => [("--name", .name)]
      | .check => [("--events", .events)])

-- How a word of the command line is to be taken.
inductive Meaning where
  | plain
  | setting (setting : Setting) (value : Option String)
  | unknown

-- A minus with digits, or with a decimal number, is a plain word.
def isNegativeNumber (word : List Char) : Bool :=
  match word with
  | '-' :: rest =>
    let whole := rest.takeWhile isDecimal
    match rest.dropWhile isDecimal with
    | [] => !whole.isEmpty
    | '.' :: places => !places.isEmpty && places.all isDecimal
    | _ => false
  | _ => false

-- A long option may be shortened as long as one option alone begins so, and may carry its value after
-- an equals sign. Words with a blank in them that name no option are plain.
def Action.meaning (action : Action) (word : String) : Meaning :=
  let text := word.toList
  let otherwise := if isNegativeNumber text || text.contains ' ' then Meaning.plain else .unknown
  match text with
  | '-' :: second :: _ =>
    match Table.find? word action.settings with
    | some setting => .setting setting none
    | none =>
      let stem := text.takeWhile (· != '=')
      let value := if text.contains '=' then some (String.ofList (text.drop (stem.length + 1))) else none
      if second = '-' then
        match Table.find? (String.ofList stem) action.settings with
        | some setting => .setting setting value
        | none =>
          match action.settings.filter fun entry => stem.isPrefixOf entry.1.toList with
          | [] => otherwise
          | [entry] => .setting entry.2 value
          | _ => .unknown
      else if second = 'h' then .setting .help (some (String.ofList (text.drop 2)))
      else otherwise
  | _ => .plain

inductive Parsed where
  | command (command : Command)
  | help
  | misused

-- `source` is what the command works on, once it was given.
structure Reading where
  action : Action
  source : Option String
  format : Option String
  batching : Option String
  name : String
  events : Bool

def Reading.finish (reading : Reading) : Parsed :=
  match reading.source with
  | none => .misused
  | some source =>
    .command ⟨reading.action, source, reading.format, reading.batching, reading.name, reading.events⟩

def Reading.set (reading : Reading) (setting : Setting) (value : String) : Option Reading :=
  match setting with
  | .format => (Format.ofName? value).map fun _ => { reading with format := some value }
  | .batching => (Batching.ofName? value).map fun _ => { reading with batching := some value }
  | .name => some { reading with name := value }
  | _ => none

-- After `--` one word more is taken, whatever it looks like.
def Reading.last (reading : Reading) (words : List String) : Parsed :=
  match reading.source, words with
  | none, [word] => { reading with source := some word }.finish
  | _, _ => .misused

-- `fresh` tells that the source was the word just before.
def Reading.run (reading : Reading) (fresh : Bool) : List String → Parsed
  | [] => reading.finish
  | "--" :: rest => if fresh && rest.isEmpty then reading.finish else reading.last rest
  | word :: rest =>
    match reading.action.meaning word with
    | .unknown => .misused
    | .plain =>
      match reading.source with
      | none => Reading.run { reading with source := some word } true rest
      | some _ => .misused
    | .setting .help _ => .help
    | .setting .events none => Reading.run { reading with events := true } false rest
    | .setting setting (some value) =>
      match reading.set setting value with
      | some reading => reading.run false rest
      | none => .misused
    | .setting setting none =>
      match rest with
      | value :: rest =>
        match reading.action.meaning value, reading.set setting value with
        | .plain, some reading => reading.run false rest
        | _, _ => .misused
      | [] => .misused

-- `-v` may be repeated within one word, and the long form shortened.
def isVerbose (word : String) : Bool :=
  match word.toList with
  | '-' :: 'v' :: rest => rest.all (· == 'v')
  | '-' :: '-' :: 'v' :: rest => rest.isPrefixOf "erbose".toList
  | _ => false

def isHelp (word : String) : Bool :=
  match word.toList with
  | '-' :: 'h' :: _ => true
  | '-' :: '-' :: 'h' :: rest => rest.isPrefixOf "elp".toList
  | _ => false

-- Options of the program itself come before the command.
def parse : List String → Parsed
  | [] => .misused
  | word :: rest =>
    if isVerbose word then parse rest
    else if isHelp word then .help
    else match Action.ofName? word with
      | none => .misused
      | some action => Reading.run ⟨action, none, none, none, Diagram.defaultName, false⟩ false rest

-- The exit code, and what is printed.
structure Output where
  exit : Nat
  printed : Option Json

def succeed (members : List (String × Json)) : Output := ⟨0, some (.obj (("status", .str "ok") :: members))⟩

def fail (members : List (String × Json)) : Output := ⟨1, some (.obj (("status", .str "error") :: members))⟩

def failInput (message : String) : Output := fail [("code", .str "E_INPUT"), ("error", .str message)]

def Conflict.toJson (conflict : Conflict) : Json :=
  .obj [("name", .str conflict.name), ("node_id", .str conflict.id), ("previous_kind", .str conflict.before),
        ("new_kind", .str conflict.after), ("line", .int conflict.line)]

-- Faults in the diagram are printed; any other failure is left to the caller.
def narrated (command : Command) (text : String) (answer : Narration → Output) : Except Failure Output :=
  match Conversion.narrate text command.format command.batching with
  | .ok narration => .ok (answer narration)
  | .error failure =>
    match failure.diagnosis? with
    | some diagnosis => .ok (fail diagnosis.members)
    | none => .error failure

def checked (events : List Event) : Output :=
  let findings := Audit.ofEvents events
  succeed [("validation", Audit.summary findings), ("issues", Audit.issues findings)]

def issueCount (issues : List Issue) : String :=
  toString issues.length ++ (if issues.length = 1 then " validation error" else " validation errors")

def checkEvents (text : String) : Output :=
  match Json.parse text with
  | .error message => failInput ("Invalid event JSON: " ++ message)
  | .ok value =>
    match Event.listOfJson value with
    | .error issues => failInput ("Invalid event JSON: " ++ issueCount issues)
    | .ok events => checked events

def Command.run (command : Command) (text : String) : Except Failure Output :=
  match command.action with
  | .parse => narrated command text fun narration =>
    succeed [("format", .str narration.format.name), ("events", .arr (narration.events.map Event.toJson))]
  | .build => narrated command text fun narration =>
    succeed [("format", .str narration.format.name),
      ("diagram", (Diagram.ofEvents narration.events command.name (some narration.format.name)).toJson),
      ("conflicts", .arr (narration.roster.conflicts.map Conflict.toJson))]
  | .check =>
    if command.events then .ok (checkEvents text)
    else narrated command text fun narration => checked narration.events

-- Line ends are unified on the way in, whether the source is a file or the standard input.
def Command.answer (command : Command) (source : Except String String) : Except Failure Output :=
  match source with
  | .error reason => .ok (failInput ("Cannot read " ++ command.source ++ ": " ++ reason))
  | .ok text => command.run (String.ofList (unifyLineEnds text.toList))

end DiagramStream.CommandLine
