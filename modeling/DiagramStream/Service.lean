import DiagramStream.Conversion
import DiagramStream.Canvas
import DiagramStream.Audit
import DiagramStream.Failure.Json
import DiagramStream.Json.Checked

/-!
The web service. It answers requests one after the other and remembers the diagram that was built
last. The ids of built diagrams count up from `#1`.
-/

namespace DiagramStream
open Json

structure Request where
  method : String
  path : String
  body : Option Json

structure Reply where
  status : Nat
  body : Json

-- A diagram that was built, with the number that its id shows.
structure Built where
  serial : Nat
  diagram : Diagram

structure Service where
  built : Nat
  current : Option Built

-- What a request to convert a text asks for.
structure Job where
  text : String
  format : Option String
  batching : Option String
  name : Option String

def Built.toJson (built : Built) : Json :=
  .obj (("id", .str ("#" ++ toString built.serial)) :: built.diagram.members)

namespace Service

def start : Service := ⟨0, none⟩

def detailed (status : Nat) (detail : Json) : Reply := ⟨status, .obj [("detail", detail)]⟩

def jobOfJson (body : Json) : Checked Job :=
  let optional (name : String) : Checked (Option String) := defaulted name none optionalText body
  match body with
  | .obj _ =>
    (Checked.both (required "text" Json.text body) (Checked.both (optional "format")
      (Checked.both (optional "batch_mode") (optional "name")))).map
      fun (text, format, batching, name) => ⟨text, format, batching, name⟩
  | .null => complain .absent body
  | _ => complain .notObject body

def issueDetail (issue : Issue) : Json :=
  match issue.toJson with
  | .obj members => .obj (members ++ [("input", issue.value)])
  | other => other

def jobOfBody (body : Option Json) : Except Reply Job :=
  match Checked.under (.member "body") (jobOfJson (body.getD .null)) with
  | .ok job => .ok job
  | .error issues => .error (detailed 422 (.arr (issues.map issueDetail)))

def badInput (failure : Failure) : Reply :=
  detailed 400 (.obj [("code", .str "E_INPUT"), ("error", .str failure.message)])

-- A name that is given must be known, even an empty one.
def checkFormat (name : Option String) : Option Failure :=
  name.bind fun name => if (Format.ofName? name).isSome then none else some (.unknownFormat name)

def checkBatching (name : Option String) : Option Failure :=
  name.bind fun name => if (Batching.ofName? name).isSome then none else some (.unknownBatching name)

-- A text that does not read is a bad request; one that reads but makes no diagram cannot be processed.
def refusal (failure : Failure) (diagnosis : Diagnosis) : Reply :=
  match failure with
  | .misread .. => detailed 400 diagnosis.toJson
  | _ => detailed 422 diagnosis.toJson

-- A failure outside the diagram is nobody's reply.
abbrev Answer := Except Failure Reply

def convert (service : Service) (job : Job) (answer : Narration → Reply × Service) : Answer × Service :=
  match (checkFormat job.format).orElse fun _ => checkBatching job.batching with
  | some failure => (.ok (badInput failure), service)
  | none =>
    match Conversion.narrate job.text job.format job.batching with
    | .ok narration =>
      let (reply, service) := answer narration
      (.ok reply, service)
    | .error failure =>
      match failure.diagnosis? with
      | some diagnosis => (.ok (refusal failure diagnosis), service)
      | none => (.error failure, service)

def eventsReply (narration : Narration) : Reply :=
  ⟨200, .obj [("success", .bool true), ("format", .str narration.format.name),
    ("events", .arr (narration.events.map Event.toJson))]⟩

-- The diagram that is shown in the reply is the one to be remembered.
def build (service : Service) (name : Option String) (narration : Narration) : Reply × Service :=
  let diagram := Diagram.ofEvents narration.events ((Roster.given name).getD Diagram.defaultName)
    (some narration.format.name)
  let built : Built := ⟨service.built + 1, diagram⟩
  (⟨200, .obj [("success", .bool true), ("diagram", built.toJson),
    ("validation", Audit.report (Audit.ofEvents narration.events))]⟩, ⟨service.built + 1, some built⟩)

def formats : Json :=
  .obj [("formats", strs (Format.all.map Format.name)), ("batch_modes", strs (Batching.all.map Batching.name)),
        ("default_batch_mode", .str Conversion.defaultBatching.name)]

inductive Route where
  | health
  | formats
  | parse
  | build
  | current

-- Where a path leads by its method.
def routes : List (String × List (String × Route)) :=
  [("/api/health", [("GET", .health)]), ("/api/formats", [("GET", .formats)]),
   ("/api/parse", [("POST", .parse)]), ("/api/diagram", [("POST", .build), ("GET", .current)])]

def follow (service : Service) (body : Option Json) : Route → Answer × Service
  | .health => (.ok ⟨200, .obj [("status", .str "ok")]⟩, service)
  | .formats => (.ok ⟨200, formats⟩, service)
  | .current =>
    match service.current with
    | some built => (.ok ⟨200, built.toJson⟩, service)
    | none => (.ok (detailed 404 (.str "No diagram built yet")), service)
  | .parse =>
    match jobOfBody body with
    | .error reply => (.ok reply, service)
    | .ok job => service.convert job fun narration => (eventsReply narration, service)
  | .build =>
    match jobOfBody body with
    | .error reply => (.ok reply, service)
    | .ok job => service.convert job (service.build job.name)

def handle (service : Service) (request : Request) : Answer × Service :=
  match Table.find? request.path routes with
  | none => (.ok (detailed 404 (.str "Not Found")), service)
  | some methods =>
    match Table.find? request.method methods with
    | none => (.ok (detailed 405 (.str "Method Not Allowed")), service)
    | some route => service.follow request.body route

end Service
end DiagramStream
