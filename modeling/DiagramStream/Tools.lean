import DiagramStream.Service
import DiagramStream.Json.Printer
import DiagramStream.Json.Shown

/-!
Tools for agents. Each asks the service and hands its answer on as laid-out JSON text.
-/

namespace DiagramStream
open Json

inductive ToolCall where
  | formats
  | parse (text format batching : Json)
  | build (text format name : Json)
  | request (method endpoint : String) (body : Option Json)

inductive ToolFailure where
  | refused (detail : Json)
  | unknownMethod (method : String)
  | failed (failure : Failure)

-- A coded detail is cut down to its code and message.
def ToolFailure.message : ToolFailure → String
  | .refused (.obj members) =>
    let part (name : String) : String := (((Json.obj members).member? name).getD .null).bare
    "API error: " ++ part "code" ++ ": " ++ part "error"
  | .refused detail => "API error: " ++ detail.bare
  | .unknownMethod method => "Unknown method: " ++ method
  | .failed failure => failure.summary

namespace ToolCall

def toRequest : ToolCall → Request
  | .formats => ⟨"GET", "/api/formats", none⟩
  | .parse text format batching =>
    ⟨"POST", "/api/parse", some (.obj [("text", text), ("format", format), ("batch_mode", batching)])⟩
  | .build text format name =>
    ⟨"POST", "/api/diagram", some (.obj [("text", text), ("format", format), ("name", name)])⟩
  | .request method endpoint body =>
    ⟨method, "/api" ++ endpoint, if method = "POST" then body else none⟩

def judge : Service.Answer → Except ToolFailure Json
  | .error failure => .error (.failed failure)
  | .ok reply =>
    if reply.status < 400 then .ok reply.body
    else .error (.refused ((reply.body.member? "detail").getD (.str "Unknown error")))

-- Only reading and posting are known.
def ask (service : Service) (call : ToolCall) : Except ToolFailure Json × Service :=
  let request := call.toRequest
  if request.method = "GET" || request.method = "POST" then
    let (answer, service) := service.handle request
    (judge answer, service)
  else (.error (.unknownMethod request.method), service)

end ToolCall

-- The text that a tool returns.
def toolText (answer : Json) : String := answer.pretty 0

end DiagramStream
