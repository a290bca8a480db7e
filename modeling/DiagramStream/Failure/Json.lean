import DiagramStream.Failure
import DiagramStream.Json.Basic

/-!
Diagnoses as JSON objects; what is absent or empty is left out.
-/

namespace DiagramStream
open Json

def Diagnosis.members (diagnosis : Diagnosis) : List (String × Json) :=
  [("code", .str diagnosis.code), ("error", .str diagnosis.message)]
    ++ (diagnosis.line.map fun line => ("line", .int line)).toList
    ++ (diagnosis.column.map fun column => ("column", .int column)).toList
    ++ (diagnosis.scopeKind.map fun kind => ("scope_kind", .str kind.name)).toList
    ++ (if diagnosis.construct = "" then [] else [("construct", .str diagnosis.construct)])

def Diagnosis.toJson (diagnosis : Diagnosis) : Json := .obj diagnosis.members

end DiagramStream
