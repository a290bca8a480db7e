import DiagramStream.CommandLine
import DiagramStream.Json.Printer
import DiagramStream.Shelf

/-!
The program: reads its source, runs the command, prints, and exits.
-/

open DiagramStream CommandLine

def readSource (path : String) : IO (Except String String) := do
  if path = "-" then return .ok (← (← IO.getStdin).readToEnd)
  try return .ok (← IO.FS.readFile path)
  catch
    | .noFileOrDirectory .. => return .error Shelf.noSuchFile
    | .permissionDenied .. => return .error "Permission denied"
    | _ => return .error Shelf.isDirectory

def main (args : List String) : IO UInt32 := do
  match CommandLine.parse args with
  | .help => return 0
  | .misused => return 2
  | .command command =>
    match command.answer (← readSource command.source) with
    | .error failure =>
      IO.eprintln failure.summary
      return 1
    | .ok output =>
      if let some printed := output.printed then IO.println printed.render
      return output.exit.toUInt32
