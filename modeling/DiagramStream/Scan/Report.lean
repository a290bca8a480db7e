import DiagramStream.Scan.Grammar
import DiagramStream.Text.Excerpt
import DiagramStream.Failure

/-!
The complaint about a text that a grammar does not read: what was met, where, and the line around it.
A text that ends too early is reported at its last token.
-/

namespace DiagramStream.Scan
open Text

variable {κ σ ρ : Type}

def Stop.place : Stop κ → Position × Nat
  | .endOfText none => (Position.start, 0)
  | .endOfText (some token) => (token.position, token.offset)
  | .refused token => (token.position, token.offset)
  | .stray place _ => (place.position, place.offset)

def Grammar.misreading (grammar : Grammar κ σ ρ) : Stop κ → Misreading
  | .endOfText _ => .endOfText
  | .refused token => .token (grammar.spelling token.kind) (String.ofList token.text)
  | .stray _ (some token) => .token (grammar.stray token) (String.ofList token.text)
  | .stray place none =>
    match place.rest with
    | c :: _ => .character c
    | [] => .endOfText

def Grammar.report (grammar : Grammar κ σ ρ) (format : Format) (text : List Char) (stop : Stop κ) : Failure :=
  .misread format (grammar.misreading stop) stop.place.1 (excerpt text stop.place.2)

def Grammar.parse (grammar : Grammar κ σ ρ) (format : Format) (text : List Char) : Except Failure ρ :=
  match grammar.read text with
  | .ok result => .ok result
  | .error stop => .error (grammar.report format text stop)

end DiagramStream.Scan
