import DiagramStream.Scan.Token

/-!
Reading a text by a grammar whose state moves with every token. Both notations are of this sort:
braces and blocks need not balance for them, so a state holds no more than the statement in hand.
-/

namespace DiagramStream.Scan
open Text

-- `expects` are the kinds of token that are looked for, a few more than `shift` will take. `spelling`
-- names a token in complaints, and `stray` one that was not looked for. `finish` gives the result
-- where the text may end.
structure Grammar (κ σ ρ : Type) where
  rules : List (κ × Rule)
  ignored : κ → Bool
  spelling : κ → String
  stray : Token κ → String
  start : σ
  expects : σ → κ → Bool
  shift : σ → Token κ → Option σ
  finish : σ → Option ρ

-- Where reading stopped, and at what.
inductive Stop (κ : Type) where
  | endOfText (last : Option (Token κ))
  | refused (token : Token κ)
  | stray (place : Cursor) (token : Option (Token κ))

variable {κ σ ρ : Type}

-- Any token at all at the place, whether it was looked for or not.
def anyToken (rules : List (κ × Rule)) (cursor : Cursor) : Option (Token κ) :=
  (firstMatch rules (fun _ => true) cursor.rest).map fun found =>
    ⟨found.1, cursor.rest.take (found.2 + 1), cursor.position, cursor.offset⟩

namespace Grammar

def next (grammar : Grammar κ σ ρ) (state : σ) (cursor : Cursor) : Next κ :=
  Scan.next grammar.rules grammar.ignored (grammar.expects state) cursor

def run (grammar : Grammar κ σ ρ) (state : σ) (last : Option (Token κ)) (cursor : Cursor) :
    Except (Stop κ) ρ :=
  match _ : grammar.next state cursor with
  | .finished =>
    match grammar.finish state with
    | some result => .ok result
    | none => .error (.endOfText last)
  | .stuck place => .error (.stray place (anyToken grammar.rules place))
  | .token token after =>
    match grammar.shift state token with
    | some state => run grammar state (some token) after
    | none => .error (.refused token)
termination_by cursor.rest.length
decreasing_by exact next_shorter _ _ _ _ ‹_›

def read (grammar : Grammar κ σ ρ) (text : List Char) : Except (Stop κ) ρ :=
  grammar.run grammar.start none (Cursor.start text)

end Grammar
end DiagramStream.Scan
