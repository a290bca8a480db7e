/-!
Places in a text: lines and columns count from one, and only a line feed ends a line.
-/

namespace DiagramStream.Text

-- Integers, since a document that was not read from text may carry any numbers here.
structure Position where
  line : Int
  column : Int
deriving DecidableEq, Repr

def Position.start : Position := ⟨1, 1⟩

def Position.after (place : Position) (c : Char) : Position :=
  if c = '\n' then ⟨place.line + 1, 1⟩ else ⟨place.line, place.column + 1⟩

def Position.advance (place : Position) (text : List Char) : Position := text.foldl Position.after place

@[simp] theorem Position.advance_nil (place : Position) : place.advance [] = place := rfl

@[simp] theorem Position.advance_cons (place : Position) (c : Char) (text : List Char) :
    place.advance (c :: text) = (place.after c).advance text := rfl

theorem Position.advance_append (place : Position) (left right : List Char) :
    place.advance (left ++ right) = (place.advance left).advance right := by
  simp [advance]

end DiagramStream.Text
