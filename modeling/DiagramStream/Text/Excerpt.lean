import DiagramStream.Text.Blank
import DiagramStream.Text.Line
import DiagramStream.Text.Quoted

/-!
The piece of text that a complaint quotes: what stands around the place on its own line.
-/

namespace DiagramStream.Text

-- How far the piece may reach to either side.
def excerptReach : Nat := 40

-- The end of the text before the place, back to the last line feed.
def excerptBefore (text : List Char) (offset : Nat) : List Char :=
  ((((text.take offset).drop (offset - excerptReach)).reverse).takeWhile (· != '\n')).reverse

def excerptAfter (text : List Char) (offset : Nat) : List Char :=
  untilLineFeed ((text.drop offset).take excerptReach)

-- Leading blanks go, and a wide line break ends the piece. Where nothing is left a caret stands, as
-- it would under the place.
def excerpt (text : List Char) (offset : Nat) : String :=
  match trimStart isBlank (excerptBefore text offset ++ excerptAfter text offset) with
  | [] => "^"
  | kept => String.ofList (kept.takeWhile fun c => !isLineBreak c)

end DiagramStream.Text
