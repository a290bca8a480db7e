import DiagramStream.Text.Ranges

/-!
Lines of a text. Three views are needed: the line feed alone (positions, notes), the three usual line
ends brought to one, and the wide class of line breaks that cuts a quotation short.
-/

namespace DiagramStream.Text

-- A carriage return with its line feed, or alone, becomes one line feed.
def unifyLineEnds : List Char → List Char
  | '\r' :: '\n' :: rest => '\n' :: unifyLineEnds rest
  | '\r' :: rest => '\n' :: unifyLineEnds rest
  | c :: rest => c :: unifyLineEnds rest
  | [] => []

-- What stands before, between and after the line feeds; an empty text is one empty line.
def lines : List Char → List (List Char)
  | [] => [[]]
  | '\n' :: rest => [] :: lines rest
  | c :: rest =>
    match lines rest with
    | [] => [[c]]
    | line :: more => (c :: line) :: more

def joinLines : List (List Char) → List Char
  | [] => []
  | [line] => line
  | line :: rest => line ++ '\n' :: joinLines rest

def lineBreakRanges : Ranges :=
  [(0xa, 0xd), (0x1c, 0x1e), (0x85, 0x85), (0x2028, 0x2029)]

def isLineBreak (c : Char) : Bool := lineBreakRanges.has c

-- The rest of the line in the narrow sense, without its line feed.
def untilLineFeed (text : List Char) : List Char := text.takeWhile (· != '\n')

def lineLength (text : List Char) : Nat := (untilLineFeed text).length

end DiagramStream.Text
