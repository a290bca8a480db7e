import DiagramStream.Text.Ranges

/-!
Blank characters, and taking them off the ends of a text.
-/

namespace DiagramStream.Text

-- Spaces of every width, tabs, line and paragraph ends, and the four information separators.
-- A zero-width space and a byte order mark are not blank.
def blankRanges : Ranges :=
  [(0x9, 0xd), (0x1c, 0x20), (0x85, 0x85), (0xa0, 0xa0), (0x1680, 0x1680), (0x2000, 0x200a),
   (0x2028, 0x2029), (0x202f, 0x202f), (0x205f, 0x205f), (0x3000, 0x3000)]

def isBlank (c : Char) : Bool := blankRanges.has c

-- Space and tab, the blanks that stay within a line.
def isSpacing (c : Char) : Bool := c == ' ' || c == '\t'

def trimStart (drops : Char → Bool) (text : List Char) : List Char := text.dropWhile drops

def trimEnd (drops : Char → Bool) (text : List Char) : List Char :=
  (text.reverse.dropWhile drops).reverse

-- Takes characters of a class off both ends.
def trim (drops : Char → Bool) (text : List Char) : List Char := trimEnd drops (trimStart drops text)

def strip (text : List Char) : List Char := trim isBlank text

-- Absent when nothing but blanks is there.
def strip? (text : List Char) : Option (List Char) :=
  match strip text with
  | [] => none
  | kept => some kept

end DiagramStream.Text
