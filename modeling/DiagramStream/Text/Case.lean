/-!
Letters regardless of case, as far as ASCII words need it.
-/

namespace DiagramStream.Text

-- The lower-case form of a letter that has an ASCII one: besides the capitals, the sign for kelvin.
def lowerLetter (c : Char) : Char := if c = '\u212a' then 'k' else c.toLower

-- Letters that match an ASCII letter when case is ignored: besides its own two forms, the long s,
-- the sign for kelvin, and the dotted capital and dotless small i.
def foldLetter (c : Char) : Char :=
  if c = '\u017f' then 's' else if c = '\u0130' || c = '\u0131' then 'i' else lowerLetter c

def lower (text : String) : String := String.ofList (text.toList.map lowerLetter)

def upper (text : String) : String := String.ofList (text.toList.map Char.toUpper)

end DiagramStream.Text
