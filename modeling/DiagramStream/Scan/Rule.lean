import DiagramStream.Text.Word
import DiagramStream.Text.Line
import DiagramStream.Text.Case

/-!
Rules for the words of a notation. A rule looks at the head of a text and says how many characters it
takes there, none when it does not apply.
-/

namespace DiagramStream.Scan
open Text

abbrev Rule := List Char → Nat

namespace Rule

def literal (word : List Char) : Rule := fun text =>
  if word.isPrefixOf text then word.length else 0

-- A word that has to end where it ends.
def keyword (word : List Char) : Rule := fun text =>
  if word.isPrefixOf text && atWordEnd (text.drop word.length) then word.length else 0

-- The same without regard to case; the word is given in small letters.
def anyCase (word : List Char) : Rule := fun text =>
  if (text.take word.length).map foldLetter = word && atWordEnd (text.drop word.length) then word.length
  else 0

-- The first rule that applies.
def oneOf (rules : List Rule) : Rule := fun text =>
  (rules.find? fun rule => rule text ≠ 0).elim 0 fun rule => rule text

def run (takes : Char → Bool) : Rule := fun text => (text.takeWhile takes).length

-- A literal and the rest of its line.
def line (word : List Char) : Rule := fun text =>
  if word.isPrefixOf text then word.length + lineLength (text.drop word.length) else 0

def word : Rule
  | [] => 0
  | c :: rest => if isWordStart c then 1 + wordLength rest else 0

-- How many characters there are up to the end of the first occurrence of `closer`.
def through (closer : List Char) (count : Nat) : List Char → Nat
  | [] => 0
  | c :: rest => if closer.isPrefixOf (c :: rest) then count + closer.length else through closer (count + 1) rest

-- Two marks and all between them.
def enclosed (opener closer : List Char) : Rule := fun text =>
  if opener.isPrefixOf text then through closer opener.length (text.drop opener.length) else 0

end Rule
end DiagramStream.Scan
