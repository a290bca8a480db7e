import DiagramStream.Scan.Token
import DiagramStream.Text.Blank

/-!
The tokens of sequence texts. The notation is one of lines: many tokens reach to the end of theirs, and
line ends are tokens themselves.
-/

namespace DiagramStream.Sequence
open Text Scan

inductive Kind where
  | stereotype
  | mark
  | participant
  | deactivate
  | block
  | activate
  | destroy
  | side
  | note
  | otherwise
  | over
  | finish
  | also
  | sideOf
  | arrow
  | noteBody
  | marker
  | blockComment
  | blank
  | delay
  | spacer
  | name
  | text
  | lineEnd
  | quoted
  | separator
  | comment
  | label
  | color
  | comma
deriving DecidableEq, Repr

def Kind.spelling : Kind → String
  | .stereotype => "STEREOTYPE"
  | .mark => "ACTIVATION_MARK"
  | .participant => "PARTICIPANT_KIND"
  | .deactivate => "DEACTIVATE"
  | .block => "BLOCK_KIND"
  | .activate => "ACTIVATE"
  | .destroy => "DESTROY"
  | .side => "NOTE_SIDE"
  | .note => "NOTE"
  | .otherwise => "ELSE"
  | .over => "_OVER"
  | .finish => "END"
  | .also => "_AS"
  | .sideOf => "_OF"
  | .arrow => "ARROW"
  | .noteBody => "NOTE_BODY"
  | .marker => "UML_MARKER"
  | .blockComment => "BLOCK_COMMENT"
  | .blank => "WS_INLINE"
  | .delay => "DELAY"
  | .spacer => "SPACER"
  | .name => "NAME"
  | .text => "TEXT"
  | .lineEnd => "_NL"
  | .quoted => "STRING"
  | .separator => "SEPARATOR"
  | .comment => "COMMENT"
  | .label => "LABEL"
  | .color => "COLOR"
  | .comma => "COMMA"

def Kind.ignored : Kind → Bool
  | .blank => true
  | .marker => true
  | _ => false

-- `<<`, a word character or a quote after optional spacing, and all up to the closing `>>`.
def stereotypeRule : Rule
  | '<' :: '<' :: rest =>
    let spacing := (rest.takeWhile isSpacing).length
    match rest.drop spacing with
    | c :: more =>
      if isWord c || c == '"' then
        let body := (more.takeWhile fun c => c != '>' && c != '\n').length
        if ['>', '>'].isPrefixOf (more.drop body) then 2 + spacing + 1 + body + 2 else 0
      else 0
    | [] => 0
  | _ => 0

-- `++`, or `--` where only a label or the end of the line can follow.
def markRule : Rule
  | '+' :: '+' :: _ => 2
  | '-' :: '-' :: rest =>
    match rest.dropWhile isSpacing with
    | c :: _ => if c == ':' || c == '\n' then 2 else 0
    | [] => 0
  | _ => 0

def isArrowStart (c : Char) : Bool := c == '<' || c == '\\' || c == '/' || c == '-'

def isArrowPart (c : Char) : Bool := isArrowStart c || c == '>'

-- Strokes and heads, with an `x` or `o` at the end that does not begin a word.
def arrowRule : Rule
  | c :: rest =>
    if isArrowStart c then
      let shaft := 1 + (rest.takeWhile isArrowPart).length
      match rest.dropWhile isArrowPart with
      | tip :: more => if (tip == 'x' || tip == 'o') && atWordEnd more then shaft + 1 else shaft
      | [] => shaft
    else 0
  | [] => 0

-- Any line that begins with something to be seen.
def textRule : Rule
  | c :: rest => if isBlank c then 0 else 1 + lineLength rest
  | [] => 0

-- The closing words of a note at the head of a line, up to their last letter.
def noteEndLength (text : List Char) : Nat :=
  let spacing := (text.takeWhile isSpacing).length
  let rest := text.drop spacing
  if "endnote".toList.isPrefixOf rest then spacing + 7
  else if "end note".toList.isPrefixOf rest then spacing + 8
  else 0

-- Line by line to the first that begins with the closing words. `fresh` tells that a line begins here.
def noteBodyLength (fresh : Bool) (count : Nat) : List Char → Nat
  | [] => 0
  | c :: rest =>
    if fresh && noteEndLength (c :: rest) ≠ 0 then count + noteEndLength (c :: rest)
    else noteBodyLength (c = '\n') (count + 1) rest

def noteBodyRule : Rule := noteBodyLength true 0

def quotedRule : Rule
  | '"' :: rest =>
    let body := (rest.takeWhile fun c => c != '"' && c != '\n').length
    match rest.drop body with
    | '"' :: _ => body + 2
    | _ => 0
  | _ => 0

-- A number sign and at least one word character.
def colorRule : Rule
  | '#' :: rest => if wordLength rest = 0 then 0 else 1 + wordLength rest
  | _ => 0

-- A line feed with all blank lines and the indentation that follow it.
def lineEndRule : Rule
  | '\n' :: rest => 1 + (rest.takeWhile fun c => isSpacing c || c == '\n').length
  | _ => 0

def keywords (words : List String) : Rule := .oneOf (words.map fun word => .keyword word.toList)

-- In the order in which they are tried.
def rules : List (Kind × Rule) :=
  [(.stereotype, stereotypeRule),
   (.mark, markRule),
   (.participant, keywords ["participant", "actor", "boundary", "control", "entity", "database",
     "collections", "queue"]),
   (.deactivate, keywords ["deactivate"]),
   (.block, keywords ["alt", "loop", "opt", "par", "group", "critical", "break"]),
   (.activate, keywords ["activate"]),
   (.destroy, keywords ["destroy"]),
   (.side, keywords ["left", "right"]),
   (.note, keywords ["note", "hnote", "rnote"]),
   (.otherwise, keywords ["else"]),
   (.over, keywords ["over"]),
   (.finish, keywords ["end"]),
   (.also, keywords ["as"]),
   (.sideOf, keywords ["of"]),
   (.arrow, arrowRule),
   (.noteBody, noteBodyRule),
   (.marker, .oneOf [.line "@startuml".toList, .line "@enduml".toList]),
   (.blockComment, .enclosed ['/', '\x27'] ['\x27', '/']),
   (.blank, .run isSpacing),
   (.delay, .line ['.', '.', '.']),
   (.spacer, .line ['|', '|', '|']),
   (.name, .word),
   (.text, textRule),
   (.lineEnd, lineEndRule),
   (.quoted, quotedRule),
   (.separator, .line ['=', '=']),
   (.comment, .line ['\x27']),
   (.label, .line [':']),
   (.color, colorRule),
   (.comma, .literal [','])]

-- A name as it was written: bare or in quotes.
structure Name where
  text : String
  quoted : Bool

def nameOf? (token : Token Kind) : Option Name :=
  match token.kind with
  | .name => some ⟨String.ofList token.text, false⟩
  | .quoted => some ⟨String.ofList (token.text.drop 1).dropLast, true⟩
  | _ => none

-- What stands inside a number of characters at either end, without blanks around it.
def stripped (before after : Nat) (text : List Char) : List Char :=
  strip ((text.drop before).take (text.length - before - after))

def condition (text : List Char) : Option String := (strip? text).map String.ofList

def labelOf (text : List Char) : Option String := condition (text.drop 1)

def isSeparatorEdge (c : Char) : Bool := c == '=' || isSpacing c

-- The lines of a note without their outer blanks, less the empty ones at the top and at the bottom.
def noteText (body : List Char) : List Char :=
  let closing := (untilLineFeed body.reverse).length
  let kept := body.take (body.length - closing)
  trim (· == '\n') (joinLines ((lines kept).map strip))

end DiagramStream.Sequence
