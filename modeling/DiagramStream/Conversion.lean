import DiagramStream.Dot.Grammar
import DiagramStream.Sequence.Grammar
import DiagramStream.Narration.Document

/-!
From text to events. A text whose format is not given is a graph if some line of it begins like the
head of one, and a sequence diagram otherwise.
-/

namespace DiagramStream.Conversion
open Text

def dropFolded? (word : List Char) (text : List Char) : Option (List Char) :=
  if (text.take word.length).map foldLetter = word then some (text.drop word.length) else none

def skipBlanks (text : List Char) : List Char := text.dropWhile isBlank

-- `strict` counts only with a blank after it.
def skipStrict (text : List Char) : List Char :=
  match dropFolded? "strict".toList text with
  | some (c :: rest) => if isBlank c then skipBlanks rest else text
  | _ => text

-- The graph's name: quoted, or made of word characters and points. None is also one.
def skipName (text : List Char) : List Char :=
  match text with
  | '"' :: rest =>
    match rest.dropWhile (· != '"') with
    | _ :: more => more
    | [] => text
  | _ => text.dropWhile fun c => isWord c || c == '.'

def beginsGraph (text : List Char) : Bool :=
  let text := skipStrict (skipBlanks text)
  let text := (dropFolded? "di".toList text).getD text
  match dropFolded? "graph".toList text with
  | none => false
  | some rest => atWordEnd rest && (skipBlanks (skipName (skipBlanks rest))).head? = some '\x7b'

-- `fresh` tells that a line begins here.
def someLine (test : List Char → Bool) (fresh : Bool) : List Char → Bool
  | [] => fresh && test []
  | c :: rest => (fresh && test (c :: rest)) || someLine test (c = '\n') rest

def detect (text : String) : Format :=
  if someLine beginsGraph true text.toList then .dot else .sequence

-- An empty name counts as none given.
def chooseFormat (text : String) (name : Option String) : Except Failure Format :=
  match Roster.given name with
  | none => .ok (detect text)
  | some name =>
    match Format.ofName? name with
    | some format => .ok format
    | none => .error (.unknownFormat name)

def parse (text : String) : Format → Except Failure Document
  | .dot => Dot.parse text
  | .sequence => Sequence.parse text

def document (text : String) (format : Option String) : Except Failure Document :=
  match chooseFormat text format with
  | .error failure => .error failure
  | .ok format => parse text format

def batchingNamed (name : String) : Except Failure Batching :=
  match Batching.ofName? name with
  | some batching => .ok batching
  | none => .error (.unknownBatching name)

def defaultBatching : Batching := .diagram

def chooseBatching (name : Option String) : Except Failure Batching :=
  match Roster.given name with
  | none => .ok defaultBatching
  | some name => batchingNamed name

-- The text is read before the batching is looked at, and told only after that.
def narrate (text : String) (format batching : Option String) : Except Failure Narration :=
  match document text format with
  | .error failure => .error failure
  | .ok document =>
    match chooseBatching batching with
    | .error failure => .error failure
    | .ok batching => Narration.ofDocument document batching

def events (text : String) (format batching : Option String) : Except Failure (List Event) :=
  (narrate text format batching).map Narration.events

end DiagramStream.Conversion
