import DiagramStream.Scan.Token
import DiagramStream.Text.Blank

/-!
The tokens of graph texts. Keywords come in any case; an id is a word, a number, a quoted text or an
HTML text.
-/

namespace DiagramStream.Dot
open Text Scan

inductive Kind where
  | subgraph
  | digraph
  | strict
  | graph
  | edge
  | node
  | html
  | numeral
  | blockComment
  | quoted
  | blank
  | word
  | lineComment
  | hashComment
  | operator
  | colon
  | comma
  | equals
  | leftBrace
  | leftBracket
  | rightBrace
  | rightBracket
  | semicolon
deriving DecidableEq, Repr

def Kind.spelling : Kind → String
  | .subgraph => "SUBGRAPH"
  | .digraph => "DIGRAPH"
  | .strict => "STRICT"
  | .graph => "GRAPH"
  | .edge => "EDGE"
  | .node => "NODE"
  | .html => "HTML_STRING"
  | .numeral => "NUMERAL"
  | .blockComment => "BLOCK_COMMENT"
  | .quoted => "STRING"
  | .blank => "WS"
  | .word => "ID"
  | .lineComment => "LINE_COMMENT"
  | .hashComment => "PREPROCESSOR"
  | .operator => "EDGE_OP"
  | .colon => "COLON"
  | .comma => "COMMA"
  | .equals => "EQUAL"
  | .leftBrace => "LBRACE"
  | .leftBracket => "LSQB"
  | .rightBrace => "RBRACE"
  | .rightBracket => "RSQB"
  | .semicolon => "SEMICOLON"

def Kind.ignored : Kind → Bool
  | .blank => true
  | .blockComment => true
  | .lineComment => true
  | .hashComment => true
  | _ => false

def Kind.isId : Kind → Bool
  | .html => true
  | .numeral => true
  | .quoted => true
  | .word => true
  | _ => false

-- Inside an HTML text one level of angle brackets may stand. `inner` tells whether one is open.
def htmlLength (inner : Bool) (count : Nat) : List Char → Nat
  | [] => 0
  | c :: rest =>
    if c = '<' then (if inner then 0 else htmlLength true (count + 1) rest)
    else if c = '>' then (if inner then htmlLength false (count + 1) rest else count + 1)
    else htmlLength inner (count + 1) rest

def htmlRule : Rule
  | '<' :: rest => htmlLength false 1 rest
  | _ => 0

def decimalLength (text : List Char) : Nat := (text.takeWhile isDecimal).length

-- Digits with an optional point after or among them, or a point with digits after it.
def unsignedLength (text : List Char) : Nat :=
  match text with
  | '.' :: rest => if decimalLength rest = 0 then 0 else 1 + decimalLength rest
  | _ =>
    let whole := decimalLength text
    if whole = 0 then 0
    else match text.drop whole with
      | '.' :: rest => whole + 1 + decimalLength rest
      | _ => whole

def numeralRule : Rule
  | '-' :: rest => if unsignedLength rest = 0 then 0 else 1 + unsignedLength rest
  | text => unsignedLength text

-- A backslash takes the next character with it, which may not be a line feed. `escaped` tells that
-- one stands before.
def quotedLength (escaped : Bool) (count : Nat) : List Char → Nat
  | [] => 0
  | c :: rest =>
    if escaped then (if c = '\n' then 0 else quotedLength false (count + 1) rest)
    else if c = '\\' then quotedLength true (count + 1) rest
    else if c = '"' then count + 1
    else quotedLength false (count + 1) rest

def quotedRule : Rule
  | '"' :: rest => quotedLength false 1 rest
  | _ => 0

def isGap (c : Char) : Bool := isSpacing c || c == '\x0c' || c == '\r' || c == '\n'

-- In the order in which they are tried.
def rules : List (Kind × Rule) :=
  [(.subgraph, .anyCase "subgraph".toList),
   (.digraph, .anyCase "digraph".toList),
   (.strict, .anyCase "strict".toList),
   (.graph, .anyCase "graph".toList),
   (.edge, .anyCase "edge".toList),
   (.node, .anyCase "node".toList),
   (.html, htmlRule),
   (.numeral, numeralRule),
   (.blockComment, .enclosed ['/', '*'] ['*', '/']),
   (.quoted, quotedRule),
   (.blank, .run isGap),
   (.word, .word),
   (.lineComment, .line ['/', '/']),
   (.hashComment, .line ['#']),
   (.operator, .oneOf [.literal ['-', '>'], .literal ['-', '-']]),
   (.colon, .literal [':']),
   (.comma, .literal [',']),
   (.equals, .literal ['=']),
   (.leftBrace, .literal ['\x7b']),
   (.leftBracket, .literal ['[']),
   (.rightBrace, .literal ['\x7d']),
   (.rightBracket, .literal [']']),
   (.semicolon, .literal [';'])]

-- A backslash at the end of a line joins it to the next.
def joinContinued : List Char → List Char
  | '\\' :: '\n' :: rest => joinContinued rest
  | '\\' :: '\r' :: '\n' :: rest => joinContinued rest
  | c :: rest => c :: joinContinued rest
  | [] => []

-- An escaped quote is a quote; every other backslash stays.
def bareQuotes : List Char → List Char
  | '\\' :: '"' :: rest => '"' :: bareQuotes rest
  | c :: rest => c :: bareQuotes rest
  | [] => []

def inner (text : List Char) : List Char := (text.drop 1).dropLast

-- What an id token stands for.
def idText (token : Token Kind) : String :=
  String.ofList <| match token.kind with
    | .quoted => bareQuotes (joinContinued (inner token.text))
    | .html => inner token.text
    | _ => token.text

end DiagramStream.Dot
