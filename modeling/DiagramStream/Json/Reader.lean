import DiagramStream.Json.Basic
import DiagramStream.Table

/-!
Reading JSON text. What is refused is reported with its cause and place; the place is kept as the
number of characters that were still to come, from which line and column follow.
-/

namespace DiagramStream.Json

inductive Flaw where
  | byteOrderMark
  | value
  | memberName
  | colon
  | comma
  | extra
  | unclosedText
  | control
  | escape
  | codeEscape
deriving DecidableEq

structure Refusal where
  flaw : Flaw
  left : Nat

def Flaw.message : Flaw → String
  | .byteOrderMark => "Unexpected UTF-8 BOM (decode using utf-8-sig)"
  | .value => "Expecting value"
  | .memberName => "Expecting property name enclosed in double quotes"
  | .colon => "Expecting ':' delimiter"
  | .comma => "Expecting ',' delimiter"
  | .extra => "Extra data"
  | .unclosedText => "Unterminated string starting at"
  | .control => "Invalid control character at"
  | .escape => "Invalid \\escape"
  | .codeEscape => "Invalid \\uXXXX escape"

-- Lines and columns count from one, characters from zero.
def Refusal.message (refusal : Refusal) (text : List Char) : String :=
  let before := text.take (text.length - refusal.left)
  let line := before.count '\n' + 1
  let column := (before.reverse.takeWhile (· != '\n')).length + 1
  refusal.flaw.message ++ ": line " ++ toString line ++ " column " ++ toString column
    ++ " (char " ++ toString before.length ++ ")"

abbrev Read (α : Type) := Except Refusal (α × List Char)

def refuse {α : Type} (flaw : Flaw) (rest : List Char) : Except Refusal α :=
  .error ⟨flaw, rest.length⟩

def isSpace (c : Char) : Bool := c == ' ' || c == '\t' || c == '\n' || c == '\r'

def skipSpace (text : List Char) : List Char := text.dropWhile isSpace

def isDigit (c : Char) : Bool := '0' ≤ c && c ≤ '9'

def hexValue? (c : Char) : Option Nat :=
  if '0' ≤ c && c ≤ '9' then some (c.toNat - '0'.toNat)
  else if 'a' ≤ c && c ≤ 'f' then some (c.toNat - 'a'.toNat + 10)
  else if 'A' ≤ c && c ≤ 'F' then some (c.toNat - 'A'.toNat + 10)
  else none

-- The four digits of a code escape. A character has to follow them, if only the closing quote.
def hexUnit? : List Char → Option Nat
  | a :: b :: c :: d :: _ :: _ => do
    return ((← hexValue? a) * 16 + (← hexValue? b)) * 256 + (← hexValue? c) * 16 + (← hexValue? d)
  | _ => none

def isHighSurrogate (unit : Nat) : Bool := 0xd800 ≤ unit && unit < 0xdc00

def isLowSurrogate (unit : Nat) : Bool := 0xdc00 ≤ unit && unit < 0xe000

-- Half of a surrogate pair is no character; the replacement character stands in for it.
def unitChar (unit : Nat) : Char :=
  if isHighSurrogate unit || isLowSurrogate unit then '\ufffd' else Char.ofNat unit

def pairChar (high low : Nat) : Char :=
  Char.ofNat (0x10000 + (high - 0xd800) * 0x400 + (low - 0xdc00))

def shortEscape? : Char → Option Char
  | '"' => some '"'
  | '\\' => some '\\'
  | '/' => some '/'
  | 'b' => some '\x08'
  | 'f' => some '\x0c'
  | 'n' => some '\n'
  | 'r' => some '\r'
  | 't' => some '\t'
  | _ => none

-- What the escape at the head of the text (after its backslash) stands for, and how many characters
-- it takes after the backslash.
def readEscape (text : List Char) : Except Refusal (Char × Nat) :=
  match text with
  | 'u' :: rest =>
    match hexUnit? rest with
    | none => refuse .codeEscape text
    | some unit =>
      match isHighSurrogate unit, rest.drop 4 with
      | true, '\\' :: 'u' :: more =>
        if more.length < 5 then .ok (unitChar unit, 5)
        else match hexUnit? more with
          | none => refuse .codeEscape ('u' :: more)
          | some low => if isLowSurrogate low then .ok (pairChar unit low, 11) else .ok (unitChar unit, 5)
      | _, _ => .ok (unitChar unit, 5)
  | c :: _ =>
    match shortEscape? c with
    | some meant => .ok (meant, 1)
    | none => refuse .escape ('\\' :: text)
  | [] => refuse .escape text

-- The rest of a quoted text. `opened` is what was to come at its opening quote, `skip` how many
-- characters an escape has already accounted for, and `sum` the characters so far, last one first.
def readText (opened : Nat) (sum : List Char) (skip : Nat) : List Char → Read String
  | [] => .error ⟨.unclosedText, opened⟩
  | c :: rest =>
    match skip with
    | skip + 1 => readText opened sum skip rest
    | 0 =>
      if c == '"' then .ok (String.ofList sum.reverse, rest)
      else if c == '\\' then
        if rest.isEmpty then .error ⟨.unclosedText, opened⟩
        else match readEscape rest with
          | .error refusal => .error refusal
          | .ok (meant, taken) => readText opened (meant :: sum) taken rest
      else if c.toNat < 0x20 then refuse .control (c :: rest)
      else readText opened (c :: sum) 0 rest

def digitsValue (digits : List Char) : Nat :=
  digits.foldl (fun sum c => 10 * sum + (c.toNat - '0'.toNat)) 0

def signed (negative : Bool) (value : Nat) : Int := if negative then -(value : Int) else value

-- The exponent part, if one is there: its value and what follows.
def readExponent (text : List Char) : Option (Int × List Char) :=
  let read (negative : Bool) (rest : List Char) : Option (Int × List Char) :=
    match rest.takeWhile isDigit with
    | [] => none
    | digits => some (signed negative (digitsValue digits), rest.dropWhile isDigit)
  match text with
  | e :: rest =>
    if e == 'e' || e == 'E' then
      match rest with
      | '-' :: more => read true more
      | '+' :: more => read false more
      | more => read false more
    else none
  | [] => none

def readFraction (text : List Char) : List Char × List Char :=
  match text with
  | '.' :: rest => (rest.takeWhile isDigit, if (rest.takeWhile isDigit).isEmpty then text else rest.dropWhile isDigit)
  | _ => ([], text)

-- A leading zero is a number of its own.
def readWhole (text : List Char) : List Char × List Char :=
  match text with
  | '0' :: rest => (['0'], rest)
  | _ => (text.takeWhile isDigit, text.dropWhile isDigit)

def readNumber (start : List Char) (negative : Bool) (text : List Char) : Read Json :=
  match readWhole text with
  | ([], _) => refuse .value start
  | (whole, rest) =>
    let (fraction, rest) := readFraction rest
    match readExponent rest with
    | none =>
      if fraction.isEmpty then .ok (.int (signed negative (digitsValue whole)), rest)
      else .ok (.decimal (signed negative (digitsValue (whole ++ fraction))) (-(fraction.length : Int)), rest)
    | some (exponent, rest) =>
      .ok (.decimal (signed negative (digitsValue (whole ++ fraction))) (exponent - fraction.length), rest)

-- The words of the format, and the three number words that are read beside it.
def words : List (List Char × Json) :=
  [("null".toList, .null), ("true".toList, .bool true), ("false".toList, .bool false),
   ("NaN".toList, .nonfinite "NaN"), ("Infinity".toList, .nonfinite "Infinity"),
   ("-Infinity".toList, .nonfinite "-Infinity")]

def readLeaf (text : List Char) : Read Json :=
  match words.find? fun word => word.1.isPrefixOf text with
  | some (word, value) => .ok (value, text.drop word.length)
  | none =>
    match text with
    | '-' :: rest => readNumber text true rest
    | _ => readNumber text false text

mutual
-- The first argument bounds the nesting and the number of parts; `parse` gives more than any text needs.
def readValue : Nat → List Char → Read Json
  | 0, text => refuse .value text
  | fuel + 1, text =>
    match text with
    | '"' :: rest =>
      match readText text.length [] 0 rest with
      | .error refusal => .error refusal
      | .ok (value, rest) => .ok (.str value, rest)
    | '[' :: rest =>
      match skipSpace rest with
      | ']' :: rest => .ok (.arr [], rest)
      | rest => readItems fuel [] rest
    | '\x7b' :: rest =>
      match skipSpace rest with
      | '\x7d' :: rest => .ok (.obj [], rest)
      | rest => readMembers fuel [] rest
    | _ => readLeaf text

-- The items so far come last one first.
def readItems : Nat → List Json → List Char → Read Json
  | 0, _, text => refuse .value text
  | fuel + 1, items, text =>
    match readValue fuel text with
    | .error refusal => .error refusal
    | .ok (item, rest) =>
      match skipSpace rest with
      | ']' :: rest => .ok (.arr (item :: items).reverse, rest)
      | ',' :: rest => readItems fuel (item :: items) (skipSpace rest)
      | rest => refuse .comma rest

-- A name that comes again takes the later value.
def readMembers : Nat → List (String × Json) → List Char → Read Json
  | 0, _, text => refuse .value text
  | fuel + 1, members, text =>
    match text with
    | '"' :: rest =>
      match readText text.length [] 0 rest with
      | .error refusal => .error refusal
      | .ok (name, rest) =>
        match skipSpace rest with
        | ':' :: rest =>
          match readValue fuel (skipSpace rest) with
          | .error refusal => .error refusal
          | .ok (value, rest) =>
            match skipSpace rest with
            | '\x7d' :: rest => .ok (.obj (Table.write name value members), rest)
            | ',' :: rest => readMembers fuel (Table.write name value members) (skipSpace rest)
            | rest => refuse .comma rest
        | rest => refuse .colon rest
    | _ => refuse .memberName text
end

def parseChars (text : List Char) : Except Refusal Json :=
  if text.head? = some '\ufeff' then refuse .byteOrderMark text
  else match readValue (2 * text.length + 2) (skipSpace text) with
    | .error refusal => .error refusal
    | .ok (value, rest) =>
      match skipSpace rest with
      | [] => .ok value
      | rest => refuse .extra rest

-- Refusals come back worded.
def parse (text : String) : Except String Json :=
  match parseChars text.toList with
  | .ok value => .ok value
  | .error refusal => .error (refusal.message text.toList)

end DiagramStream.Json
