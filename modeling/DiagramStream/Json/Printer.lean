import DiagramStream.Json.Basic
import DiagramStream.Text.Quoted

/-!
Written JSON: on one line, or laid out over lines with two blanks for each level. Characters outside
the printable ASCII range are escaped, the high ones as surrogate pairs.
-/

namespace DiagramStream.Json
open Text

def escapedUnit (unit : Nat) : List Char := '\\' :: 'u' :: hexDigits 4 unit

def escapedChar (c : Char) : List Char :=
  if c == '"' || c == '\\' then ['\\', c]
  else if c == '\n' then ['\\', 'n']
  else if c == '\r' then ['\\', 'r']
  else if c == '\t' then ['\\', 't']
  else if c.toNat = 0x8 then ['\\', 'b']
  else if c.toNat = 0xc then ['\\', 'f']
  else if 0x20 ≤ c.toNat && c.toNat < 0x7f then [c]
  else if c.toNat < 0x10000 then escapedUnit c.toNat
  else
    let offset := c.toNat - 0x10000
    escapedUnit (0xd800 + offset / 0x400) ++ escapedUnit (0xdc00 + offset % 0x400)

def escaped (text : String) : String :=
  String.ofList ('"' :: text.toList.flatMap escapedChar ++ ['"'])

-- Values without parts are written alike in both layouts.
def renderLeaf : Json → String
  | .null => "null"
  | .bool true => "true"
  | .bool false => "false"
  | .int value => toString value
  | .decimal mantissa exponent => toString mantissa ++ "e" ++ toString exponent
  | .nonfinite word => word
  | .str value => escaped value
  | _ => ""

mutual
-- One line, with a blank after each comma and colon.
def render : Json → String
  | .arr items => "[" ++ renderItems items ++ "]"
  | .obj members => "\x7b" ++ renderMembers members ++ "\x7d"
  | leaf => renderLeaf leaf

def renderItems : List Json → String
  | [] => ""
  | [item] => render item
  | item :: rest => render item ++ ", " ++ renderItems rest

def renderMembers : List (String × Json) → String
  | [] => ""
  | [(name, value)] => escaped name ++ ": " ++ render value
  | (name, value) :: rest => escaped name ++ ": " ++ render value ++ ", " ++ renderMembers rest
end

def indentation (level : Nat) : String := "\n" ++ String.ofList (List.replicate (2 * level) ' ')

mutual
-- Each item and member on a line of its own. Empty arrays and objects stay closed.
def pretty (level : Nat) : Json → String
  | .arr [] => "[]"
  | .arr items => "[" ++ prettyItems (level + 1) items ++ indentation level ++ "]"
  | .obj [] => "\x7b\x7d"
  | .obj members => "\x7b" ++ prettyMembers (level + 1) members ++ indentation level ++ "\x7d"
  | leaf => renderLeaf leaf

def prettyItems (level : Nat) : List Json → String
  | [] => ""
  | [item] => indentation level ++ pretty level item
  | item :: rest => indentation level ++ pretty level item ++ "," ++ prettyItems level rest

def prettyMembers (level : Nat) : List (String × Json) → String
  | [] => ""
  | [(name, value)] => indentation level ++ escaped name ++ ": " ++ pretty level value
  | (name, value) :: rest =>
    indentation level ++ escaped name ++ ": " ++ pretty level value ++ "," ++ prettyMembers level rest
end

end DiagramStream.Json
