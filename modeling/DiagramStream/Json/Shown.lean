import DiagramStream.Json.Basic
import DiagramStream.Text.Quoted

/-!
Values as messages show them: texts quoted inside arrays and objects and bare on their own, the words
`None`, `True` and `False`, and decimals by their digits.
-/

namespace DiagramStream.Json
open Text

-- Significant digits without the zeros at their end, and the power of ten they gain by that.
def significant : Nat → Nat → Int → Nat × Int
  | 0, digits, exponent => (digits, exponent)
  | fuel + 1, digits, exponent =>
    if digits % 10 = 0 && digits != 0 then significant fuel (digits / 10) (exponent + 1)
    else (digits, exponent)

def zeros (count : Nat) : String := String.ofList (List.replicate count '0')

-- Positional from four places after the point up to sixteen before it, and with an exponent beyond.
def shownDecimal (mantissa exponent : Int) : String :=
  let sign := if mantissa < 0 then "-" else ""
  let (digits, exponent) := significant (toString mantissa.natAbs).length mantissa.natAbs exponent
  let text := toString digits
  let places : Int := text.length + exponent
  if digits = 0 then sign ++ "0.0"
  else if 0 < places && places ≤ 16 then
    if 0 ≤ exponent then sign ++ text ++ zeros exponent.toNat ++ ".0"
    else sign ++ String.ofList (text.toList.take places.toNat) ++ "."
      ++ String.ofList (text.toList.drop places.toNat)
  else if -4 < places && places ≤ 0 then sign ++ "0." ++ zeros (-places).toNat ++ text
  else
    let power := places - 1
    let size := toString power.natAbs
    sign ++ String.ofList (text.toList.take 1)
      ++ (if text.length = 1 then "" else "." ++ String.ofList (text.toList.drop 1))
      ++ "e" ++ (if power < 0 then "-" else "+") ++ (if size.length = 1 then "0" ++ size else size)

def shownWord (word : String) : String :=
  if word = "NaN" then "nan" else if word = "Infinity" then "inf" else "-inf"

mutual
-- Inside arrays and objects.
def shown : Json → String
  | .null => "None"
  | .bool true => "True"
  | .bool false => "False"
  | .int value => toString value
  | .decimal mantissa exponent => shownDecimal mantissa exponent
  | .nonfinite word => shownWord word
  | .str value => quoted value
  | .arr items => "[" ++ shownItems items ++ "]"
  | .obj members => "\x7b" ++ shownMembers members ++ "\x7d"

def shownItems : List Json → String
  | [] => ""
  | [item] => shown item
  | item :: rest => shown item ++ ", " ++ shownItems rest

def shownMembers : List (String × Json) → String
  | [] => ""
  | [(name, value)] => quoted name ++ ": " ++ shown value
  | (name, value) :: rest => quoted name ++ ": " ++ shown value ++ ", " ++ shownMembers rest
end

-- On its own.
def bare : Json → String
  | .str value => value
  | value => value.shown

end DiagramStream.Json
