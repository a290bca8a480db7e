/-!
Values of the JSON data format. Objects keep the order of their members, and no name comes twice in
an object that was read.
-/

namespace DiagramStream

-- A number written with a fraction or an exponent is kept as the decimal it spells,
-- `mantissa * 10 ^ exponent`. The three words for numbers that are none stand for themselves.
inductive Json where
  | null
  | bool (value : Bool)
  | int (value : Int)
  | decimal (mantissa exponent : Int)
  | nonfinite (word : String)
  | str (value : String)
  | arr (items : List Json)
  | obj (members : List (String × Json))
deriving Inhabited

namespace Json

def nat (value : Nat) : Json := .int value

def strOrNull : Option String → Json
  | none => .null
  | some value => .str value

def intOrNull : Option Int → Json
  | none => .null
  | some value => .int value

def strs (values : List String) : Json := .arr (values.map .str)

-- Looks a name up among the members of an object; other values have none.
def member? (name : String) : Json → Option Json
  | .obj members => (members.find? (·.1 = name)).map Prod.snd
  | _ => none

end Json
end DiagramStream
