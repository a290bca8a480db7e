import DiagramStream.Json.Basic
import DiagramStream.Json.Shown
import DiagramStream.Text.Blank

/-!
Checking JSON values against what a reader wants of them. All complaints about a value are gathered,
in the order in which its parts are looked at, each with the path to its part.
-/

namespace DiagramStream.Json

inductive Step where
  | item (index : Nat)
  | member (name : String)
deriving DecidableEq

inductive Complaint where
  | notArray
  | notObject
  | notMapping
  | notText
  | absent
  | untagged (key : String)
  | unknownTag (key shown : String) (tags : List String)
  | otherTag (tag : String)
  | notAmong (names : List String)
  | notInteger
  | unreadInteger
  | fractional
  | infinite
  | hugeInteger

def Complaint.kind : Complaint → String
  | .notArray => "list_type"
  | .notObject => "model_attributes_type"
  | .notMapping => "dict_type"
  | .notText => "string_type"
  | .absent => "missing"
  | .untagged _ => "union_tag_not_found"
  | .unknownTag .. => "union_tag_invalid"
  | .otherTag _ => "literal_error"
  | .notAmong _ => "enum"
  | .notInteger => "int_type"
  | .unreadInteger => "int_parsing"
  | .fractional => "int_from_float"
  | .infinite => "finite_number"
  | .hugeInteger => "int_parsing_size"

def ticked (name : String) : String := "'" ++ name ++ "'"

-- The last name is joined by a word instead of a comma.
def alternatives : List String → String
  | [] => ""
  | [name] => ticked name
  | [name, last] => ticked name ++ " or " ++ ticked last
  | name :: rest => ticked name ++ ", " ++ alternatives rest

def Complaint.message : Complaint → String
  | .notArray => "Input should be a valid list"
  | .notObject => "Input should be a valid dictionary or object to extract fields from"
  | .notMapping => "Input should be a valid dictionary"
  | .notText => "Input should be a valid string"
  | .absent => "Field required"
  | .untagged key => "Unable to extract tag using discriminator " ++ ticked key
  | .unknownTag key shown tags =>
    "Input tag " ++ ticked shown ++ " found using " ++ ticked key
      ++ " does not match any of the expected tags: " ++ ", ".intercalate (tags.map ticked)
  | .otherTag tag => "Input should be " ++ ticked tag
  | .notAmong names => "Input should be " ++ alternatives names
  | .notInteger => "Input should be a valid integer"
  | .unreadInteger => "Input should be a valid integer, unable to parse string as an integer"
  | .fractional => "Input should be a valid integer, got a number with a fractional part"
  | .infinite => "Input should be a finite number"
  | .hugeInteger => "Unable to parse input string as an integer, exceeded maximum size"

-- `value` is the part that was complained about.
structure Issue where
  path : List Step
  complaint : Complaint
  value : Json

def Step.toJson : Step → Json
  | .item index => nat index
  | .member name => .str name

def Issue.toJson (issue : Issue) : Json :=
  .obj [("type", .str issue.complaint.kind), ("loc", .arr (issue.path.map Step.toJson)),
        ("msg", .str issue.complaint.message)]

def Issue.under (step : Step) (issue : Issue) : Issue := { issue with path := step :: issue.path }

abbrev Checked (α : Type) := Except (List Issue) α

def complain {α : Type} (complaint : Complaint) (value : Json) : Checked α := .error [⟨[], complaint, value⟩]

namespace Checked
variable {α β : Type}

-- Complaints of both sides are kept, the left ones first.
def both : Checked α → Checked β → Checked (α × β)
  | .ok a, .ok b => .ok (a, b)
  | .error a, .ok _ => .error a
  | .ok _, .error b => .error b
  | .error a, .error b => .error (a ++ b)

def under (step : Step) : Checked α → Checked α
  | .ok a => .ok a
  | .error issues => .error (issues.map (Issue.under step))

def all : List (Checked α) → Checked (List α)
  | [] => .ok []
  | first :: rest => (both first (all rest)).map fun parts => parts.1 :: parts.2

@[simp] theorem under_ok (step : Step) (a : α) : under step (.ok a) = .ok a := rfl

end Checked

def text : Json → Checked String
  | .str value => .ok value
  | value => complain .notText value

def optionalText : Json → Checked (Option String)
  | .null => .ok none
  | value => value.text.map some

-- Digits, with single underscores allowed between them.
def digitGroups? : List Char → Option (List Char)
  | [] => none
  | [c] => if c.isDigit then some [c] else none
  | c :: '_' :: rest => if c.isDigit then (digitGroups? rest).map (c :: ·) else none
  | c :: rest => if c.isDigit then (digitGroups? rest).map (c :: ·) else none

-- A point followed by zeros only adds nothing to a whole number.
def withoutZeroTail (text : List Char) : List Char :=
  match text.dropWhile (· != '.') with
  | '.' :: zero :: rest =>
    if (zero :: rest).all (· == '0') then text.takeWhile (· != '.') else text
  | _ => text

-- The separators among the blanks do not count here.
def isOuterBlank (c : Char) : Bool := Text.isBlank c && !(0x1c ≤ c.toNat && c.toNat < 0x20)

def spelledInteger? (text : String) : Option Int :=
  let value (negative : Bool) (digits : List Char) : Option Int :=
    (digitGroups? (withoutZeroTail digits)).map fun digits =>
      let size : Int := digits.foldl (fun sum c => 10 * sum + (c.toNat - '0'.toNat)) 0
      if negative then -size else size
  match Text.trim isOuterBlank text.toList with
  | '-' :: rest => value true rest
  | '+' :: rest => value false rest
  | digits => value false digits

-- Decimals count by the nearest binary number of double precision.
def nearestFloat (mantissa exponent : Int) : Float :=
  let size := if exponent < 0 then Float.ofScientific mantissa.natAbs true exponent.natAbs
    else Float.ofScientific mantissa.natAbs false exponent.natAbs
  if mantissa < 0 then -size else size

-- Whole numbers in any of the spellings that stand for one.
def integer : Json → Checked Int
  | .int value => .ok value
  | .bool true => .ok 1
  | .bool false => .ok 0
  | .decimal mantissa exponent =>
    let number := nearestFloat mantissa exponent
    if number.isInf then complain .infinite (.decimal mantissa exponent)
    else if number.floor != number then complain .fractional (.decimal mantissa exponent)
    else if number.abs < 9223372036854775808.0 then .ok number.toInt64.toInt
    else complain .hugeInteger (.decimal mantissa exponent)
  | .nonfinite word => complain .infinite (.nonfinite word)
  | .str value =>
    match spelledInteger? value with
    | some number => .ok number
    | none => complain .unreadInteger (.str value)
  | value => complain .notInteger value

def optionalInteger : Json → Checked (Option Int)
  | .null => .ok none
  | value => value.integer.map some

-- A text that names one of the values in a list.
def named {α : Type} (name : α → String) (values : List α) (value : Json) : Checked α :=
  match value with
  | .str text =>
    match values.find? (name · = text) with
    | some found => .ok found
    | none => complain (.notAmong (values.map name)) value
  | _ => complain (.notAmong (values.map name)) value

-- What an object holds under a name, checked; complaints carry the name.
def required {α : Type} (name : String) (check : Json → Checked α) (value : Json) : Checked α :=
  Checked.under (.member name) <|
    match value.member? name with
    | some part => check part
    | none => complain .absent value

def defaulted {α : Type} (name : String) (default : α) (check : Json → Checked α) (value : Json) : Checked α :=
  Checked.under (.member name) <|
    match value.member? name with
    | some part => check part
    | none => .ok default

end DiagramStream.Json
