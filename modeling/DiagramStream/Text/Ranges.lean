/-!
Character classes given as code point ranges, the form in which the tables of this folder are kept.
-/

namespace DiagramStream.Text

-- Both ends of a range belong to it.
abbrev Ranges := List (Nat × Nat)

def Ranges.has (ranges : Ranges) (c : Char) : Bool :=
  ranges.any fun range => range.1 ≤ c.toNat && c.toNat ≤ range.2

end DiagramStream.Text
