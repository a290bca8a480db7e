import DiagramStream.Scan.Rule
import DiagramStream.Text.Position

/-!
Finding the next token of a text. Which kinds of token are looked for depends on what was read
before; among those the first applicable rule of a fixed order decides, however short its match.
-/

namespace DiagramStream.Scan
open Text

-- What is still to be read, and where that is.
structure Cursor where
  rest : List Char
  position : Position
  offset : Nat

def Cursor.start (text : List Char) : Cursor := ⟨text, Position.start, 0⟩

def Cursor.skip (cursor : Cursor) (count : Nat) : Cursor :=
  ⟨cursor.rest.drop count, cursor.position.advance (cursor.rest.take count), cursor.offset + count⟩

theorem Cursor.skip_shorter (cursor : Cursor) (count : Nat) (more : cursor.rest ≠ []) :
    (cursor.skip (count + 1)).rest.length < cursor.rest.length := by
  have : 0 < cursor.rest.length := List.length_pos_iff.2 more
  simp only [Cursor.skip, List.length_drop]
  omega

structure Token (κ : Type) where
  kind : κ
  text : List Char
  position : Position
  offset : Nat

variable {κ : Type}

-- The number beside the kind is one less than the length of the match.
def firstMatch (rules : List (κ × Rule)) (wanted : κ → Bool) (text : List Char) : Option (κ × Nat) :=
  rules.findSome? fun rule =>
    if wanted rule.1 then
      match rule.2 text with
      | 0 => none
      | count + 1 => some (rule.1, count)
    else none

inductive Next (κ : Type) where
  | finished
  | stuck (place : Cursor)
  | token (token : Token κ) (after : Cursor)

-- Blanks and comments are passed over.
def next (rules : List (κ × Rule)) (ignored wanted : κ → Bool) (cursor : Cursor) : Next κ :=
  if _ : cursor.rest = [] then .finished
  else
    match firstMatch rules (fun kind => ignored kind || wanted kind) cursor.rest with
    | none => .stuck cursor
    | some (kind, count) =>
      if ignored kind then next rules ignored wanted (cursor.skip (count + 1))
      else .token ⟨kind, cursor.rest.take (count + 1), cursor.position, cursor.offset⟩ (cursor.skip (count + 1))
termination_by cursor.rest.length
decreasing_by exact cursor.skip_shorter _ ‹_›

theorem next_shorter (rules : List (κ × Rule)) (ignored wanted : κ → Bool) (cursor : Cursor)
    {token : Token κ} {after : Cursor} (found : next rules ignored wanted cursor = .token token after) :
    after.rest.length < cursor.rest.length := by
  fun_induction next rules ignored wanted cursor with
  | case1 => cases found
  | case2 => cases found
  | case3 cursor more kind count _ _ ih =>
    exact Nat.lt_trans (ih found) (cursor.skip_shorter count more)
  | case4 cursor more kind count _ _ =>
    cases found
    exact cursor.skip_shorter count more

end DiagramStream.Scan
