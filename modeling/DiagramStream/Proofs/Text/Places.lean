import DiagramStream.Text.Line
import DiagramStream.Text.Position

/-!
Places in the order of reading, and what stands at them. Main statements: behind any text one is further on than before
it, never before the first line or column, and line and column lead back to the character that stands there.
-/

namespace DiagramStream.Text

namespace Position

-- By lines, and within a line by columns.
instance : LT Position := ⟨fun one other => one.line < other.line ∨ (one.line = other.line ∧ one.column < other.column)⟩

variable {one other third place : Position} {text : List Char}

theorem lt_iff : one < other ↔ one.line < other.line ∨ (one.line = other.line ∧ one.column < other.column) := Iff.rfl

theorem lt_trans (first : one < other) (second : other < third) : one < third := by
  rw [lt_iff] at first second ⊢
  omega

theorem lt_after (place : Position) (c : Char) : place < place.after c := by
  rw [lt_iff, after]
  split
  · exact .inl (by dsimp only; omega)
  · exact .inr ⟨rfl, by dsimp only; omega⟩

theorem lt_advance (place : Position) (some_ : text ≠ []) : place < place.advance text := by
  obtain ⟨c, rest, rfl⟩ := List.exists_cons_of_ne_nil some_
  clear some_
  induction rest generalizing place c with
  | nil => exact lt_after place c
  | cons d rest ih => exact lt_trans (lt_after place c) (ih (place.after c) d)

-- Lines and columns count from one.
def Counted (place : Position) : Prop := 1 ≤ place.line ∧ 1 ≤ place.column

theorem start_counted : start.Counted := ⟨Int.le_refl 1, Int.le_refl 1⟩

theorem Counted.advance (counted : place.Counted) (text : List Char) : (place.advance text).Counted := by
  induction text generalizing place with
  | nil => exact counted
  | cons c rest ih =>
    refine ih ?_
    obtain ⟨line, column⟩ := counted
    unfold after
    split
    · exact ⟨by dsimp only; omega, by simp⟩
    · exact ⟨line, by dsimp only; omega⟩

end Position

-- Reading back

def characterAt? (text : List Char) (place : Position) : Option Char :=
  (lines text)[(place.line - 1).toNat]?.bind (·[(place.column - 1).toNat]?)

theorem lines_cons {c : Char} (plain : c ≠ '\n') (rest : List Char) :
    ∃ line more, lines rest = line :: more ∧ lines (c :: rest) = (c :: line) :: more := by
  obtain ⟨line, more, here⟩ : ∃ line more, lines rest = line :: more := by
    fun_cases lines rest with
    | case1 => exact ⟨_, _, rfl⟩
    | case2 => exact ⟨_, _, rfl⟩
    | case3 => exact ⟨_, _, rfl⟩
    | case4 => exact ⟨_, _, rfl⟩
  refine ⟨line, more, here, ?_⟩
  rw [lines, here]
  exact plain

-- How far down and to the right a character stands: only in the first line does the column hang on where the text begins.
theorem lines_advance {c : Char} (seen : c ≠ '\n') (gone rest : List Char) (place : Position) :
    ∃ (row column : Nat) (chosen : List Char),
      (lines (gone ++ c :: rest))[row]? = some chosen ∧ chosen[column]? = some c ∧
        (place.advance gone).line = place.line + row ∧
        (place.advance gone).column = (if row = 0 then place.column else 1) + column := by
  induction gone generalizing place with
  | nil =>
    obtain ⟨line, more, -, here⟩ := lines_cons seen rest
    exact ⟨0, 0, c :: line, by simp [here], rfl, by simp, by simp⟩
  | cons d gone ih =>
    obtain ⟨row, column, chosen, found, at_, down, right⟩ := ih (place.after d)
    by_cases feed : d = '\n'
    · subst feed
      refine ⟨row + 1, column, chosen, found, at_, ?_, ?_⟩
      · rw [Position.advance_cons, down, Position.after, if_pos rfl]
        push_cast
        omega
      · rw [Position.advance_cons, right, Position.after, if_pos rfl]
        simp
    · obtain ⟨first, more, split, joined⟩ := lines_cons feed (gone ++ c :: rest)
      rw [split] at found
      have after : place.after d = ⟨place.line, place.column + 1⟩ := if_neg feed
      rw [after] at down right
      cases row with
      | zero =>
        cases found
        refine ⟨0, column + 1, d :: chosen, by rw [List.cons_append, joined]; rfl, at_, ?_, ?_⟩
        · rw [Position.advance_cons, after, down]
        · rw [Position.advance_cons, after, right]
          simp only [if_true]
          push_cast
          omega
      | succ row =>
        refine ⟨row + 1, column, chosen, by rw [List.cons_append, joined]; exact found, at_, ?_, ?_⟩
        · rw [Position.advance_cons, after, down]
        · rw [Position.advance_cons, after, right]
          simp

theorem characterAt?_advance {c : Char} (seen : c ≠ '\n') (gone rest : List Char) :
    characterAt? (gone ++ c :: rest) (Position.start.advance gone) = some c := by
  obtain ⟨row, column, chosen, found, at_, down, right⟩ := lines_advance seen gone rest Position.start
  have rows : ((Position.start.advance gone).line - 1).toNat = row := by
    rw [down, show Position.start.line = 1 from rfl]
    omega
  have columns : ((Position.start.advance gone).column - 1).toNat = column := by
    rw [right, show Position.start.column = 1 from rfl, ite_self]
    omega
  rw [characterAt?, rows, columns, found]
  exact at_

end DiagramStream.Text
