import Mathlib.Data.List.TakeWhile
import DiagramStream.Narration.Graph

/-!
The level of a node statement. Main statements: it is read exactly when it is no run of digits, or one of decimal
digits that is not too long; and where it is not read the failure tells of the level.
-/

namespace DiagramStream

-- A level that looks like a number is one, and not too long.
def ReadableLevel (level : String) : Prop :=
  level.toList.all Text.isDigit = true →
    level.toList.all Text.isDecimal = true ∧ level.toList.length ≤ Failure.levelLimit

-- The two ways in which a level is not read.
def Failure.ofLevel : Failure → Bool
  | .levelNotDecimal _ => true
  | .levelTooLong _ => true
  | _ => false

theorem decimalValue?_isSome (c : Char) : (Text.decimalValue? c).isSome = Text.isDecimal c := by
  rw [Text.decimalValue?, Option.isSome_map]
  exact List.isSome_find?

theorem readDecimal?_isSome (text : List Char) : (Text.readDecimal? text).isSome = text.all Text.isDecimal := by
  have onward (sum : Option Nat) :
      (text.foldl (fun sum c => do return 10 * (← sum) + (← Text.decimalValue? c)) sum).isSome =
        (sum.isSome && text.all Text.isDecimal) := by
    induction text generalizing sum with
    | nil => simp
    | cons c rest ih =>
      rw [List.foldl_cons, ih, List.all_cons, ← decimalValue?_isSome c, ← Bool.and_assoc]
      congr 1
      cases sum <;> cases Text.decimalValue? c <;> rfl
  exact onward (some 0)

namespace Narration

theorem layer?_ok_iff {level : String} : (∃ layer, layer? level = .ok layer) ↔ ReadableLevel level := by
  unfold layer? ReadableLevel
  dsimp only
  generalize level.toList = text
  by_cases empty : text = []
  · simp [empty]
  by_cases digits : text.all Text.isDigit = true
  · have number : ¬(text.isEmpty || !text.all Text.isDigit) = true := by simp [empty, digits]
    rw [if_neg number]
    by_cases decimal : text.all Text.isDecimal = true
    · have places : text.takeWhile Text.isDecimal = text :=
        List.takeWhile_eq_self_iff.2 (List.all_eq_true.1 decimal)
      obtain ⟨value, read⟩ := Option.isSome_iff_exists.1 ((readDecimal?_isSome text).trans decimal)
      simp only [places, read, digits, decimal, true_and, true_implies]
      split <;> simp <;> omega
    · have unread : Text.readDecimal? text = none :=
        Option.not_isSome_iff_eq_none.1 (by rwa [readDecimal?_isSome])
      simp only [unread, digits, decimal]
      split <;> simp
  · simp [digits]

theorem ownAttrs_ok_iff {attrs : Attrs} :
    (∃ own, ownAttrs attrs = .ok own) ↔ ∀ level, attrs.get? "level" = some level → ReadableLevel level := by
  unfold ownAttrs
  cases given : attrs.get? "level" with
  | none => simp
  | some level =>
    simp only [Option.some.injEq, forall_eq', ← layer?_ok_iff]
    cases layer? level with
    | error failure => simp
    | ok layer => cases layer <;> simp

theorem layer?_error {level : String} {failure : Failure} (failed : layer? level = .error failure) :
    failure.ofLevel = true := by
  unfold layer? at failed
  dsimp only at failed
  repeat' split at failed
  all_goals cases failed
  all_goals rfl

theorem ownAttrs_error {attrs : Attrs} {failure : Failure} (failed : ownAttrs attrs = .error failure) :
    failure.ofLevel = true := by
  unfold ownAttrs at failed
  repeat' split at failed
  all_goals cases failed
  exact layer?_error ‹_›

end Narration
end DiagramStream
