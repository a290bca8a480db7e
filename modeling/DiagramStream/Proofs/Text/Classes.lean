import DiagramStream.Text.Blank
import DiagramStream.Text.Case
import DiagramStream.Text.Word

/-!
Character classes against each other. Main statements: a decimal digit and every form of a letter are word characters,
and a blank is none.
-/

namespace DiagramStream.Text

namespace Ranges

variable {ranges others : Ranges} {c : Char}

theorem has_iff : ranges.has c = true ↔ ∃ range ∈ ranges, range.1 ≤ c.toNat ∧ c.toNat ≤ range.2 := by
  simp [has]

theorem has_append (ranges others : Ranges) (c : Char) :
    Ranges.has (ranges ++ others) c = (ranges.has c || others.has c) := List.any_append

-- Two tables are compared range by range, never character by character.
theorem has_disjoint
    (apart : (ranges.all fun range => others.all fun other => range.2 < other.1 || other.2 < range.1) = true)
    (here : ranges.has c = true) : others.has c = false := by
  obtain ⟨range, listed, low, high⟩ := has_iff.1 here
  refine Bool.eq_false_iff.2 fun there => ?_
  obtain ⟨other, found, lower, higher⟩ := has_iff.1 there
  have away := List.all_eq_true.1 (List.all_eq_true.1 apart range listed) other found
  simp only [Bool.or_eq_true, decide_eq_true_eq] at away
  omega

-- Both tables are in order, so one walk along the second takes up all of the first.
def takenUp (ranges others : Ranges) : Ranges :=
  others.foldl (fun left other => left.dropWhile fun range => other.1 ≤ range.1 && range.2 ≤ other.2) ranges

theorem has_within (within : takenUp ranges others = []) (here : ranges.has c = true) : others.has c = true := by
  obtain ⟨range, listed, low, high⟩ := has_iff.1 here
  suffices around : ∃ other ∈ others, other.1 ≤ range.1 ∧ range.2 ≤ other.2 by
    obtain ⟨other, found, lower, higher⟩ := around
    exact has_iff.2 ⟨other, found, by omega, by omega⟩
  clear here
  induction others generalizing ranges with
  | nil => exact absurd listed (by simp [show ranges = [] from within])
  | cons other others ih =>
    rw [← @List.takeWhile_append_dropWhile _ (fun range => other.1 ≤ range.1 && range.2 ≤ other.2) ranges] at listed
    rcases List.mem_append.1 listed with first | later
    · exact ⟨other, List.mem_cons_self, by simpa using List.all_eq_true.1 List.all_takeWhile range first⟩
    · obtain ⟨next, found, around⟩ := ih within later
      exact ⟨next, List.mem_cons_of_mem _ found, around⟩

end Ranges

variable {c : Char}

-- The word characters among the first 128 as ranges, so that every class is a table.
def asciiRanges : Ranges := [(0x30, 0x39), (0x41, 0x5a), (0x5f, 0x5f), (0x61, 0x7a)]

theorem isWord_eq (c : Char) : isWord c = (asciiRanges ++ wordRanges).has c := by
  rw [isWord, Ranges.has_append]
  by_cases small : c.toNat < 128
  · have table : ∀ n < 128, ((Char.ofNat n).isAlphanum || Char.ofNat n == '_') = asciiRanges.has (Char.ofNat n) := by
      decide +kernel
    have low : Ranges.has [(0, 127)] c = true :=
      Ranges.has_iff.2 ⟨(0, 127), List.mem_singleton_self _, by omega, by omega⟩
    have silent : wordRanges.has c = false := Ranges.has_disjoint (by decide +kernel) low
    rw [if_pos small, silent, Bool.or_false]
    simpa using table c.toNat small
  · have large : asciiRanges.has c = false := by
      simp only [Ranges.has, asciiRanges, List.any_cons, List.any_nil, Bool.or_false, Bool.or_eq_false_iff,
        Bool.and_eq_false_iff, decide_eq_false_iff_not]
      omega
    rw [if_neg small, large, Bool.false_or]

theorem isDecimal_isWord (digit : isDecimal c = true) : isWord c = true := by
  rw [isWord_eq]
  exact Ranges.has_within (by decide +kernel) digit

theorem isBlank_not_isWord (blank : isBlank c = true) : isWord c = false := by
  rw [isWord_eq]
  exact Ranges.has_disjoint (by decide +kernel) blank

-- All forms of a letter are word characters.
theorem isWord_of_folded (letter : isWord (foldLetter c) = true) : isWord c = true := by
  unfold foldLetter at letter
  split at letter
  · rename_i long
    subst long
    decide +kernel
  split at letter
  · rename_i dotted
    rcases Bool.or_eq_true_iff.1 dotted with same | same <;> rw [of_decide_eq_true same] <;> decide +kernel
  unfold lowerLetter at letter
  split at letter
  · rename_i kelvin
    subst kelvin
    decide +kernel
  unfold Char.toLower at letter
  split at letter
  · rename_i between
    have capital : Ranges.has [(0x41, 0x5a)] c = true :=
      Ranges.has_iff.2 ⟨(0x41, 0x5a), List.mem_singleton_self _, between⟩
    rw [isWord_eq]
    exact Ranges.has_within (by decide +kernel) capital
  · exact letter

end DiagramStream.Text
