import Mathlib.Data.List.DropRight
import DiagramStream.Proofs.Text.Classes
import DiagramStream.Text.Line

/-!
Texts as lists of lines. Main statements: lines that are joined and rid of the line feeds at both ends are the lines
without the empty ones at the top and at the bottom, joined; and nothing but line feeds is lost or added with that.
-/

namespace DiagramStream.Text

variable {line text : List Char} {all : List (List Char)}

-- Every line with its line feed.
def ended (all : List (List Char)) : List Char := all.flatMap fun line => line ++ ['\n']

-- Less the empty lines at the top and at the bottom.
def innerLines (all : List (List Char)) : List (List Char) :=
  (all.dropWhile List.isEmpty).rdropWhile List.isEmpty

theorem ended_cons (line : List Char) (all : List (List Char)) : ended (line :: all) = line ++ '\n' :: ended all := by
  simp [ended]

theorem ended_append (all others : List (List Char)) : ended (all ++ others) = ended all ++ ended others :=
  List.flatMap_append

theorem head_reverse_ended {c : Char} (head : (ended all).reverse.head? = some c) : c = '\n' := by
  induction all using List.reverseRecOn with
  | nil => cases head
  | append_singleton all line _ =>
    rw [ended, List.flatMap_append, List.flatMap_singleton, List.reverse_append, List.reverse_append] at head
    exact (Option.some.inj head).symm

theorem lines_line (whole : '\n' ∉ line) (below : List Char) : lines (line ++ '\n' :: below) = line :: lines below := by
  induction line with
  | nil => rfl
  | cons c line ih =>
    obtain ⟨other, later⟩ : '\n' ≠ c ∧ '\n' ∉ line := by simpa using whole
    rw [List.cons_append, lines, ih later]
    exact Ne.symm other

theorem lines_ended (whole : ∀ line ∈ all, '\n' ∉ line) : lines (ended all) = all ++ [[]] := by
  induction all with
  | nil => rfl
  | cons line all ih =>
    obtain ⟨here, later⟩ := List.forall_mem_cons.1 whole
    rw [ended_cons, lines_line here, ih later]
    rfl

-- Joined lines

theorem joinLines_cons (line : List Char) (some_ : all ≠ []) : joinLines (line :: all) = line ++ '\n' :: joinLines all := by
  obtain ⟨next, all, rfl⟩ := List.exists_cons_of_ne_nil some_
  rfl

theorem joinLines_concat (some_ : all ≠ []) (line : List Char) :
    joinLines (all ++ [line]) = joinLines all ++ '\n' :: line := by
  induction all with
  | nil => exact absurd rfl some_
  | cons first all ih =>
    by_cases last : all = []
    · subst last
      rfl
    · rw [List.cons_append, joinLines_cons _ (by simp), ih last, joinLines_cons _ last, List.append_assoc]
      rfl

theorem joinLines_reverse (all : List (List Char)) :
    (joinLines all).reverse = joinLines (all.reverse.map List.reverse) := by
  induction all with
  | nil => rfl
  | cons line all ih =>
    by_cases last : all = []
    · subst last
      rfl
    · rw [joinLines_cons _ last, List.reverse_append, List.reverse_cons, ih, List.append_assoc, List.reverse_cons,
        List.map_append]
      exact (joinLines_concat (by simpa using last) line.reverse).symm

-- A line feed at the head of joined lines is the end of an empty line.
theorem dropWhile_joinLines (whole : ∀ line ∈ all, '\n' ∉ line) :
    (joinLines all).dropWhile (· == '\n') = joinLines (all.dropWhile List.isEmpty) := by
  induction all with
  | nil => rfl
  | cons line all ih =>
    obtain ⟨here, later⟩ := List.forall_mem_cons.1 whole
    cases line with
    | nil =>
      by_cases last : all = []
      · subst last
        rfl
      · rw [joinLines_cons _ last]
        exact ih later
    | cons c line =>
      have seen : (c == '\n') = false := by
        refine Bool.eq_false_iff.2 fun feed => here ?_
        rw [beq_iff_eq.1 feed]
        exact List.mem_cons_self
      have head : ∃ more, joinLines ((c :: line) :: all) = c :: more := by
        by_cases last : all = []
        · exact ⟨line, by rw [last]; rfl⟩
        · exact ⟨_, joinLines_cons _ last⟩
      obtain ⟨more, head⟩ := head
      rw [List.dropWhile_cons_of_neg (by simp), head, List.dropWhile_cons_of_neg (by simp [seen])]

theorem dropWhile_reversed (all : List (List Char)) : (all.map List.reverse).dropWhile List.isEmpty =
    (all.dropWhile List.isEmpty).map List.reverse := by
  have same : List.isEmpty ∘ List.reverse = @List.isEmpty Char := funext fun _ => List.isEmpty_reverse
  rw [List.dropWhile_map, same]

theorem trim_joinLines (whole : ∀ line ∈ all, '\n' ∉ line) :
    trim (· == '\n') (joinLines all) = joinLines (innerLines all) := by
  have turned : ∀ line ∈ (all.dropWhile List.isEmpty).reverse.map List.reverse, '\n' ∉ line := by
    intro line listed
    obtain ⟨other, inside, rfl⟩ := List.mem_map.1 listed
    have kept := List.dropWhile_subset _ (List.mem_reverse.1 inside)
    simpa using whole other kept
  have twice : List.reverse ∘ List.reverse = @id (List Char) := funext List.reverse_reverse
  rw [trim, trimStart, dropWhile_joinLines whole, trimEnd, joinLines_reverse, dropWhile_joinLines turned,
    dropWhile_reversed, joinLines_reverse, innerLines, List.rdropWhile, ← List.map_reverse, List.map_map, twice, List.map_id]

-- Outer empty lines

theorem innerLines_nil_cons (all : List (List Char)) : innerLines ([] :: all) = innerLines all := rfl

theorem innerLines_concat_nil (all : List (List Char)) : innerLines (all ++ [[]]) = innerLines all := by
  unfold innerLines
  rw [List.dropWhile_append]
  split
  · rename_i empty
    rw [List.isEmpty_iff.1 empty]
    rfl
  · exact List.rdropWhile_concat_pos _ _ _ rfl

theorem flatten_dropWhile (all : List (List Char)) : (all.dropWhile List.isEmpty).flatten = all.flatten := by
  induction all with
  | nil => rfl
  | cons line all ih =>
    cases line with
    | nil => exact ih
    | cons c line => rfl

theorem flatten_rdropWhile (all : List (List Char)) : (all.rdropWhile List.isEmpty).flatten = all.flatten := by
  induction all using List.reverseRecOn with
  | nil => rfl
  | append_singleton all line ih =>
    cases line with
    | nil => rw [List.rdropWhile_concat_pos _ _ _ rfl, ih, List.flatten_append, List.flatten_singleton, List.append_nil]
    | cons c line => rw [List.rdropWhile_concat_neg _ _ _ (by simp)]

theorem flatten_innerLines (all : List (List Char)) : (innerLines all).flatten = all.flatten := by
  rw [innerLines, flatten_rdropWhile, flatten_dropWhile]

-- What is written but line feeds.
theorem filter_joinLines (whole : ∀ line ∈ all, '\n' ∉ line) : (joinLines all).filter (· != '\n') = all.flatten := by
  induction all with
  | nil => rfl
  | cons line all ih =>
    obtain ⟨here, later⟩ := List.forall_mem_cons.1 whole
    have kept : line.filter (· != '\n') = line := by
      refine List.filter_eq_self.2 fun c member => bne_iff_ne.2 ?_
      rintro rfl
      exact here member
    by_cases last : all = []
    · subst last
      exact kept.trans (List.append_nil line).symm
    · rw [joinLines_cons _ last, List.filter_append, kept, List.filter_cons_of_neg (by decide), ih later,
        List.flatten_cons]

theorem filter_innerLines (whole : ∀ line ∈ all, '\n' ∉ line) :
    (joinLines (innerLines all)).filter (· != '\n') = all.flatten := by
  refine (filter_joinLines fun line listed => whole line ?_).trans (flatten_innerLines all)
  exact List.dropWhile_subset _ ((List.rdropWhile_prefix _ _).subset listed)

-- Blanks at the ends of a line

theorem strip_subset (text : List Char) : strip text ⊆ text := by
  intro c member
  have kept : c ∈ (trimStart isBlank text).reverse := List.dropWhile_subset _ (List.mem_reverse.1 member)
  exact List.dropWhile_subset _ (List.mem_reverse.1 kept)

theorem strip_unbroken (whole : ∀ line ∈ all, '\n' ∉ line) : ∀ line ∈ all.map strip, '\n' ∉ line :=
  List.forall_mem_map.2 fun line listed feed => whole line listed (strip_subset line feed)

theorem strip_nil_iff : strip text = [] ↔ ∀ c ∈ text, isBlank c = true := by
  have whole : text.takeWhile isBlank ++ text.dropWhile isBlank = text := List.takeWhile_append_dropWhile
  rw [strip, trim, trimEnd, trimStart, List.reverse_eq_nil_iff, List.dropWhile_eq_nil_iff]
  constructor
  · intro all c member
    rw [← whole] at member
    rcases List.mem_append.1 member with front | back
    · exact List.all_eq_true.1 List.all_takeWhile c front
    · exact all c (List.mem_reverse.2 back)
  · intro all c member
    exact all c (List.dropWhile_subset _ (List.mem_reverse.1 member))

theorem isSpacing_isBlank {c : Char} (spacing : isSpacing c = true) : isBlank c = true := by
  rcases Bool.or_eq_true_iff.1 spacing with same | same <;> rw [beq_iff_eq.1 same] <;> rfl

-- Spacing at the head of a line is stripped in any case.
theorem strip_dropWhile (text : List Char) : strip (text.dropWhile isSpacing) = strip text := by
  have start : trimStart isBlank (text.dropWhile isSpacing) = trimStart isBlank text := by
    induction text with
    | nil => rfl
    | cons c text ih =>
      cases spacing : isSpacing c with
      | true =>
        rw [List.dropWhile_cons_of_pos spacing, ih, trimStart, trimStart,
          List.dropWhile_cons_of_pos (isSpacing_isBlank spacing)]
      | false => rw [List.dropWhile_cons_of_neg (by simp [spacing])]
  rw [strip, trim, start]
  rfl

end DiagramStream.Text
