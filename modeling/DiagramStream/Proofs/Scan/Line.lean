import DiagramStream.Proofs.Scan

/-!
Rules that keep to their line. Main statement: a rule made of words, of runs of characters and of the rest of a line
takes the same from a line whatever stands below it.
-/

namespace DiagramStream.Scan
open Text

variable {line below : List Char} {takes : Char → Bool}

theorem takeWhile_line (stops : takes '\n' = false) (line below : List Char) :
    (line ++ '\n' :: below).takeWhile takes = line.takeWhile takes := by
  induction line with
  | nil => simp [stops]
  | cons c rest ih => cases seen : takes c <;> simp [seen, ih]

theorem dropWhile_line (stops : takes '\n' = false) (line below : List Char) :
    (line ++ '\n' :: below).dropWhile takes = line.dropWhile takes ++ '\n' :: below := by
  induction line with
  | nil => simp [stops]
  | cons c rest ih => cases seen : takes c <;> simp [seen, ih]

theorem drop_takeWhile (takes : Char → Bool) (text : List Char) :
    text.drop (text.takeWhile takes).length = text.dropWhile takes := by
  have whole : text.takeWhile takes ++ text.dropWhile takes = text := List.takeWhile_append_dropWhile
  have dropped := congrArg (List.drop (text.takeWhile takes).length) whole
  rwa [List.drop_left, eq_comm] at dropped

theorem drop_takeWhile_line (takes : Char → Bool) (line below : List Char) :
    (line ++ '\n' :: below).drop (line.takeWhile takes).length = line.dropWhile takes ++ '\n' :: below := by
  induction line with
  | nil => simp
  | cons c rest ih => cases seen : takes c <;> simp [seen, ih]

theorem isPrefixOf_line {word : List Char} (whole : '\n' ∉ word) (line below : List Char) :
    word.isPrefixOf (line ++ '\n' :: below) = word.isPrefixOf line := by
  induction word generalizing line with
  | nil => simp
  | cons c rest ih =>
    obtain ⟨differs, later⟩ : '\n' ≠ c ∧ '\n' ∉ rest := by simpa using whole
    cases line with
    | nil => simp [List.isPrefixOf, Ne.symm differs]
    | cons d line => simp [List.isPrefixOf, ih later]

theorem isPrefixOf_below {word text : List Char} (whole : '\n' ∉ word) (broken : '\n' ∈ text) (more : List Char) :
    word.isPrefixOf (text ++ more) = word.isPrefixOf text := by
  obtain ⟨line, below, rfl, -⟩ := List.eq_append_cons_of_mem broken
  rw [List.append_assoc, List.cons_append, isPrefixOf_line whole, isPrefixOf_line whole]

theorem atWordEnd_line (line below : List Char) : atWordEnd (line ++ '\n' :: below) = atWordEnd line := by
  cases line <;> rfl

theorem untilLineFeed_line (whole : '\n' ∉ line) (below : List Char) :
    untilLineFeed (line ++ '\n' :: below) = line := by
  induction line with
  | nil => rfl
  | cons c rest ih =>
    obtain ⟨differs, later⟩ : '\n' ≠ c ∧ '\n' ∉ rest := by simpa using whole
    simpa [untilLineFeed, Ne.symm differs] using ih later

namespace Rule

-- What a rule takes of a line does not depend on what stands below.
def WithinLine (rule : Rule) : Prop :=
  ∀ line below other, '\n' ∉ line → rule (line ++ '\n' :: below) = rule (line ++ '\n' :: other)

theorem withinLine_of {rule : Rule} (taken : List Char → Nat)
    (takes : ∀ line below, '\n' ∉ line → rule (line ++ '\n' :: below) = taken line) : rule.WithinLine :=
  fun line below other whole => (takes line below whole).trans (takes line other whole).symm

-- A rule that begins with a word of its own.
def opened (word : List Char) (body : Rule) : Rule := fun text =>
  if word.isPrefixOf text then body (text.drop word.length) else 0

theorem eq_opened {word : List Char} {rule body : Rule} (hit : ∀ rest, rule (word ++ rest) = body rest)
    (miss : ∀ text, (∀ rest, text ≠ word ++ rest) → rule text = 0) : rule = opened word body := by
  funext text
  unfold opened
  split
  · rename_i found
    obtain ⟨rest, rfl⟩ := List.isPrefixOf_iff_prefix.1 found
    rw [hit, List.drop_left]
  · rename_i absent
    refine miss text ?_
    rintro rest rfl
    exact absent (List.isPrefixOf_iff_prefix.2 (List.prefix_append _ _))

theorem opened_withinLine {word : List Char} (whole : '\n' ∉ word) {body : Rule} (within : body.WithinLine) :
    (opened word body).WithinLine := by
  intro line below other unbroken
  unfold opened
  rw [isPrefixOf_line whole, isPrefixOf_line whole]
  cases found : word.isPrefixOf line with
  | false => rfl
  | true =>
    obtain ⟨rest, rfl⟩ := List.isPrefixOf_iff_prefix.1 found
    rw [List.append_assoc, List.append_assoc, List.drop_left, List.drop_left]
    exact within rest below other fun member => unbroken (List.mem_append_right _ member)

theorem WithinLine.append {rule : Rule} (within : rule.WithinLine) {text : List Char} (broken : '\n' ∈ text)
    (more : List Char) : rule (text ++ more) = rule text := by
  obtain ⟨line, below, rfl, unbroken⟩ := List.eq_append_cons_of_mem broken
  rw [List.append_assoc]
  exact within line _ _ unbroken

theorem literal_withinLine {word : List Char} (whole : '\n' ∉ word) : (literal word).WithinLine :=
  @opened_withinLine word whole (fun _ => word.length) fun _ _ _ _ => rfl

theorem keyword_eq (word : List Char) :
    keyword word = opened word fun rest => if atWordEnd rest then word.length else 0 := by
  funext text
  unfold keyword opened
  cases word.isPrefixOf text <;> rfl

theorem keyword_withinLine {word : List Char} (whole : '\n' ∉ word) : (keyword word).WithinLine := by
  rw [keyword_eq]
  refine opened_withinLine whole ?_
  intro line below other _
  simp only [atWordEnd_line]

theorem line_withinLine {word : List Char} (whole : '\n' ∉ word) : (Rule.line word).WithinLine := by
  refine @opened_withinLine word whole (fun rest => word.length + lineLength rest) ?_
  intro line below other unbroken
  simp only [lineLength, untilLineFeed_line unbroken]

theorem run_withinLine (stops : takes '\n' = false) : (run takes).WithinLine := by
  refine withinLine_of (run takes) ?_
  intro line below _
  rw [run, takeWhile_line stops]
  rfl

theorem word_withinLine : word.WithinLine := by
  refine withinLine_of word ?_
  intro line below _
  cases line with
  | nil => rfl
  | cons c rest => simp only [word, List.cons_append, wordLength, @takeWhile_line isWord rfl]

theorem oneOf_withinLine {rules : List Rule} (all : ∀ rule ∈ rules, rule.WithinLine) : (oneOf rules).WithinLine := by
  intro line below other whole
  induction rules with
  | nil => rfl
  | cons rule rest ih =>
    have here := all rule List.mem_cons_self line below other whole
    have later := ih fun one listed => all one (List.mem_cons_of_mem _ listed)
    unfold oneOf at later ⊢
    by_cases applies : rule (line ++ '\n' :: other) = 0
    · simpa [here, applies] using later
    · simp [here, applies]

-- What is found between two marks is found again when more is added.

theorem isPrefixOf_append {word text : List Char} (fits : word.length ≤ text.length) (more : List Char) :
    word.isPrefixOf (text ++ more) = word.isPrefixOf text := by
  induction word generalizing text with
  | nil => rfl
  | cons c word ih =>
    cases text with
    | nil => cases fits
    | cons d text => simp [List.isPrefixOf, ih (Nat.le_of_succ_le_succ fits)]

theorem through_length {closer text : List Char} {count : Nat} (found : through closer count text ≠ 0) :
    closer.length ≤ text.length := by
  induction text generalizing count with
  | nil => exact absurd rfl found
  | cons c text ih =>
    unfold through at found
    split at found
    · rename_i here
      exact (List.isPrefixOf_iff_prefix.1 here).length_le
    · exact Nat.le_succ_of_le (ih found)

theorem through_append {closer text : List Char} {count : Nat} (found : through closer count text ≠ 0)
    (more : List Char) : through closer count (text ++ more) = through closer count text := by
  induction text generalizing count with
  | nil => exact absurd rfl found
  | cons c text ih =>
    have here := isPrefixOf_append (through_length found) more
    rw [List.cons_append] at here ⊢
    unfold through at found ⊢
    rw [here]
    split
    · rfl
    · rename_i absent
      exact ih (by rwa [if_neg absent] at found)

theorem enclosed_append {opener closer text : List Char} (found : enclosed opener closer text ≠ 0)
    (more : List Char) : enclosed opener closer (text ++ more) = enclosed opener closer text := by
  unfold enclosed at found ⊢
  split at found
  · rename_i opens
    obtain ⟨rest, rfl⟩ := List.isPrefixOf_iff_prefix.1 opens
    rw [List.append_assoc, if_pos opens, if_pos (List.isPrefixOf_iff_prefix.2 (List.prefix_append _ _)),
      List.drop_left, List.drop_left]
    rw [List.drop_left] at found
    exact through_append found more
  · exact absurd rfl found

-- No rule takes more than there is.

def Bounded (rule : Rule) : Prop := ∀ text, rule text ≤ text.length

theorem opened_bounded {word : List Char} {body : Rule} (fits : ∀ rest, body rest ≤ word.length + rest.length) :
    (opened word body).Bounded := by
  intro text
  unfold opened
  split
  · rename_i found
    obtain ⟨rest, rfl⟩ := List.isPrefixOf_iff_prefix.1 found
    rw [List.drop_left, List.length_append]
    exact fits rest
  · exact Nat.zero_le _

theorem literal_bounded (word : List Char) : (literal word).Bounded :=
  @opened_bounded word (fun _ => word.length) fun _ => Nat.le_add_right _ _

theorem keyword_bounded (word : List Char) : (keyword word).Bounded := by
  rw [keyword_eq]
  refine opened_bounded ?_
  intro rest
  split <;> omega

theorem line_bounded (word : List Char) : (Rule.line word).Bounded := by
  refine @opened_bounded word (fun rest => word.length + lineLength rest) ?_
  intro rest
  exact Nat.add_le_add_left (List.takeWhile_prefix _).length_le _

theorem run_bounded (takes : Char → Bool) : (run takes).Bounded := fun _ => (List.takeWhile_prefix _).length_le

theorem word_bounded : word.Bounded := by
  intro text
  cases text with
  | nil => exact Nat.le_refl _
  | cons c rest =>
    have := (List.takeWhile_prefix (l := rest) isWord).length_le
    simp only [word, wordLength, List.length_cons]
    split <;> omega

theorem oneOf_bounded {rules : List Rule} (all : ∀ rule ∈ rules, rule.Bounded) : (oneOf rules).Bounded := by
  intro text
  by_cases applies : oneOf rules text = 0
  · omega
  · obtain ⟨rule, listed, -, same⟩ := oneOf_rule applies
    rw [same]
    exact all rule listed text

theorem through_bounded (closer text : List Char) (count : Nat) : through closer count text ≤ count + text.length := by
  induction text generalizing count with
  | nil => exact Nat.zero_le _
  | cons c text ih =>
    unfold through
    split
    · rename_i found
      exact Nat.add_le_add_left (List.isPrefixOf_iff_prefix.1 found).length_le _
    · refine Nat.le_trans (ih (count + 1)) ?_
      simp only [List.length_cons]
      omega

theorem enclosed_bounded (opener closer : List Char) : (enclosed opener closer).Bounded :=
  @opened_bounded opener (through closer opener.length) fun _ => through_bounded _ _ _

end Rule
end DiagramStream.Scan
