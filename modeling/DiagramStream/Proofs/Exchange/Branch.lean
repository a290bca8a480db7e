import DiagramStream.Proofs.Exchange.Reading

/-!
What tells the branches of a document apart. Main statements: an open branch is settled by the place where it
begins, and just as well by the number of its block and its number in the block.
-/

namespace DiagramStream

-- Where the branch begins that the next statement would stand in.
def standing (before : List Placed) : Option Nat := (openBlocks before).head?.map Block.start

-- Inner blocks were opened later.
theorem openBlocks_ordered (statements : List Placed) :
    (openBlocks statements).Pairwise fun inner outer => outer.opened < inner.opened := by
  induction statements using List.reverseRecOn with
  | nil => exact .nil
  | append_singleton before placed ih =>
    rw [openBlocks_concat]
    unfold nest
    split
    · split
      · exact ih
      · exact List.pairwise_cons.2 ⟨openBlocks_early before, ih⟩
    · rename_i shape blocks
      rw [blocks] at ih
      obtain ⟨first, rest⟩ := List.pairwise_cons.1 ih
      exact List.pairwise_cons.2 ⟨first, rest⟩
    · rename_i shape blocks
      rw [blocks] at ih
      exact (List.pairwise_cons.1 ih).2
    · exact ih

theorem openBlocks_same {statements : List Placed} {one other : Block} (left : one ∈ openBlocks statements)
    (right : other ∈ openBlocks statements) (same : one.opened = other.opened) : one = other := by
  have ordered := openBlocks_ordered statements
  generalize openBlocks statements = blocks at left right ordered
  induction ordered with
  | nil => cases left
  | cons first _ ih =>
    rcases List.mem_cons.1 left with rfl | inLeft <;> rcases List.mem_cons.1 right with rfl | inRight
    · rfl
    · have less := first other inRight
      omega
    · have less := first one inLeft
      omega
    · exact ih inLeft inRight

-- A block that is still open has moved on to a later branch, or is as it was.
theorem later_branch {before rest : List Placed} {one other : Block} (left : one ∈ openBlocks before)
    (right : other ∈ openBlocks (before ++ rest)) (same : one.opened = other.opened) :
    one.elses.length < other.elses.length ∨ one = other := by
  induction rest using List.reverseRecOn generalizing other with
  | nil => exact .inr (openBlocks_same left (by simpa using right) same)
  | append_singleton rest placed ih =>
    rw [← List.append_assoc, openBlocks_concat] at right
    rcases mem_nest right with old | ⟨older, old, _, opened, elses⟩ | ⟨kind, condition, _, _, place, _⟩
    · exact ih old same
    · refine .inl ?_
      rw [elses, List.length_append, List.length_singleton]
      rcases ih old (same.trans opened) with less | rfl <;> omega
    · have early := openBlocks_early before one left
      rw [List.length_append] at place
      omega

-- Only the innermost block is new, and it begins with the statement.
theorem nest_head {place : Nat} {blocks : List Block} {placed : Placed} {block : Block}
    (member : block ∈ nest place blocks placed) :
    block ∈ blocks ∨ ((nest place blocks placed).head? = some block ∧ block.start = place) := by
  unfold nest at member ⊢
  split at member
  · split at member
    · exact .inl member
    · rcases List.mem_cons.1 member with rfl | old
      · exact .inr ⟨rfl, rfl⟩
      · exact .inl old
  · rcases List.mem_cons.1 member with rfl | old
    · exact .inr ⟨rfl, by simp [Block.start]⟩
    · exact .inl (List.mem_cons_of_mem _ old)
  · exact .inl (List.mem_cons_of_mem _ member)
  · exact .inl member

-- A branch is as it was when it began, right after its first statement.
theorem branch_began {statements : List Placed} {block : Block} (member : block ∈ openBlocks statements) :
    block.start < statements.length ∧ (openBlocks (statements.take (block.start + 1))).head? = some block := by
  induction statements using List.reverseRecOn with
  | nil => cases member
  | append_singleton before placed ih =>
    rw [openBlocks_concat] at member
    rcases nest_head member with old | ⟨head, start⟩
    · obtain ⟨early, began⟩ := ih old
      refine ⟨by rw [List.length_append]; omega, ?_⟩
      rwa [List.take_append_of_le_length early]
    · refine ⟨by simp [start], ?_⟩
      rw [start, List.take_of_length_le (by simp), openBlocks_concat]
      exact head

-- A block is opened by a statement that opens one.
theorem opened_opens {statements : List Placed} {block : Block} (member : block ∈ openBlocks statements) :
    ∃ placed, statements[block.opened]? = some placed ∧ placed.statement.opensBlock = true := by
  induction statements using List.reverseRecOn generalizing block with
  | nil => cases member
  | append_singleton before placed ih =>
    have earlier : ∀ older ∈ openBlocks before, ∃ one, (before ++ [placed])[older.opened]? = some one ∧
        one.statement.opensBlock = true := by
      intro older old
      obtain ⟨one, at_, opener⟩ := ih old
      exact ⟨one, by rw [List.getElem?_append_left (openBlocks_early before older old)]; exact at_, opener⟩
    rw [openBlocks_concat] at member
    rcases mem_nest member with old | ⟨older, old, _, same, _⟩ | ⟨kind, condition, shape, _, place, _⟩
    · exact earlier block old
    · rw [same]
      exact earlier older old
    · exact ⟨placed, by simp [place], by rw [shape]; rfl⟩

theorem opened_within {before statements : List Placed} (begins : before <+: statements) {block : Block}
    (member : block ∈ openBlocks before) :
    ∃ placed, statements[block.opened]? = some placed ∧ placed.statement.opensBlock = true := by
  obtain ⟨rest, rfl⟩ := begins
  rw [List.getElem?_append_left (openBlocks_early before block member)]
  exact opened_opens member

theorem ordinal_less {statements : List Placed} {one other : Nat} (less : one < other) {placed : Placed}
    (at_ : statements[other]? = some placed) (opener : placed.statement.opensBlock = true) :
    ordinal statements one < ordinal statements other := by
  obtain ⟨within, rfl⟩ := List.getElem?_eq_some_iff.1 at_
  have earlier : opens (statements.take (one + 1)) ≤ opens (statements.take other) :=
    (List.take_prefix_take_left (by omega)).sublist.countP_le
  have next : ordinal statements other = opens (statements.take other) + 1 := by
    unfold ordinal
    rw [List.take_succ_eq_append_getElem within, opens_concat, if_pos opener]
  unfold ordinal at next ⊢
  omega

-- Openers are told apart by their numbers.
theorem ordinal_injective {statements : List Placed} {one other : Nat} {first second : Placed}
    (left : statements[one]? = some first) (opensLeft : first.statement.opensBlock = true)
    (right : statements[other]? = some second) (opensRight : second.statement.opensBlock = true)
    (same : ordinal statements one = ordinal statements other) : one = other := by
  rcases Nat.lt_trichotomy one other with less | equal | more
  · have differs := ordinal_less less right opensRight
    omega
  · exact equal
  · have differs := ordinal_less more left opensLeft
    omega

section
variable {statements left right : List Placed} {one other : Block}

theorem start_settles (begins : left <+: statements) (goesOn : right <+: statements) (inLeft : one ∈ openBlocks left)
    (inRight : other ∈ openBlocks right) (same : one.start = other.start) : one = other := by
  obtain ⟨early, began⟩ := branch_began inLeft
  obtain ⟨bound, started⟩ := branch_began inRight
  obtain ⟨rest, rfl⟩ := begins
  obtain ⟨tail, whole⟩ := goesOn
  have first : left.take (one.start + 1) = (left ++ rest).take (one.start + 1) :=
    (List.take_append_of_le_length early).symm
  have second : right.take (other.start + 1) = (left ++ rest).take (other.start + 1) := by
    rw [← whole, List.take_append_of_le_length bound]
  rw [first] at began
  rw [second, ← same, began] at started
  exact Option.some.inj started

theorem numbers_settle (begins : left <+: statements) (goesOn : right <+: statements) (inLeft : one ∈ openBlocks left)
    (inRight : other ∈ openBlocks right) (block : ordinal statements one.opened = ordinal statements other.opened)
    (branch : one.elses.length = other.elses.length) : one = other := by
  obtain ⟨first, at_, opener⟩ := opened_within begins inLeft
  obtain ⟨second, there, follower⟩ := opened_within goesOn inRight
  have opened := ordinal_injective at_ opener there follower block
  rcases List.prefix_or_prefix_of_prefix begins goesOn with ⟨rest, rfl⟩ | ⟨rest, rfl⟩
  · rcases later_branch inLeft inRight opened with less | same
    · omega
    · exact same
  · rcases later_branch inRight inLeft opened.symm with less | same
    · omega
    · exact same.symm

end

-- Numbers of blocks and branches agree where the branches begin at one place.
theorem numbers_agree_iff {statements left right : List Placed} (begins : left <+: statements)
    (goesOn : right <+: statements) :
    ((openBlocks left).head?.map (fun block => ordinal left block.opened) =
        (openBlocks right).head?.map (fun block => ordinal right block.opened) ∧
      (openBlocks left).head?.map (fun block => block.elses.length) =
        (openBlocks right).head?.map (fun block => block.elses.length)) ↔
      standing left = standing right := by
  unfold standing
  cases first : (openBlocks left).head? with
  | none => cases (openBlocks right).head? <;> simp
  | some one =>
    cases second : (openBlocks right).head? with
    | none => simp
    | some other =>
      have inLeft := List.mem_of_head? first
      have inRight := List.mem_of_head? second
      have leftNumber : ordinal left one.opened = ordinal statements one.opened := by
        obtain ⟨rest, rfl⟩ := begins
        exact (ordinal_append (openBlocks_early left one inLeft) rest).symm
      have rightNumber : ordinal right other.opened = ordinal statements other.opened := by
        obtain ⟨rest, rfl⟩ := goesOn
        exact (ordinal_append (openBlocks_early right other inRight) rest).symm
      simp only [Option.map_some, Option.some.injEq, leftNumber, rightNumber]
      constructor
      · rintro ⟨block, branch⟩
        rw [numbers_settle begins goesOn inLeft inRight block branch]
      · intro start
        rw [start_settles begins goesOn inLeft inRight start]
        exact ⟨rfl, rfl⟩

end DiagramStream
