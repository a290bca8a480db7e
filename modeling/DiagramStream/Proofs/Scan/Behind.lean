import DiagramStream.Proofs.Scan.Line
import DiagramStream.Proofs.Text.Classes

/-!
Rules and what stands behind the piece that they take. Main statement: a rule made of literals, words, runs and marks
looks at one character behind its piece at most, and only asks whether that would go on with it.
-/

namespace DiagramStream.Scan
open Text

variable {takes cuts : Char → Bool} {piece rest other : List Char}

theorem takeWhile_whole (length : ((piece ++ rest).takeWhile takes).length = piece.length) :
    (∀ c ∈ piece, takes c = true) ∧ ∀ c, rest.head? = some c → takes c = false := by
  have whole : (piece ++ rest).takeWhile takes = piece :=
    (List.prefix_of_prefix_length_le (List.takeWhile_prefix _) (List.prefix_append _ _)
      (Nat.le_of_eq length)).eq_of_length length
  have inside : ∀ c ∈ piece, takes c = true := fun c member => Rule.mem_takeWhile (whole ▸ member)
  refine ⟨inside, ?_⟩
  intro c head
  refine Bool.eq_false_iff.2 fun taken => ?_
  obtain ⟨more, rfl⟩ := List.head?_eq_some_iff.1 head
  rw [List.takeWhile_append_of_pos inside, List.takeWhile_cons_of_pos taken] at whole
  simpa using congrArg List.length whole

theorem takeWhile_ended (inside : ∀ c ∈ piece, takes c = true) (ends : ∀ c, rest.head? = some c → takes c = false) :
    (piece ++ rest).takeWhile takes = piece := by
  rw [List.takeWhile_append_of_pos inside]
  cases rest with
  | nil => simp
  | cons c rest => simp [ends c rfl]

theorem takeWhile_cut (takes : Char → Bool) (text : List Char) : ∃ front back, text = front ++ back ∧
    (∀ c ∈ front, takes c = true) ∧ ∀ c, back.head? = some c → takes c = false := by
  have whole : text.takeWhile takes ++ text.dropWhile takes = text := List.takeWhile_append_dropWhile
  exact ⟨_, _, whole.symm, takeWhile_whole (congrArg (fun one => (one.takeWhile takes).length) whole)⟩

-- One text in the place of another, behind a piece: it begins as that does, or with a character that cuts off.
def Follows (cuts : Char → Bool) (rest other : List Char) : Prop :=
  ∃ c, other.head? = some c ∧ (rest.head? = some c ∨ cuts c = true)

theorem Follows.ends (follows : Follows cuts rest other) (apart : ∀ c, cuts c = true → takes c = false)
    (ends : ∀ c, rest.head? = some c → takes c = false) : ∀ c, other.head? = some c → takes c = false := by
  obtain ⟨d, head, same | cut⟩ := follows
  · intro c first
    exact ends c (same.trans (head.symm.trans first))
  · intro c first
    cases head.symm.trans first
    exact apart d cut

theorem Follows.takeWhile (follows : Follows cuts rest other) (apart : ∀ c, cuts c = true → takes c = false)
    (length : ((piece ++ rest).takeWhile takes).length = piece.length) :
    ((piece ++ other).takeWhile takes).length = piece.length := by
  obtain ⟨inside, ends⟩ := takeWhile_whole length
  rw [takeWhile_ended inside (follows.ends apart ends)]

namespace Rule

-- Of a text that goes on differently behind the piece the rule takes the same piece.
def Settled (cuts : Char → Bool) (rule : Rule) : Prop :=
  ∀ piece rest other, piece ≠ [] → rule (piece ++ rest) = piece.length → Follows cuts rest other →
    rule (piece ++ other) = piece.length

theorem taken_ne_zero {rule : Rule} (some_ : piece ≠ []) (taken : rule (piece ++ rest) = piece.length) :
    rule (piece ++ rest) ≠ 0 := by
  rw [taken]
  exact fun empty => some_ (List.length_eq_zero_iff.1 empty)

theorem literal_exact {word : List Char} (some_ : piece ≠ []) (taken : literal word (piece ++ rest) = piece.length) :
    piece = word := by
  have whole := literal_take (taken_ne_zero some_ taken)
  rwa [taken, List.take_left] at whole

theorem prefix_opens {mark : Char} {word : List Char} {c : Char} {text : List Char} (opens : mark :: word <+: c :: text) :
    c = mark := (List.cons_prefix_cons.1 opens).1.symm

theorem literal_prefix {word text : List Char} (applies : literal word text ≠ 0) : word <+: text := by
  rw [← literal_take applies]
  exact List.take_prefix _ _

theorem literal_word (word rest : List Char) : literal word (word ++ rest) = word.length :=
  if_pos (List.isPrefixOf_iff_prefix.2 (List.prefix_append _ _))

theorem literal_settled (cuts : Char → Bool) (word : List Char) : Settled cuts (literal word) := by
  intro piece rest other some_ taken _
  rw [literal_exact some_ taken, literal_word]

theorem run_settled (apart : ∀ c, cuts c = true → takes c = false) : Settled cuts (run takes) :=
  fun _ _ _ _ taken follows => follows.takeWhile apart taken

theorem line_prefix {word text : List Char} (applies : Rule.line word text ≠ 0) : word <+: text := by
  unfold Rule.line at applies
  split at applies
  · exact List.isPrefixOf_iff_prefix.1 ‹_›
  · exact absurd rfl applies

theorem line_opens {word : List Char} (some_ : piece ≠ []) (taken : Rule.line word (piece ++ rest) = piece.length) :
    word <+: piece := by
  have opens := line_prefix (taken_ne_zero some_ taken)
  rw [Rule.line, if_pos (List.isPrefixOf_iff_prefix.2 opens)] at taken
  refine List.prefix_of_prefix_length_le opens (List.prefix_append _ _) ?_
  omega

-- A line has no end of its own but the line feed.
theorem line_settled {word : List Char} (apart : ∀ c, cuts c = true → c = '\n') : Settled cuts (Rule.line word) := by
  intro piece rest other some_ taken follows
  obtain ⟨body, rfl⟩ := line_opens some_ taken
  have opens (more : List Char) : word.isPrefixOf (word ++ more) = true :=
    List.isPrefixOf_iff_prefix.2 (List.prefix_append _ _)
  rw [List.append_assoc, Rule.line, if_pos (opens _), List.drop_left, List.length_append] at taken
  have stops : ∀ c, cuts c = true → (c != '\n') = false := fun c cut => by simp [apart c cut]
  rw [List.append_assoc, Rule.line, if_pos (opens _), List.drop_left, List.length_append]
  exact congrArg _ (follows.takeWhile stops (Nat.add_left_cancel taken))

-- Two marks

theorem through_least {closer text : List Char} {count : Nat} (found : through closer count text ≠ 0) :
    count + closer.length ≤ through closer count text := by
  induction text generalizing count with
  | nil => exact absurd rfl found
  | cons c text ih =>
    unfold through at found ⊢
    split
    · exact Nat.le_refl _
    · rename_i absent
      rw [if_neg absent] at found
      exact Nat.le_trans (by omega) (ih found)

theorem through_exact {closer : List Char} {count : Nat} (mark : closer ≠ [])
    (taken : through closer count (piece ++ rest) = count + piece.length) (some_ : piece ≠ [])
    (other : List Char) : through closer count (piece ++ other) = count + piece.length := by
  induction piece generalizing count with
  | nil => exact absurd rfl some_
  | cons c piece ih =>
    have full := List.length_pos_iff.2 mark
    have least : count + closer.length ≤ through closer count (c :: piece ++ rest) := by
      refine through_least ?_
      rw [taken, List.length_cons]
      omega
    rw [taken] at least
    have fits : closer.length ≤ (c :: piece).length := by omega
    rw [List.cons_append, through, ← List.cons_append, isPrefixOf_append fits] at taken ⊢
    split at taken
    · rename_i closes
      rw [if_pos closes, taken]
    · rename_i open_
      rw [if_neg open_]
      have later : through closer (count + 1) (piece ++ rest) = count + 1 + piece.length := by
        rw [taken, List.length_cons]
        omega
      have more : piece ≠ [] := by
        rintro rfl
        have found : through closer (count + 1) ([] ++ rest) ≠ 0 := by
          rw [later]
          exact Nat.succ_ne_zero _
        have beyond := through_least found
        rw [later, List.length_nil] at beyond
        omega
      rw [ih later more, List.length_cons]
      omega

theorem enclosed_prefix {opener closer text : List Char} (applies : enclosed opener closer text ≠ 0) :
    opener <+: text := by
  unfold enclosed at applies
  split at applies
  · exact List.isPrefixOf_iff_prefix.1 ‹_›
  · exact absurd rfl applies

theorem enclosed_opens {opener closer : List Char} (mark : closer ≠ []) (some_ : piece ≠ [])
    (taken : enclosed opener closer (piece ++ rest) = piece.length) : ∃ body, body ≠ [] ∧ piece = opener ++ body := by
  have applies := taken_ne_zero some_ taken
  have opens := enclosed_prefix applies
  rw [enclosed, if_pos (List.isPrefixOf_iff_prefix.2 opens)] at applies taken
  have least := through_least applies
  have full := List.length_pos_iff.2 mark
  obtain ⟨body, rfl⟩ : opener <+: piece := by
    refine List.prefix_of_prefix_length_le opens (List.prefix_append _ _) ?_
    omega
  refine ⟨body, ?_, rfl⟩
  rintro rfl
  rw [taken, List.append_nil] at least
  omega

theorem enclosed_settled (cuts : Char → Bool) {opener closer : List Char} (mark : closer ≠ []) :
    Settled cuts (enclosed opener closer) := by
  intro piece rest other some_ taken _
  obtain ⟨body, inside, rfl⟩ := enclosed_opens mark some_ taken
  have opens (more : List Char) : opener.isPrefixOf (opener ++ more) = true :=
    List.isPrefixOf_iff_prefix.2 (List.prefix_append _ _)
  rw [List.append_assoc, enclosed, if_pos (opens _), List.drop_left, List.length_append] at taken
  rw [List.append_assoc, enclosed, if_pos (opens _), List.drop_left, through_exact mark taken inside,
    List.length_append]

-- One character after the other

-- A count that goes through a text with a state in hand. A character breaks it off without a result, or ends it, or
-- leads to the next state.
structure Stepwise {σ : Type} (step : σ → Char → Option (Option σ)) (scan : σ → Nat → List Char → Nat) : Prop where
  open_ : ∀ state count, scan state count [] = 0
  goes : ∀ state count c text, scan state count (c :: text) =
    (step state c).elim 0 fun next => next.elim (count + 1) fun later => scan later (count + 1) text

namespace Stepwise

variable {σ : Type} {step : σ → Char → Option (Option σ)} {scan : σ → Nat → List Char → Nat} {state : σ} {count : Nat}
  {text : List Char}

theorem grows (stepwise : Stepwise step scan) (found : scan state count text ≠ 0) : count < scan state count text := by
  induction text generalizing state count with
  | nil => exact absurd (stepwise.open_ _ _) found
  | cons c text ih =>
    rw [stepwise.goes] at found ⊢
    generalize step state c = moved at found ⊢
    match moved with
    | none => exact absurd rfl found
    | some none => exact Nat.lt_succ_self _
    | some (some later) => exact Nat.lt_of_succ_lt (ih found)

theorem bounded (stepwise : Stepwise step scan) (state : σ) (count : Nat) (text : List Char) :
    scan state count text ≤ count + text.length := by
  induction text generalizing state count with
  | nil => rw [stepwise.open_]; exact Nat.zero_le _
  | cons c text ih =>
    rw [stepwise.goes, List.length_cons]
    match step state c with
    | none => exact Nat.zero_le _
    | some none => exact Nat.add_le_add_left (Nat.le_add_left _ _) _
    | some (some later) =>
      have := ih later (count + 1)
      simp only [Option.elim_some]
      omega

-- How much is counted does not hang on where the count begins.
theorem moves {more : Nat} (stepwise : Stepwise step scan) (some_ : more ≠ 0) (taken : scan state count text = count + more)
    (other : Nat) : scan state other text = other + more := by
  induction text generalizing state count more other with
  | nil =>
    rw [stepwise.open_] at taken
    omega
  | cons c text ih =>
    rw [stepwise.goes] at taken ⊢
    generalize step state c = moved at taken ⊢
    match moved with
    | none =>
      replace taken : 0 = count + more := taken
      omega
    | some none =>
      replace taken : count + 1 = count + more := taken
      rw [← Nat.add_left_cancel taken]
      rfl
    | some (some later) =>
      replace taken : scan later (count + 1) text = count + more := taken
      have grows := stepwise.grows (show scan later (count + 1) text ≠ 0 by omega)
      obtain ⟨less, rfl⟩ : ∃ less, more = less + 1 := ⟨more - 1, by omega⟩
      have left : less ≠ 0 := by omega
      have again : scan later (count + 1) text = count + 1 + less := by omega
      exact (ih left again (other + 1)).trans (by omega)

-- The character that ends the count is the last one it looks at.
theorem piece_only (stepwise : Stepwise step scan) (some_ : count + piece.length ≠ 0)
    (taken : scan state count (piece ++ rest) = count + piece.length) (other : List Char) :
    scan state count (piece ++ other) = count + piece.length := by
  induction piece generalizing state count with
  | nil =>
    have beyond := stepwise.grows (taken ▸ some_)
    rw [taken] at beyond
    exact absurd beyond (Nat.lt_irrefl _)
  | cons c piece ih =>
    have length : count + (c :: piece).length = count + 1 + piece.length := by
      rw [List.length_cons]
      omega
    rw [List.cons_append, stepwise.goes, length] at taken ⊢
    generalize step state c = moved at taken ⊢
    match moved with
    | none => exact taken
    | some none => exact taken
    | some (some later) => exact ih (by omega) taken

-- A mark, and behind it a count that begins at one.
theorem settled {rule : Rule} {mark : Char} (cuts : Char → Bool) (stepwise : Stepwise step scan)
    (hit : ∀ text, rule (mark :: text) = scan state 1 text) (opens : ∀ c text, rule (c :: text) ≠ 0 → c = mark) :
    Settled cuts rule := by
  intro piece rest other some_ taken _
  obtain ⟨c, body, rfl⟩ := List.exists_cons_of_ne_nil some_
  obtain rfl := opens c _ (taken_ne_zero some_ taken)
  rw [List.cons_append, hit, List.length_cons, Nat.add_comm] at taken ⊢
  exact stepwise.piece_only (by omega) taken other

end Stepwise

-- Words

-- A rule that takes the word at the head of a text as a whole or not at all, and looks at nothing else.
structure ByWord (rule : Rule) : Prop where
  whole : ∀ text, rule text ≠ 0 → rule text = wordLength text
  alone : ∀ text, rule (text.takeWhile isWord) = rule text

theorem takeWhile_takeWhile (takes : Char → Bool) (text : List Char) :
    (text.takeWhile takes).takeWhile takes = text.takeWhile takes := by
  have inside : ∀ c ∈ text.takeWhile takes, takes c = true := fun c member => mem_takeWhile member
  have same : (text.takeWhile takes ++ []).takeWhile takes = text.takeWhile takes := takeWhile_ended inside nofun
  rwa [List.append_nil] at same

theorem word_byWord : ByWord word := by
  refine ⟨?_, ?_⟩
  · intro text applies
    cases text with
    | nil => rfl
    | cons c rest =>
      simp only [word] at applies ⊢
      split at applies
      · rename_i start
        have first : isWord c = true := (Bool.and_eq_true_iff.1 start).1
        rw [if_pos start, wordLength, wordLength, List.takeWhile_cons_of_pos first, List.length_cons, Nat.add_comm]
      · exact absurd rfl applies
  · intro text
    cases text with
    | nil => rfl
    | cons c rest =>
      cases first : isWord c with
      | true => simp only [List.takeWhile_cons_of_pos first, word, wordLength, takeWhile_takeWhile]
      | false =>
        have start : isWordStart c = false := by simp [isWordStart, first]
        rw [List.takeWhile_cons_of_neg (by simp [first])]
        simp [word, start]

theorem anyCase_eq {keyword : List Char} (letters : ∀ c ∈ keyword, isWord c = true) (text : List Char) :
    anyCase keyword text = if (text.takeWhile isWord).map foldLetter = keyword then keyword.length else 0 := by
  suffices same : (((text.take keyword.length).map foldLetter = keyword && atWordEnd (text.drop keyword.length)) = true) ↔
      (text.takeWhile isWord).map foldLetter = keyword by
    unfold anyCase
    simp only [same]
  rw [Bool.and_eq_true, decide_eq_true_iff]
  constructor
  · rintro ⟨folded, ended⟩
    have inside : ∀ c ∈ text.take keyword.length, isWord c = true := by
      intro c member
      refine isWord_of_folded (letters _ ?_)
      rw [← folded]
      exact List.mem_map_of_mem member
    have ends : ∀ c, (text.drop keyword.length).head? = some c → isWord c = false := by
      intro c head
      obtain ⟨more, same⟩ := List.head?_eq_some_iff.1 head
      simpa [atWordEnd, same] using ended
    have whole := takeWhile_ended inside ends
    rw [List.take_append_drop] at whole
    rw [whole, folded]
  · intro folded
    have length : keyword.length = (text.takeWhile isWord).length := by rw [← folded, List.length_map]
    rw [length, take_takeWhile]
    refine ⟨folded, ?_⟩
    obtain ⟨front, back, rfl, inside, ends⟩ := takeWhile_cut isWord text
    rw [takeWhile_ended inside ends, List.drop_left]
    cases back with
    | nil => rfl
    | cons c more => simp [atWordEnd, ends c rfl]

theorem anyCase_byWord {keyword : List Char} (letters : ∀ c ∈ keyword, isWord c = true) :
    ByWord (anyCase keyword) := by
  refine ⟨?_, ?_⟩
  · intro text applies
    rw [anyCase_eq letters] at applies ⊢
    split at applies
    · rename_i folded
      rw [if_pos folded, ← folded, List.length_map, wordLength]
    · exact absurd rfl applies
  · intro text
    rw [anyCase_eq letters, anyCase_eq letters, takeWhile_takeWhile]

theorem anyCase_bounded (keyword : List Char) : (anyCase keyword).Bounded := by
  intro text
  unfold anyCase
  split
  · rename_i found
    have folded := of_decide_eq_true (Bool.and_eq_true_iff.1 found).1
    rw [← folded, List.length_map]
    exact List.length_take_le' _ _
  · exact Nat.zero_le _

-- Where the word is the same, all such rules do the same.
theorem ByWord.same {rule one : Rule} (byWord : ByWord rule) (taking : ByWord one) (some_ : piece ≠ [])
    (taken : one (piece ++ rest) = piece.length) (apart : ∀ c, cuts c = true → isWord c = false)
    (follows : Follows cuts rest other) : rule (piece ++ other) = rule (piece ++ rest) := by
  have length : ((piece ++ rest).takeWhile isWord).length = piece.length :=
    (taking.whole _ (taken_ne_zero some_ taken)).symm.trans taken
  obtain ⟨inside, ends⟩ := takeWhile_whole length
  rw [← byWord.alone, ← byWord.alone (piece ++ rest), takeWhile_ended inside ends,
    takeWhile_ended inside (follows.ends apart ends)]

theorem ByWord.settled {rule : Rule} (byWord : ByWord rule) (apart : ∀ c, cuts c = true → isWord c = false) :
    Settled cuts rule :=
  fun _ _ _ some_ taken follows => (byWord.same byWord some_ taken apart follows).trans taken

end Rule
end DiagramStream.Scan
