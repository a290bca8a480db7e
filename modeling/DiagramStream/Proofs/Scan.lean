import DiagramStream.Scan.Report

/-!
What holds of every token that is found, and of every state that a grammar comes to: a property that the
start has, and that no token of one of the rules takes away, is there when the text ends.
-/

namespace DiagramStream.Scan
open Text

variable {κ σ ρ : Type} {rules : List (κ × Rule)} {grammar : Grammar κ σ ρ}

-- A token is what one of the rules of its kind takes from some text.
def Token.OfRule (rules : List (κ × Rule)) (token : Token κ) : Prop :=
  ∃ rule text, (token.kind, rule) ∈ rules ∧ rule text ≠ 0 ∧ token.text = text.take (rule text)

theorem firstMatch_rule {wanted : κ → Bool} {text : List Char} {kind : κ} {count : Nat}
    (found : firstMatch rules wanted text = some (kind, count)) :
    ∃ rule, (kind, rule) ∈ rules ∧ rule text = count + 1 := by
  obtain ⟨⟨entry, rule⟩, listed, applies⟩ := List.exists_of_findSome?_eq_some found
  dsimp only at applies
  split at applies
  · split at applies
    · cases applies
    · rename_i taken
      cases applies
      exact ⟨rule, listed, taken⟩
  · cases applies

theorem next_ofRule {ignored wanted : κ → Bool} {cursor after : Cursor} {token : Token κ}
    (found : next rules ignored wanted cursor = .token token after) : token.OfRule rules := by
  fun_induction next rules ignored wanted cursor with
  | case1 => cases found
  | case2 => cases found
  | case3 _ _ _ _ _ _ ih => exact ih found
  | case4 cursor _ kind count matched _ =>
    cases found
    obtain ⟨rule, listed, taken⟩ := firstMatch_rule matched
    exact ⟨rule, cursor.rest, listed, by omega, by rw [taken]⟩

theorem Grammar.run_keeps {kept : σ → Prop} {good : ρ → Prop}
    (shift : ∀ {state token later}, token.OfRule grammar.rules → kept state →
      grammar.shift state token = some later → kept later)
    (finish : ∀ {state result}, kept state → grammar.finish state = some result → good result)
    {state : σ} {last : Option (Token κ)} {cursor : Cursor} {result : ρ} (holds : kept state)
    (read : grammar.run state last cursor = .ok result) : good result := by
  fun_induction grammar.run state last cursor with
  | case1 state _ _ _ found finished =>
    cases read
    exact finish holds finished
  | case2 => cases read
  | case3 => cases read
  | case4 state _ _ token _ found later shifted ih => exact ih (shift (next_ofRule found) holds shifted) read
  | case5 => cases read

theorem Grammar.parse_keeps {kept : σ → Prop} {good : ρ → Prop} {format : Format} {text : List Char} {result : ρ}
    (start : kept grammar.start)
    (shift : ∀ {state token later}, token.OfRule grammar.rules → kept state →
      grammar.shift state token = some later → kept later)
    (finish : ∀ {state result}, kept state → grammar.finish state = some result → good result)
    (parsed : grammar.parse format text = .ok result) : good result := by
  unfold Grammar.parse at parsed
  split at parsed
  · rename_i read
    cases parsed
    exact Grammar.run_keeps shift finish start read
  · cases parsed

namespace Rule

theorem literal_take {word text : List Char} (applies : literal word text ≠ 0) :
    text.take (literal word text) = word := by
  unfold literal at applies ⊢
  split at applies
  · rename_i found
    rw [if_pos found]
    obtain ⟨rest, rfl⟩ := List.isPrefixOf_iff_prefix.1 found
    exact List.take_left
  · exact absurd rfl applies

theorem keyword_take {word text : List Char} (applies : keyword word text ≠ 0) :
    text.take (keyword word text) = word := by
  unfold keyword at applies ⊢
  split at applies
  · rename_i found
    rw [if_pos found]
    obtain ⟨rest, rfl⟩ := List.isPrefixOf_iff_prefix.1 (Bool.and_eq_true_iff.1 found).1
    exact List.take_left
  · exact absurd rfl applies

theorem take_takeWhile (takes : Char → Bool) (text : List Char) :
    text.take (text.takeWhile takes).length = text.takeWhile takes :=
  (List.prefix_iff_eq_take.1 (List.takeWhile_prefix takes)).symm

theorem mem_takeWhile {takes : Char → Bool} {text : List Char} {c : Char} (member : c ∈ text.takeWhile takes) :
    takes c = true := List.all_eq_true.1 List.all_takeWhile c member

theorem word_take {text : List Char} {c : Char} (member : c ∈ text.take (word text)) : isWord c = true := by
  cases text with
  | nil => cases member
  | cons first rest =>
    simp only [word] at member
    split at member
    · rename_i start
      rw [Nat.add_comm, List.take_succ_cons, wordLength, take_takeWhile] at member
      rcases List.mem_cons.1 member with rfl | later
      · exact (Bool.and_eq_true_iff.1 start).1
      · exact mem_takeWhile later
    · cases member

-- An alternative takes what one of its rules takes.
theorem oneOf_rule {rules : List Rule} {text : List Char} (applies : oneOf rules text ≠ 0) :
    ∃ rule ∈ rules, rule text ≠ 0 ∧ oneOf rules text = rule text := by
  unfold oneOf at applies ⊢
  cases found : rules.find? fun rule => rule text ≠ 0 with
  | none =>
    rw [found] at applies
    exact absurd rfl applies
  | some rule =>
    refine ⟨rule, List.mem_of_find?_eq_some found, ?_, rfl⟩
    simpa using List.find?_some found

end Rule
end DiagramStream.Scan
