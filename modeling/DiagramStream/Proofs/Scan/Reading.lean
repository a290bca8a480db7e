import DiagramStream.Proofs.Scan

/-!
Reading a text to its end, match by match. Main statements: a grammar gives a result exactly where such a reading
exists, and a rule that applies is the one that counts if no earlier one that is looked for does.
-/

namespace DiagramStream.Scan
open Text

variable {κ σ ρ : Type} {rules : List (κ × Rule)} {grammar : Grammar κ σ ρ}

-- An outcome that is worked out need not show the complaint it might have been.
theorem ok_of_toOption {ε α : Type} {outcome : Except ε α} {value : α} (read : outcome.toOption = some value) :
    outcome = .ok value := by
  cases outcome with
  | error failure => cases read
  | ok other =>
    cases read
    rfl

-- Rules in their order

theorem firstMatch_pass {entry : κ × Rule} {wanted : κ → Bool} {text : List Char}
    (passes : wanted entry.1 = true → entry.2 text = 0) :
    firstMatch (entry :: rules) wanted text = firstMatch rules wanted text := by
  unfold firstMatch
  rw [List.findSome?_cons]
  cases looked : wanted entry.1 with
  | false => rfl
  | true => simp [passes looked]

theorem firstMatch_hit {entry : κ × Rule} {wanted : κ → Bool} {text : List Char} {count : Nat}
    (looked : wanted entry.1 = true) (applies : entry.2 text = count + 1) :
    firstMatch (entry :: rules) wanted text = some (entry.1, count) := by
  simp [firstMatch, looked, applies]

theorem firstMatch_at {wanted : κ → Bool} {text : List Char} {kind : κ} {rule : Rule} {count : Nat} (place : Nat)
    (here : rules[place]? = some (kind, rule)) (looked : wanted kind = true) (applies : rule text = count + 1)
    (earlier : ∀ entry ∈ rules.take place, wanted entry.1 = true → entry.2 text = 0) :
    firstMatch rules wanted text = some (kind, count) := by
  induction place generalizing rules with
  | zero =>
    cases rules with
    | nil => cases here
    | cons entry rest =>
      cases Option.some.inj here
      exact firstMatch_hit looked applies
  | succ place ih =>
    cases rules with
    | nil => cases here
    | cons entry rest =>
      rw [firstMatch_pass (earlier entry (by simp))]
      exact ih here fun other listed => earlier other (by simp [listed])

theorem firstMatch_none {wanted : κ → Bool} {text : List Char}
    (silent : ∀ entry ∈ rules, wanted entry.1 = true → entry.2 text = 0) : firstMatch rules wanted text = none := by
  induction rules with
  | nil => rfl
  | cons entry rest ih =>
    rw [firstMatch_pass (silent entry List.mem_cons_self)]
    exact ih fun other listed => silent other (List.mem_cons_of_mem _ listed)

-- What comes first of all rules comes first of those that are looked for.
theorem firstMatch_of_all {wanted : κ → Bool} {text : List Char} {kind : κ} {count : Nat}
    (found : firstMatch rules (fun _ => true) text = some (kind, count)) (looked : wanted kind = true) :
    firstMatch rules wanted text = some (kind, count) := by
  induction rules with
  | nil => cases found
  | cons entry rest ih =>
    cases applies : entry.2 text with
    | zero =>
      rw [firstMatch_pass fun _ => applies] at found ⊢
      exact ih found
    | succ taken =>
      rw [firstMatch_hit rfl applies] at found
      cases found
      exact firstMatch_hit looked applies

theorem firstMatch_looked {wanted : κ → Bool} {text : List Char} {kind : κ} {count : Nat}
    (found : firstMatch rules wanted text = some (kind, count)) : wanted kind = true := by
  obtain ⟨entry, -, applies⟩ := List.exists_of_findSome?_eq_some found
  split at applies
  · rename_i looked
    split at applies
    · cases applies
    · cases applies
      exact looked
  · cases applies

theorem firstMatch_congr {wanted : κ → Bool} {text other : List Char}
    (same : ∀ entry ∈ rules, wanted entry.1 = true → entry.2 other = entry.2 text) :
    firstMatch rules wanted other = firstMatch rules wanted text := by
  induction rules with
  | nil => rfl
  | cons entry rest ih =>
    have later := ih fun other listed => same other (List.mem_cons_of_mem _ listed)
    cases looked : wanted entry.1 with
    | false => rw [firstMatch_pass (by simp [looked]), firstMatch_pass (by simp [looked]), later]
    | true =>
      have here := same entry List.mem_cons_self looked
      cases applies : entry.2 text with
      | zero => rw [firstMatch_pass fun _ => applies, firstMatch_pass fun _ => here.trans applies, later]
      | succ count => rw [firstMatch_hit looked applies, firstMatch_hit looked (here.trans applies)]

-- Places in a text

namespace Cursor

variable {cursor : Cursor} {count : Nat}

theorem skip_skip (cursor : Cursor) (count more : Nat) :
    (cursor.skip count).skip more = cursor.skip (count + more) := by
  simp only [skip, List.drop_drop, List.take_add, Position.advance_append, Nat.add_assoc]

-- The same place in a text that goes on.
def extend (cursor : Cursor) (more : List Char) : Cursor := ⟨cursor.rest ++ more, cursor.position, cursor.offset⟩

-- The place where the text goes on.
def seam (cursor : Cursor) (more : List Char) : Cursor :=
  ⟨more, cursor.position.advance cursor.rest, cursor.offset + cursor.rest.length⟩

theorem extend_skip (fits : count ≤ cursor.rest.length) (more : List Char) :
    (cursor.extend more).skip count = (cursor.skip count).extend more := by
  simp only [extend, skip, List.drop_append_of_le_length fits, List.take_append_of_le_length fits]

theorem seam_skip (fits : count ≤ cursor.rest.length) (more : List Char) :
    (cursor.skip count).seam more = cursor.seam more := by
  simp only [seam, skip, ← Position.advance_append, List.take_append_drop, List.length_drop, Nat.add_assoc,
    Nat.add_sub_cancel' fits]

theorem extend_skip_all (cursor : Cursor) (more : List Char) :
    (cursor.extend more).skip cursor.rest.length = cursor.seam more := by
  simp [extend, seam, skip]

end Cursor

-- Readings

namespace Grammar

def match? (grammar : Grammar κ σ ρ) (state : σ) (text : List Char) : Option (κ × Nat) :=
  firstMatch grammar.rules (fun kind => grammar.ignored kind || grammar.expects state kind) text

-- From a state at a place the rest of the text is read, with a result.
inductive Reads (grammar : Grammar κ σ ρ) : σ → Cursor → ρ → Prop where
  | done {state : σ} {cursor : Cursor} {result : ρ} : cursor.rest = [] → grammar.finish state = some result →
      Reads grammar state cursor result
  | skip {state : σ} {cursor : Cursor} {result : ρ} {kind : κ} {count : Nat} : cursor.rest ≠ [] →
      grammar.match? state cursor.rest = some (kind, count) → grammar.ignored kind = true →
      Reads grammar state (cursor.skip (count + 1)) result → Reads grammar state cursor result
  | take {state later : σ} {cursor : Cursor} {result : ρ} {kind : κ} {count : Nat} : cursor.rest ≠ [] →
      grammar.match? state cursor.rest = some (kind, count) → grammar.ignored kind = false →
      grammar.shift state ⟨kind, cursor.rest.take (count + 1), cursor.position, cursor.offset⟩ = some later →
      Reads grammar later (cursor.skip (count + 1)) result → Reads grammar state cursor result

theorem next_of_skip {state : σ} {cursor : Cursor} {kind : κ} {count : Nat} (more : cursor.rest ≠ [])
    (found : grammar.match? state cursor.rest = some (kind, count)) (ignored : grammar.ignored kind = true) :
    grammar.next state cursor = grammar.next state (cursor.skip (count + 1)) := by
  unfold match? at found
  rw [next, Scan.next, dif_neg more, found]
  simp only [ignored, if_true]
  rfl

theorem next_of_take {state : σ} {cursor : Cursor} {kind : κ} {count : Nat} (more : cursor.rest ≠ [])
    (found : grammar.match? state cursor.rest = some (kind, count)) (seen : grammar.ignored kind = false) :
    grammar.next state cursor =
      .token ⟨kind, cursor.rest.take (count + 1), cursor.position, cursor.offset⟩ (cursor.skip (count + 1)) := by
  unfold match? at found
  rw [next, Scan.next, dif_neg more, found]
  simp [seen]

theorem run_of_finished {state : σ} {last : Option (Token κ)} {cursor : Cursor} {result : ρ}
    (ended : grammar.next state cursor = .finished) (finish : grammar.finish state = some result) :
    grammar.run state last cursor = .ok result := by
  unfold run
  split
  · rw [finish]
  · rename_i stuck; cases ended.symm.trans stuck
  · rename_i found; cases ended.symm.trans found

theorem run_of_token {state later : σ} {last : Option (Token κ)} {cursor after : Cursor} {token : Token κ}
    (found : grammar.next state cursor = .token token after) (shifted : grammar.shift state token = some later) :
    grammar.run state last cursor = grammar.run later (some token) after := by
  rw [run]
  split
  · rename_i ended; cases found.symm.trans ended
  · rename_i stuck; cases found.symm.trans stuck
  · rename_i other _ same
    cases found.symm.trans same
    rw [shifted]

-- Blanks and comments before a token make no difference to where it leads.
theorem Reads.through {state : σ} {cursor : Cursor} {result : ρ} :
    (grammar.next state cursor = .finished → grammar.finish state = some result →
      Reads grammar state cursor result) ∧
    ∀ {token after later}, grammar.next state cursor = .token token after → grammar.shift state token = some later →
      Reads grammar later after result → Reads grammar state cursor result := by
  unfold next
  fun_induction Scan.next grammar.rules grammar.ignored (grammar.expects state) cursor with
  | case1 cursor ended =>
    refine ⟨fun _ finish => .done ended finish, ?_⟩
    intro token after later next
    cases next
  | case2 cursor more =>
    refine ⟨fun next _ => ?_, ?_⟩
    · cases next
    · intro token after later next
      cases next
  | case3 cursor more kind count found ignored ih =>
    refine ⟨?_, ?_⟩
    · intro ended finish
      exact .skip more found ignored (ih.1 ended finish)
    · intro token after later next shifted reads
      exact .skip more found ignored (ih.2 next shifted reads)
  | case4 cursor more kind count found seen =>
    refine ⟨fun next _ => ?_, ?_⟩
    · cases next
    · intro token after later next shifted reads
      cases next
      exact .take more found (Bool.eq_false_iff.2 seen) shifted reads

theorem run_ok_iff {state : σ} {last : Option (Token κ)} {cursor : Cursor} {result : ρ} :
    grammar.run state last cursor = .ok result ↔ Reads grammar state cursor result := by
  constructor
  · intro read
    fun_induction grammar.run state last cursor with
    | case1 state last cursor ended value finish =>
      cases read
      exact Reads.through.1 ended finish
    | case2 => cases read
    | case3 => cases read
    | case4 state last cursor token after found later shifted ih => exact Reads.through.2 found shifted (ih read)
    | case5 => cases read
  · intro reads
    induction reads generalizing last with
    | done ended finish =>
      refine run_of_finished ?_ finish
      rw [next, Scan.next, dif_pos ended]
    | skip more found ignored _ ih => rw [run, next_of_skip more found ignored, ← run, ih]
    | take more found seen shifted _ ih => rw [run_of_token (next_of_take more found seen) shifted, ih]

theorem read_ok_iff {text : List Char} {result : ρ} :
    grammar.read text = .ok result ↔ Reads grammar grammar.start (Cursor.start text) result := run_ok_iff

theorem parse_ok_iff {format : Format} {text : List Char} {result : ρ} :
    grammar.parse format text = .ok result ↔ Reads grammar grammar.start (Cursor.start text) result := by
  rw [← read_ok_iff, parse]
  cases grammar.read text <;> simp

end Grammar
end DiagramStream.Scan
