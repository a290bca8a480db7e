import DiagramStream.Proofs.Scan.Reading

/-!
The words of a text, each with what is passed over before it. Main statement: where a reading may not end yet, it passes
over a gap and takes a word that was looked for.
-/

namespace DiagramStream.Scan
open Text

variable {κ σ ρ : Type} {rules : List (κ × Rule)} {ignored : κ → Bool} {grammar : Grammar κ σ ρ}

-- At the head of a text a rule of some kind takes a word.
def Takes (rules : List (κ × Rule)) (kind : κ) (text word : List Char) : Prop :=
  ∃ rule, (kind, rule) ∈ rules ∧ rule text ≠ 0 ∧ text.take (rule text) = word

theorem Takes.at {kind : κ} {rule : Rule} {text word : List Char} (place : Nat)
    (here : rules[place]? = some (kind, rule))
    (applies : rule text ≠ 0) (taken : text.take (rule text) = word) : Takes rules kind text word :=
  ⟨rule, List.mem_of_getElem? here, applies, taken⟩

-- Blanks and comments one behind the other, with the text that stands behind them.
inductive Gap (rules : List (κ × Rule)) (ignored : κ → Bool) : List Char → List Char → Prop where
  | nothing {rest : List Char} : Gap rules ignored [] rest
  | piece (kind : κ) {piece gap rest : List Char} : ignored kind = true →
      Takes rules kind (piece ++ (gap ++ rest)) piece →
      Gap rules ignored gap rest → Gap rules ignored (piece ++ gap) rest

structure Word (κ : Type) where
  gap : List Char
  kind : κ
  text : List Char

-- The text begins with these words, and `rest` stands behind them.
inductive Spelled (rules : List (κ × Rule)) (ignored : κ → Bool) : List (Word κ) → List Char → List Char → Prop where
  | nil {rest : List Char} : Spelled rules ignored [] rest rest
  | cons (word : Word κ) {words : List (Word κ)} {behind rest : List Char} :
      Gap rules ignored word.gap (word.text ++ behind) →
      Takes rules word.kind (word.text ++ behind) word.text → Spelled rules ignored words behind rest →
      Spelled rules ignored (word :: words) (word.gap ++ (word.text ++ behind)) rest

-- One more piece is passed over before the first word.
theorem Spelled.behind {kind : κ} {piece text rest : List Char} {word : Word κ} {words : List (Word κ)}
    (passed : ignored kind = true) (taken : Takes rules kind (piece ++ text) piece)
    (spelled : Spelled rules ignored (word :: words) text rest) :
    Spelled rules ignored ({ word with gap := piece ++ word.gap } :: words) (piece ++ text) rest := by
  cases spelled with
  | cons _ gap found others =>
    rw [← List.append_assoc]
    exact .cons { word with gap := piece ++ word.gap } (.piece kind passed taken gap) found others

theorem Spelled.append {words others : List (Word κ)} {text between rest : List Char}
    (first : Spelled rules ignored words text between) (second : Spelled rules ignored others between rest) :
    Spelled rules ignored (words ++ others) text rest := by
  induction first with
  | nil => exact second
  | cons word gap taken _ ih => exact .cons word gap taken (ih second)

namespace Grammar

def Spelled (grammar : Grammar κ σ ρ) : List (Word κ) → List Char → List Char → Prop :=
  Scan.Spelled grammar.rules grammar.ignored

theorem match?_takes {state : σ} {cursor : Cursor} {kind : κ} {count : Nat}
    (found : grammar.match? state cursor.rest = some (kind, count)) :
    ∃ word, cursor.rest = word ++ (cursor.skip (count + 1)).rest ∧ cursor.rest.take (count + 1) = word ∧
      Takes grammar.rules kind (word ++ (cursor.skip (count + 1)).rest) word := by
  obtain ⟨rule, listed, taken⟩ := firstMatch_rule found
  have whole : cursor.rest = cursor.rest.take (count + 1) ++ (cursor.skip (count + 1)).rest :=
    (List.take_append_drop ..).symm
  refine ⟨_, whole, rfl, rule, listed, ?_⟩
  rw [← whole, taken]
  exact ⟨Nat.succ_ne_zero count, rfl⟩

theorem Reads.word {state : σ} {cursor : Cursor} {result : ρ} (unfinished : grammar.finish state = none)
    (reads : grammar.Reads state cursor result) :
    ∃ (word : Word κ) (place : Position) (offset : Nat) (later : σ) (after : Cursor),
      grammar.Spelled [word] cursor.rest after.rest ∧
        grammar.shift state ⟨word.kind, word.text, place, offset⟩ = some later ∧ grammar.Reads later after result := by
  induction reads with
  | done _ finished => cases unfinished.symm.trans finished
  | @skip state cursor result kind count more found passed _ ih =>
    obtain ⟨word, place, offset, later, after, spelled, shifted, reads⟩ := ih unfinished
    obtain ⟨piece, whole, -, taken⟩ := match?_takes found
    refine ⟨{ word with gap := piece ++ word.gap }, place, offset, later, after, ?_, shifted, reads⟩
    rw [whole]
    exact spelled.behind passed taken
  | @take state later cursor result kind count more found seen shifted reads =>
    obtain ⟨text, whole, same, taken⟩ := match?_takes found
    refine ⟨⟨[], kind, text⟩, cursor.position, cursor.offset, later, _, ?_, same ▸ shifted, reads⟩
    rw [whole]
    exact .cons ⟨[], kind, text⟩ .nothing taken .nil

-- What no token takes away is there at the end; and a token has no character that the text has not.
theorem Reads.keeps (kept : σ → Prop) (good : ρ → Prop) {source : List Char}
    (shift : ∀ {state token later}, token.OfRule grammar.rules → token.text ⊆ source → kept state →
      grammar.shift state token = some later → kept later)
    (finish : ∀ {state result}, kept state → grammar.finish state = some result → good result)
    {state : σ} {cursor : Cursor} {result : ρ} (within : cursor.rest ⊆ source) (holds : kept state)
    (reads : grammar.Reads state cursor result) : good result := by
  induction reads with
  | done _ finished => exact finish holds finished
  | skip _ _ _ _ ih => exact ih (List.Subset.trans (List.drop_subset _ _) within) holds
  | @take state later cursor _ _ _ _ found _ shifted _ ih =>
    obtain ⟨rule, listed, taken⟩ := firstMatch_rule found
    refine ih (List.Subset.trans (List.drop_subset _ _) within) (shift ?_ ?_ holds shifted)
    · exact ⟨rule, cursor.rest, listed, by omega, by rw [taken]⟩
    · exact List.Subset.trans (List.take_subset _ _) within

end Grammar
end DiagramStream.Scan
