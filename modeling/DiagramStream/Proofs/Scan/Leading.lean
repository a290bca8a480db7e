import DiagramStream.Proofs.Scan.Reading

/-!
Reading a text wherever it stands. Main statements: a token leads from what the state shows before it to what it shows
after it, and a blank leads nowhere else, at every place of a text.
-/

namespace DiagramStream.Scan.Grammar
open Text

variable {κ σ ρ α β : Type} {grammar : Grammar κ σ ρ} {view : σ → α} {shown : ρ → β} {before after : α}
  {text : List Char} {outcome : β} {kind : κ} {count : Nat}

-- From every state of one view, at every place, a text is read with a result of one look.
def Leads (grammar : Grammar κ σ ρ) (view : σ → α) (shown : ρ → β) (before : α) (text : List Char) (outcome : β) :
    Prop :=
  ∀ state cursor, view state = before → cursor.rest = text →
    ∃ result, grammar.Reads state cursor result ∧ shown result = outcome

theorem Leads.ended (finish : ∀ state, view state = before →
    ∃ result, grammar.finish state = some result ∧ shown result = outcome) :
    grammar.Leads view shown before [] outcome := by
  intro state cursor viewed rest
  obtain ⟨result, finished, same⟩ := finish state viewed
  exact ⟨result, .done rest finished, same⟩

theorem Leads.word (after : α) {word : List Char} (length : count + 1 = word.length)
    (seen : grammar.ignored kind = false)
    (found : ∀ state, view state = before → grammar.match? state (word ++ text) = some (kind, count))
    (shifted : ∀ state place offset, view state = before →
      ∃ later, grammar.shift state ⟨kind, word, place, offset⟩ = some later ∧ view later = after)
    (rest : grammar.Leads view shown after text outcome) : grammar.Leads view shown before (word ++ text) outcome := by
  intro state cursor viewed whole
  obtain ⟨later, moved, followed⟩ := shifted state cursor.position cursor.offset viewed
  have behind : (cursor.skip (count + 1)).rest = text := by rw [Cursor.skip, whole, length, List.drop_left]
  have here : cursor.rest.take (count + 1) = word := by rw [whole, length, List.take_left]
  have more : cursor.rest ≠ [] := by
    intro empty
    simp [← here, empty] at length
  obtain ⟨result, reads, same⟩ := rest later (cursor.skip (count + 1)) followed behind
  exact ⟨result, .take more (whole ▸ found state viewed) seen (here ▸ moved) reads, same⟩

-- A run of blanks is taken as a whole, so it makes no difference where it is cut.
theorem Leads.blank {takes : Char → Bool} (ignored : grammar.ignored kind = true)
    (found : ∀ state c rest, view state = before → takes c = true →
      grammar.match? state (c :: rest) = some (kind, (rest.takeWhile takes).length))
    {c : Char} (blank : takes c = true) (leads : grammar.Leads view shown before text outcome) :
    grammar.Leads view shown before (c :: text) outcome := by
  intro state cursor viewed rest
  have behind : (cursor.skip 1).rest = text := by simp [Cursor.skip, rest]
  obtain ⟨result, reads, same⟩ := leads state (cursor.skip 1) viewed behind
  refine ⟨result, .skip (by simp [rest]) (rest ▸ found state c text viewed blank) ignored ?_, same⟩
  cases text with
  | nil => exact reads
  | cons d text =>
    cases again : takes d with
    | false => simpa [again] using reads
    | true =>
      have next := found state d text viewed again
      rw [List.takeWhile_cons_of_pos again, List.length_cons]
      cases reads with
      | done ended => simp [behind] at ended
      | skip _ other _ reads =>
        rw [behind, next] at other
        cases other
        rwa [Cursor.skip_skip, Nat.add_comm 1] at reads
      | take _ other seen =>
        rw [behind, next] at other
        cases other
        cases ignored.symm.trans seen

end DiagramStream.Scan.Grammar
