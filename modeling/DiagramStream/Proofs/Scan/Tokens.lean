import DiagramStream.Proofs.Scan.Leading

/-!
The tokens of a text, and the way to each of them. Main statements: where a text is read, every token of it stands
behind a part of the text that is read before it; that part leads to the same state whatever stands behind the
character that follows; and what is read further on does not depend on where it stands.
-/

namespace DiagramStream.Scan
open Text

deriving instance DecidableEq for Token

namespace Grammar

variable {κ σ ρ α β : Type} {grammar : Grammar κ σ ρ}

-- The tokens of a text in their order, as far as it is read.
def tokens (grammar : Grammar κ σ ρ) (state : σ) (cursor : Cursor) : List (Token κ) :=
  match _ : grammar.next state cursor with
  | .finished => []
  | .stuck _ => []
  | .token token after =>
    match grammar.shift state token with
    | some later => token :: tokens grammar later after
    | none => []
termination_by cursor.rest.length
decreasing_by exact next_shorter _ _ _ _ ‹_›

variable {state later next : σ} {cursor : Cursor} {token : Token κ} {result : ρ} {kind : κ} {count : Nat}

theorem tokens_done (ended : cursor.rest = []) : grammar.tokens state cursor = [] := by
  have finished : grammar.next state cursor = .finished := by rw [Grammar.next, Scan.next, dif_pos ended]
  rw [tokens]
  split
  · rfl
  · rfl
  · rename_i found
    cases finished.symm.trans found

theorem tokens_skip (more : cursor.rest ≠ []) (found : grammar.match? state cursor.rest = some (kind, count))
    (ignored : grammar.ignored kind = true) :
    grammar.tokens state cursor = grammar.tokens state (cursor.skip (count + 1)) := by
  rw [tokens, next_of_skip more found ignored, ← tokens]

theorem tokens_take (more : cursor.rest ≠ []) (found : grammar.match? state cursor.rest = some (kind, count))
    (seen : grammar.ignored kind = false)
    (shifted : grammar.shift state ⟨kind, cursor.rest.take (count + 1), cursor.position, cursor.offset⟩ =
      some later) :
    grammar.tokens state cursor = ⟨kind, cursor.rest.take (count + 1), cursor.position, cursor.offset⟩ ::
      grammar.tokens later (cursor.skip (count + 1)) := by
  rw [tokens]
  have token := next_of_take more found seen
  split
  · rename_i other
    cases token.symm.trans other
  · rename_i other
    cases token.symm.trans other
  · rename_i other
    cases token.symm.trans other
    rw [shifted]

-- From a state at a place `gone` is read in front of `rest`, and leads to another state.
inductive Passes (grammar : Grammar κ σ ρ) (rest : List Char) : σ → Position → Nat → List Char → σ → Prop where
  | here (state : σ) (place : Position) (offset : Nat) : Passes grammar rest state place offset [] state
  | skip {state later : σ} {place : Position} {offset count : Nat} {kind : κ} {piece gone : List Char} :
      count + 1 = piece.length → grammar.match? state (piece ++ (gone ++ rest)) = some (kind, count) →
      grammar.ignored kind = true →
      Passes grammar rest state (place.advance piece) (offset + piece.length) gone later →
      Passes grammar rest state place offset (piece ++ gone) later
  | take {state next later : σ} {place : Position} {offset count : Nat} {kind : κ} {piece gone : List Char} :
      count + 1 = piece.length → grammar.match? state (piece ++ (gone ++ rest)) = some (kind, count) →
      grammar.ignored kind = false → grammar.shift state ⟨kind, piece, place, offset⟩ = some next →
      Passes grammar rest next (place.advance piece) (offset + piece.length) gone later →
      Passes grammar rest state place offset (piece ++ gone) later

variable {place : Position} {offset : Nat} {piece gone rest other : List Char} {c : Char}

theorem skip_piece (length : count + 1 = piece.length) (place : Position) (offset : Nat) (text : List Char) :
    Cursor.skip ⟨piece ++ text, place, offset⟩ (count + 1) =
      ⟨text, place.advance piece, offset + piece.length⟩ := by
  rw [Cursor.skip, length, List.drop_left, List.take_left]

-- Nothing of a text can be read in two ways.
theorem reads_skip_iff (length : count + 1 = piece.length) {text : List Char}
    (found : grammar.match? state (piece ++ text) = some (kind, count)) (ignored : grammar.ignored kind = true) :
    grammar.Reads state ⟨piece ++ text, place, offset⟩ result ↔
      grammar.Reads state ⟨text, place.advance piece, offset + piece.length⟩ result := by
  have more : piece ++ text ≠ [] := by
    intro empty
    simp [(List.append_eq_nil_iff.1 empty).1] at length
  rw [← @run_ok_iff _ _ _ _ _ none, ← @run_ok_iff _ _ _ _ _ none, run, next_of_skip more found ignored, ← run,
    skip_piece length]

theorem reads_take_iff (length : count + 1 = piece.length) {text : List Char}
    (found : grammar.match? state (piece ++ text) = some (kind, count)) (seen : grammar.ignored kind = false)
    (shifted : grammar.shift state ⟨kind, piece, place, offset⟩ = some next) :
    grammar.Reads state ⟨piece ++ text, place, offset⟩ result ↔
      grammar.Reads next ⟨text, place.advance piece, offset + piece.length⟩ result := by
  have more : piece ++ text ≠ [] := by
    intro empty
    simp [(List.append_eq_nil_iff.1 empty).1] at length
  have here : (piece ++ text).take (count + 1) = piece := by rw [length, List.take_left]
  have token := @next_of_take _ _ _ _ _ ⟨piece ++ text, place, offset⟩ _ _ more found seen
  simp only [here, skip_piece length] at token
  rw [← @run_ok_iff _ _ _ _ _ none, run_of_token token shifted, run_ok_iff]

theorem Passes.reads_iff (passes : grammar.Passes rest state place offset gone later) :
    grammar.Reads state ⟨gone ++ rest, place, offset⟩ result ↔
      grammar.Reads later ⟨rest, place.advance gone, offset + gone.length⟩ result := by
  induction passes with
  | here => rfl
  | skip length found ignored _ ih =>
    rw [List.append_assoc, reads_skip_iff length found ignored, ih, Position.advance_append, List.length_append,
      Nat.add_assoc]
  | take length found seen shifted _ ih =>
    rw [List.append_assoc, reads_take_iff length found seen shifted, ih, Position.advance_append, List.length_append,
      Nat.add_assoc]

-- What is taken at the head of a text, by what comes directly behind it.
def Steady (grammar : Grammar κ σ ρ) : Prop :=
  ∀ state kind count c (piece rest other : List Char), count + 1 = piece.length →
    grammar.match? state (piece ++ c :: rest) = some (kind, count) →
      grammar.match? state (piece ++ c :: other) = some (kind, count)

theorem Steady.behind (steady : grammar.Steady) (length : count + 1 = piece.length)
    (found : grammar.match? state (piece ++ (gone ++ c :: rest)) = some (kind, count)) (other : List Char) :
    grammar.match? state (piece ++ (gone ++ c :: other)) = some (kind, count) := by
  cases gone with
  | nil => exact steady _ _ _ _ _ _ other length found
  | cons d gone => exact steady _ _ _ _ _ _ (gone ++ c :: other) length found

theorem Passes.reroute (steady : grammar.Steady) (passes : grammar.Passes (c :: rest) state place offset gone later)
    (other : List Char) : grammar.Passes (c :: other) state place offset gone later := by
  induction passes with
  | here => exact .here _ _ _
  | skip length found ignored _ ih => exact .skip length (steady.behind length found other) ignored ih
  | take length found seen shifted _ ih => exact .take length (steady.behind length found other) seen shifted ih

-- A token of a text, with what is read before it.
structure Stands (grammar : Grammar κ σ ρ) (state : σ) (cursor : Cursor) (token : Token κ) (gone rest : List Char)
    (before later : σ) : Prop where
  text : cursor.rest = gone ++ (token.text ++ rest)
  passes : grammar.Passes (token.text ++ rest) state cursor.position cursor.offset gone before
  place : token.position = cursor.position.advance gone
  offset : token.offset = cursor.offset + gone.length
  seen : grammar.ignored token.kind = false
  found : ∃ count, count + 1 = token.text.length ∧
    grammar.match? before (token.text ++ rest) = some (token.kind, count)
  shifted : grammar.shift before token = some later

-- No rule takes more than there is.
def Fits (grammar : Grammar κ σ ρ) : Prop :=
  ∀ state text kind count, grammar.match? state text = some (kind, count) → count + 1 ≤ text.length

theorem Fits.cut (fits : grammar.Fits) {text : List Char}
    (found : grammar.match? state text = some (kind, count)) :
    count + 1 = (text.take (count + 1)).length ∧ text = text.take (count + 1) ++ text.drop (count + 1) :=
  ⟨by rw [List.length_take, Nat.min_eq_left (fits _ _ _ _ found)], (List.take_append_drop ..).symm⟩

theorem Reads.stands (fits : grammar.Fits) (reads : grammar.Reads state cursor result)
    (listed : token ∈ grammar.tokens state cursor) :
    ∃ gone rest before later, grammar.Stands state cursor token gone rest before later := by
  induction reads with
  | done ended =>
    rw [tokens_done ended] at listed
    cases listed
  | @skip state cursor result kind count more found ignored _ ih =>
    rw [tokens_skip more found ignored] at listed
    obtain ⟨length, whole⟩ := fits.cut found
    obtain ⟨gone, rest, before, later, text, passes, place, offset, seen, taken, shifted⟩ := ih listed
    replace text : cursor.rest.drop (count + 1) = gone ++ (token.text ++ rest) := text
    rw [text] at whole
    refine ⟨cursor.rest.take (count + 1) ++ gone, rest, before, later, ?_, ?_, ?_, ?_, seen, taken, shifted⟩
    · rwa [List.append_assoc]
    · refine .skip length (whole ▸ found) ignored ?_
      rwa [← length]
    · rw [place, Position.advance_append]
      rfl
    · rw [offset, List.length_append, ← length, ← Nat.add_assoc]
      rfl
  | @take state next cursor result kind count more found seen shifted _ ih =>
    rw [tokens_take more found seen shifted] at listed
    obtain ⟨length, whole⟩ := fits.cut found
    rcases List.mem_cons.1 listed with rfl | listed
    · exact ⟨[], cursor.rest.drop (count + 1), state, next, whole, .here _ _ _, rfl, rfl, seen,
        ⟨count, length, whole ▸ found⟩, shifted⟩
    · obtain ⟨gone, rest, before, later, text, passes, place, offset, visible, taken, moved⟩ := ih listed
      replace text : cursor.rest.drop (count + 1) = gone ++ (token.text ++ rest) := text
      rw [text] at whole
      refine ⟨cursor.rest.take (count + 1) ++ gone, rest, before, later, ?_, ?_, ?_, ?_, visible, taken, moved⟩
      · rwa [List.append_assoc]
      · refine .take length (whole ▸ found) seen shifted ?_
        rwa [← length]
      · rw [place, Position.advance_append]
        rfl
      · rw [offset, List.length_append, ← length, ← Nat.add_assoc]
        rfl

-- Where a token begins a reading has come to one state, as long as what it reads begins with the same character.
theorem Stands.before_iff {before : σ} (steady : grammar.Steady)
    (stands : grammar.Stands state cursor token gone rest before later) (head : token.text.head? = some c)
    (other : List Char) :
    grammar.Reads state ⟨gone ++ c :: other, cursor.position, cursor.offset⟩ result ↔
      grammar.Reads before ⟨c :: other, token.position, token.offset⟩ result := by
  obtain ⟨word, text⟩ := List.head?_eq_some_iff.1 head
  have passes := stands.passes
  rw [text, List.cons_append] at passes
  rw [stands.place, stands.offset]
  exact (passes.reroute steady other).reads_iff

-- What stands behind a token is read in the state that it leads to, as long as it is still read as that token.
theorem Stands.behind_iff {before : σ} (steady : grammar.Steady)
    (stands : grammar.Stands state cursor token gone rest before later)
    (found : ∃ count, count + 1 = token.text.length ∧
      grammar.match? before (token.text ++ other) = some (token.kind, count)) :
    grammar.Reads state ⟨gone ++ (token.text ++ other), cursor.position, cursor.offset⟩ result ↔
      grammar.Reads later ⟨other, token.position.advance token.text, token.offset + token.text.length⟩ result := by
  obtain ⟨count, length, found⟩ := found
  have shifted : grammar.shift before ⟨token.kind, token.text, token.position, token.offset⟩ = some later :=
    stands.shifted
  rw [← reads_take_iff length found stands.seen shifted]
  obtain ⟨c, word, text⟩ : ∃ c word, token.text = c :: word := by
    refine List.exists_cons_of_ne_nil fun empty => ?_
    rw [empty] at length
    cases length
  rw [text, List.cons_append]
  exact stands.before_iff steady (text ▸ rfl) _

-- Readings that look alike

variable {view : σ → α} {shown : ρ → β} {before : α} {text : List Char} {outcome : β}

-- Nothing but the view of a state decides what is read from it, up to the look of the result.
structure Respects (grammar : Grammar κ σ ρ) (view : σ → α) (shown : ρ → β) : Prop where
  expects : ∀ {one two}, view one = view two → grammar.expects one = grammar.expects two
  shift : ∀ {one two next kind} {word : List Char} {place : Position} {offset : Nat} (place' : Position)
    (offset' : Nat), view one = view two → grammar.shift one ⟨kind, word, place, offset⟩ = some next →
      ∃ after, grammar.shift two ⟨kind, word, place', offset'⟩ = some after ∧ view after = view next
  finish : ∀ {one two result}, view one = view two → grammar.finish one = some result →
    ∃ after, grammar.finish two = some after ∧ shown after = shown result

theorem Respects.match? (respects : grammar.Respects view shown) {one two : σ} (same : view one = view two)
    (text : List Char) : grammar.match? one text = grammar.match? two text := by
  unfold Grammar.match?
  rw [respects.expects same]

-- What is read is read as well at another place.
theorem Reads.leads (respects : grammar.Respects view shown) (reads : grammar.Reads state cursor result) :
    grammar.Leads view shown (view state) cursor.rest (shown result) := by
  induction reads with
  | done ended finish =>
    rw [ended]
    refine .ended fun other same => respects.finish same.symm finish
  | @skip state cursor result kind count more found ignored _ ih =>
    intro other place same whole
    have behind : (place.skip (count + 1)).rest = (cursor.skip (count + 1)).rest := by
      rw [Cursor.skip, Cursor.skip, whole]
    obtain ⟨last, reads, look⟩ := ih other _ same behind
    exact ⟨last, .skip (whole ▸ more) (whole ▸ (respects.match? same _).trans found) ignored reads, look⟩
  | @take state next cursor result kind count more found seen shifted _ ih =>
    intro other place same whole
    have behind : (place.skip (count + 1)).rest = (cursor.skip (count + 1)).rest := by
      rw [Cursor.skip, Cursor.skip, whole]
    obtain ⟨after, moved, viewed⟩ := respects.shift place.position place.offset same.symm shifted
    obtain ⟨last, reads, look⟩ := ih after _ viewed behind
    refine ⟨last, .take (whole ▸ more) (whole ▸ (respects.match? same _).trans found) seen ?_ reads, look⟩
    rwa [whole]

-- A piece that is passed over leads nowhere.
theorem Leads.over (length : count + 1 = piece.length) (ignored : grammar.ignored kind = true)
    (found : ∀ state, view state = before → grammar.match? state (piece ++ text) = some (kind, count))
    (rest : grammar.Leads view shown before text outcome) :
    grammar.Leads view shown before (piece ++ text) outcome := by
  intro state ⟨whole, place, offset⟩ viewed same
  obtain rfl : whole = piece ++ text := same
  obtain ⟨result, reads, look⟩ := rest state ⟨text, place.advance piece, offset + piece.length⟩ viewed rfl
  exact ⟨result, (reads_skip_iff length (found state viewed) ignored).2 reads, look⟩

end Grammar
end DiagramStream.Scan
