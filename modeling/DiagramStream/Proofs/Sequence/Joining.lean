import DiagramStream.Proofs.Sequence.Lines

/-!
Sequence texts written one below the other. Main statement: where each of two texts is read, the two joined by a line
feed are read too, to the statements of the first and then those of the second, which only stand further down.
-/

namespace DiagramStream
open Text

-- Lines that something is moved down by.
def Text.Position.lower (place : Position) (lines : Int) : Position := ⟨place.line + lines, place.column⟩

def Placed.lower (placed : Placed) (lines : Int) : Placed := ⟨placed.position.lower lines, placed.statement⟩

namespace Text

theorem Position.after_lower (place : Position) (lines : Int) (c : Char) :
    (place.lower lines).after c = (place.after c).lower lines := by
  unfold after lower
  split
  · simp only [Position.mk.injEq, and_true]
    omega
  · rfl

theorem Position.advance_lower (place : Position) (lines : Int) (text : List Char) :
    (place.lower lines).advance text = (place.advance text).lower lines := by
  induction text generalizing place with
  | nil => rfl
  | cons c rest ih => rw [advance_cons, advance_cons, after_lower, ih]

theorem Position.advance_line (place : Position) (text : List Char) :
    (place.advance text).line = place.line + (text.count '\n' : Nat) := by
  induction text generalizing place with
  | nil => simp
  | cons c rest ih =>
    rw [advance_cons, ih, after]
    by_cases feed : c = '\n' <;> simp [feed]
    omega

theorem Position.advance_feed (place : Position) (text : List Char) :
    place.advance (text ++ ['\n']) = ⟨place.line + (text.count '\n' + 1 : Nat), 1⟩ := by
  have line := advance_line place text
  rw [advance_append, advance_cons, advance_nil, after, if_pos rfl, line]
  simp only [Position.mk.injEq, and_true]
  omega

-- How many lines a text ends, whichever way it ends them.
def lineEnds : List Char → Nat
  | '\r' :: '\n' :: rest => lineEnds rest + 1
  | '\r' :: rest => lineEnds rest + 1
  | '\n' :: rest => lineEnds rest + 1
  | _ :: rest => lineEnds rest
  | [] => 0

theorem unifyLineEnds_cons {c : Char} (plain : c ≠ '\r') (rest : List Char) :
    unifyLineEnds (c :: rest) = c :: unifyLineEnds rest := by
  simp [unifyLineEnds, plain]

theorem count_unifyLineEnds (text : List Char) : (unifyLineEnds text).count '\n' = lineEnds text := by
  fun_induction lineEnds text with
  | case1 rest ih => simp [unifyLineEnds, ih]
  | case2 rest alone ih => simp [unifyLineEnds, ih]
  | case3 rest ih => simp [unifyLineEnds, ih]
  | case4 c rest _ plain other ih =>
    rw [unifyLineEnds_cons plain, List.count_cons_of_ne other, ih]
  | case5 => rfl

theorem unifyLineEnds_append {first : List Char} (closed : first.getLast? ≠ some '\r') (second : List Char) :
    unifyLineEnds (first ++ '\n' :: second) = unifyLineEnds first ++ '\n' :: unifyLineEnds second := by
  fun_induction unifyLineEnds first with
  | case1 rest ih =>
    have ends : rest.getLast? ≠ some '\r' := by
      intro ended
      simp [List.getLast?_cons, ended] at closed
    simpa [unifyLineEnds] using ih ends
  | case2 rest alone ih =>
    cases rest with
    | nil => exact absurd rfl closed
    | cons d rest =>
      have other : d ≠ '\n' := fun feed => alone rest (by rw [feed])
      have ends : (d :: rest).getLast? ≠ some '\r' := by rwa [List.getLast?_cons_cons] at closed
      simpa [unifyLineEnds, other] using ih ends
  | case3 c rest _ plain ih =>
    have ends : rest.getLast? ≠ some '\r' := by
      intro ended
      simp [List.getLast?_cons, ended] at closed
    rw [List.cons_append, unifyLineEnds_cons plain, ih ends]
    rfl
  | case4 => rfl

end Text

namespace Sequence
open Scan

variable {state later : State} {cursor : Cursor} {result : List Placed}

-- What a reading tells of the text it reads

theorem rules_ignored : ∀ entry ∈ rules, entry.1.ignored = true → entry = (.blank, .run isSpacing) ∨
    entry = (.marker, .oneOf [.line "@startuml".toList, .line "@enduml".toList]) := by
  simp [rules, Kind.ignored]

theorem noteEnd_of_spacing {text : List Char}
    (closing : noteEndLength (text.drop (text.takeWhile isSpacing).length) ≠ 0) : noteEndLength text ≠ 0 := by
  induction text with
  | nil => exact closing
  | cons c rest ih =>
    cases spacing : isSpacing c with
    | false => simpa [spacing] using closing
    | true =>
      have inner : noteEndLength rest ≠ 0 := ih (by simpa [spacing] using closing)
      intro absent
      refine inner ?_
      unfold noteEndLength at absent ⊢
      simp only [List.takeWhile_cons, spacing, if_true, List.length_cons, List.drop_succ_cons] at absent
      split at absent
      · omega
      · rename_i noWord
        split at absent
        · omega
        · rename_i noWords
          rw [if_neg noWord, if_neg noWords]

theorem noteEnd_afterLine (text : List Char) : noteEndLength (text.drop (lineLength text)) = 0 := by
  induction text with
  | nil => rfl
  | cons c rest ih =>
    by_cases feed : c = '\n'
    · subst feed
      rfl
    · simpa [lineLength, untilLineFeed, feed] using ih

-- Behind blanks and markers the closing words of a note stand only if they stand before these too.
theorem noteEnd_of_ignored {kind : Kind} {rule : Rule} {text : List Char} (listed : (kind, rule) ∈ rules)
    (ignored : kind.ignored = true) (applies : rule text ≠ 0)
    (closing : noteEndLength (text.drop (rule text)) ≠ 0) : noteEndLength text ≠ 0 := by
  rcases rules_ignored _ listed ignored with blank | marker
  · cases blank
    exact noteEnd_of_spacing closing
  · cases marker
    obtain ⟨rule, one, applied, same⟩ := Rule.oneOf_rule applies
    obtain ⟨word, rfl⟩ : ∃ word, rule = Rule.line word := by
      simp only [List.mem_cons, List.not_mem_nil, or_false] at one
      rcases one with rfl | rfl
      · exact ⟨_, rfl⟩
      · exact ⟨_, rfl⟩
    rw [same] at closing
    unfold Rule.line at applied closing
    split at applied
    · rename_i found
      rw [if_pos found, ← List.drop_drop, noteEnd_afterLine] at closing
      exact absurd rfl closing
    · exact absurd rfl applied

-- A note is read only to its closing words, so they are there.
theorem noteBody_found (reads : grammar.Reads state cursor result) {side : String} {targets : List String}
    (stage : state.stage = .noteLines side targets) : noteBodyRule cursor.rest ≠ 0 := by
  induction reads with
  | done ended finish =>
    simp only [grammar, State.finish, stage] at finish
    cases finish
  | @skip state cursor _ _ count more found ignored _ ih =>
    obtain ⟨rule, listed, taken⟩ := firstMatch_rule found
    obtain ⟨before, after, whole, begins, closing⟩ := noteBodyLength_ne_zero_iff.1 (ih stage)
    refine noteBodyLength_ne_zero_iff.2 ?_
    change cursor.rest.drop (count + 1) = before ++ after at whole
    rcases begins with ⟨rfl, -⟩ | ended
    · refine ⟨[], cursor.rest, rfl, .inl ⟨rfl, rfl⟩, ?_⟩
      refine noteEnd_of_ignored listed ignored (taken ▸ Nat.succ_ne_zero count) ?_
      rwa [taken, whole]
    · refine ⟨cursor.rest.take (count + 1) ++ before, after, ?_, .inr ?_, closing⟩
      · rw [List.append_assoc, ← whole, List.take_append_drop]
      · simp [List.getLast?_append, ended]
  | take more found seen shifted _ ih =>
    obtain ⟨rule, listed, taken⟩ := firstMatch_rule found
    have looked := firstMatch_looked found
    rw [seen, Bool.false_or] at looked
    simp only [grammar, stage, Stage.expects, beq_iff_eq] at looked
    subst looked
    rcases rules_spanning _ listed rfl with body | other | other
    · cases body
      exact taken ▸ Nat.succ_ne_zero _
    · cases other
    · cases other

theorem takeWhile_fill (text : List Char) : (text.takeWhile isFill).length = (text.takeWhile isSpacing).length +
    ((text.drop (text.takeWhile isSpacing).length).takeWhile isFill).length := by
  induction text with
  | nil => rfl
  | cons c rest ih =>
    cases spacing : isSpacing c with
    | false => simp [spacing]
    | true =>
      simp [spacing, isFill, Nat.add_right_comm]
      simpa [isFill] using ih

-- Blank lines and indentation at the head of a statement make no difference.
theorem ready_fill (reads : grammar.Reads state cursor result) (ready : state.stage = .ready) :
    grammar.Reads state (cursor.skip (cursor.rest.takeWhile isFill).length) result := by
  induction reads with
  | done ended finish =>
    rw [ended]
    exact .done ended finish
  | @skip state cursor _ _ count more found ignored reads ih =>
    cases text : cursor.rest with
    | nil => exact absurd text more
    | cons c rest =>
      by_cases feed : c = '\n'
      · rw [text, feed, match_lineEnd (by rw [ready]; rfl)] at found
        cases found
        cases ignored
      cases spacing : isSpacing c with
      | true =>
        have again := ih ready
        rw [text, match_blank (by rw [ready]; rfl) spacing] at found
        cases found
        rw [Cursor.skip_skip] at again
        rw [takeWhile_fill, List.takeWhile_cons_of_pos spacing, List.length_cons, ← text]
        exact again
      | false =>
        rw [List.takeWhile_cons_of_neg (by simp [isFill, spacing, feed])]
        exact .skip more found ignored reads
  | @take state later cursor _ _ count more found seen shifted reads ih =>
    cases text : cursor.rest with
    | nil => exact absurd text more
    | cons c rest =>
      by_cases feed : c = '\n'
      · rw [text, feed, match_lineEnd (by rw [ready]; rfl)] at found
        cases found
        have same : state = later := by
          simpa [grammar, State.shift, ready, Stage.follow, nameOf?, State.endLine, Stage.complete?] using shifted
        rw [feed, List.takeWhile_cons_of_pos rfl, List.length_cons, same]
        exact reads
      cases spacing : isSpacing c with
      | true =>
        rw [text, match_blank (by rw [ready]; rfl) spacing] at found
        cases found
        cases seen
      | false =>
        rw [List.takeWhile_cons_of_neg (by simp [isFill, spacing, feed])]
        exact .take more found seen shifted reads

-- A line end does the same however many blank lines it takes with it.
theorem shift_lineEnd (state : State) (text other : List Char) (place : Position) (offset : Nat) :
    state.shift ⟨.lineEnd, text, place, offset⟩ = state.shift ⟨.lineEnd, other, place, offset⟩ := by
  unfold State.shift
  cases state.stage with
  | single use => cases use <;> rfl
  | noteTargets side targets more => cases more <;> rfl
  | _ => rfl

-- A text that is empty or ends with a line.
def Closed (text : List Char) : Prop := text = [] ∨ text.getLast? = some '\n'

theorem Closed.drop {text : List Char} (closed : Closed text) (count : Nat) : Closed (text.drop count) := by
  by_cases short : text.length ≤ count
  · exact .inl (List.drop_eq_nil_of_le short)
  · refine .inr ?_
    rw [List.getLast?_drop, if_neg short]
    exact closed.resolve_left fun empty => short (by simp [empty])

theorem reads_nil {done : List Placed} {stage : Stage} {place : Position}
    (reads : grammar.Reads ⟨done, stage, place⟩ cursor result) (ended : cursor.rest = []) :
    stage = .ready ∧ done = result := by
  cases reads with
  | done _ finish =>
    cases stage with
    | ready =>
      cases finish
      exact ⟨rfl, rfl⟩
    | _ => cases finish
  | skip more => exact absurd ended more
  | take more => exact absurd ended more

-- Where a text that ends with a line is read, more lines may follow: they are read from where it leads.
theorem reads_extend (reads : grammar.Reads state cursor result) (closed : Closed cursor.rest) {more : List Char}
    {whole : List Placed} (below : ∀ place, grammar.Reads ⟨result, .ready, place⟩ (cursor.seam more) whole) :
    grammar.Reads state (cursor.extend more) whole := by
  induction reads with
  | @done state cursor result ended finish =>
    obtain ⟨done, stage, place⟩ := state
    obtain ⟨rfl, rfl⟩ := reads_nil (.done ended finish) ended
    rw [← cursor.extend_skip_all more, ended] at below
    exact below place
  | @skip state cursor result kind count full found ignored reads ih =>
    have fits := match_fits found
    have note := fun side targets => @noteBody_found _ _ _ (.skip full found ignored reads) side targets
    have extended : (cursor.extend more).rest ≠ [] := List.append_ne_nil_of_left_ne_nil full more
    rcases match_append (closed.resolve_left full) note found more with same | ⟨rfl, -, -⟩
    · refine .skip extended same ignored ?_
      rw [Cursor.extend_skip fits]
      exact ih (closed.drop _) (by rwa [Cursor.seam_skip fits])
    · cases ignored
  | @take state later cursor result kind count full found seen shifted reads ih =>
    have fits := match_fits found
    have note := fun side targets => @noteBody_found _ _ _ (.take full found seen shifted reads) side targets
    have extended : (cursor.extend more).rest ≠ [] := List.append_ne_nil_of_left_ne_nil full more
    rcases match_append (closed.resolve_left full) note found more with same | ⟨rfl, last, longer⟩
    · have again : grammar.shift state ⟨kind, (cursor.extend more).rest.take (count + 1), cursor.position,
          cursor.offset⟩ = some later := by
        rw [← shifted, Cursor.extend, List.take_append_of_le_length fits]
      refine .take extended same seen again ?_
      rw [Cursor.extend_skip fits]
      exact ih (closed.drop _) (by rwa [Cursor.seam_skip fits])
    -- The line end takes blank lines from below as well, which the text below can spare.
    · obtain ⟨done, stage, place⟩ := later
      obtain ⟨rfl, rfl⟩ := reads_nil reads (List.drop_eq_nil_of_le (Nat.le_of_eq last.symm))
      refine .take extended longer seen ((shift_lineEnd _ _ _ _ _).trans shifted) ?_
      have rest : grammar.Reads _ ((cursor.seam more).skip (more.takeWhile isFill).length) whole :=
        ready_fill (below place) rfl
      rwa [← cursor.extend_skip_all more, Cursor.skip_skip, ← last, Nat.add_right_comm] at rest

-- Reading further down

-- The second state comes of the first where other statements stand above and the text is moved down. What a
-- ready state says of its place is never looked at.
structure Below (above : List Placed) (lines : Int) (state later : State) : Prop where
  done : later.done = above ++ state.done.map (·.lower lines)
  stage : later.stage = state.stage
  position : state.stage = .ready ∨ later.position = state.position.lower lines

variable {above : List Placed} {lines : Int}

theorem Below.endLine (below : Below above lines state later) {next : State} (ended : state.endLine = some next) :
    ∃ other, later.endLine = some other ∧ Below above lines next other := by
  unfold State.endLine at ended ⊢
  rw [below.stage]
  obtain ⟨completed, complete, rfl⟩ := Option.map_eq_some_iff.1 ended
  refine ⟨_, congrArg _ complete, ?_⟩
  cases completed with
  | none => exact below
  | some statement =>
    have busy : state.stage ≠ .ready := by
      intro ready
      rw [ready] at complete
      cases complete
    have place := below.position.resolve_left busy
    refine ⟨?_, rfl, .inl rfl⟩
    simp [below.done, place, Placed.lower]

theorem Below.shift (below : Below above lines state later) {kind : Kind} {text : List Char} {place : Position}
    {offset : Nat} {next : State} (shifted : state.shift ⟨kind, text, place, offset⟩ = some next) (other : Nat) :
    ∃ after, later.shift ⟨kind, text, place.lower lines, other⟩ = some after ∧ Below above lines next after := by
  have same : later.stage.follow ⟨kind, text, place.lower lines, other⟩ =
      state.stage.follow ⟨kind, text, place, offset⟩ := by
    rw [below.stage]
    rfl
  unfold State.shift at shifted ⊢
  rw [same, below.stage]
  split at shifted
  · rename_i stage ready followed
    cases shifted
    exact ⟨_, rfl, below.done, rfl, .inr rfl⟩
  · rename_i stage followed busy
    cases shifted
    exact ⟨_, rfl, below.done, rfl, .inr (below.position.resolve_left busy)⟩
  · split at shifted
    · rename_i lineEnd
      rw [if_pos lineEnd]
      exact below.endLine shifted
    · cases shifted

theorem Below.reads (reads : grammar.Reads state cursor result) (below : Below above lines state later) (offset : Nat) :
    grammar.Reads later ⟨cursor.rest, cursor.position.lower lines, offset⟩ (above ++ result.map (·.lower lines)) := by
  induction reads generalizing later offset with
  | @done state cursor result ended finish =>
    refine .done ended ?_
    obtain ⟨ready, rfl⟩ := reads_nil (.done ended finish) ended
    simp [grammar, State.finish, below.stage, ready, below.done]
  | @skip state cursor result kind count full found ignored reads ih =>
    have same : grammar.match? later cursor.rest = some (kind, count) := by
      rw [← found, Grammar.match?, Grammar.match?]
      simp only [grammar, below.stage]
    refine .skip full same ignored ?_
    have rest := ih below (offset + (count + 1))
    rwa [Cursor.skip, ← Position.advance_lower] at rest
  | @take state next cursor result kind count full found seen shifted reads ih =>
    have same : grammar.match? later cursor.rest = some (kind, count) := by
      rw [← found, Grammar.match?, Grammar.match?]
      simp only [grammar, below.stage]
    obtain ⟨after, moved, placed⟩ := below.shift shifted offset
    refine .take full same seen moved ?_
    have rest := ih placed (offset + (count + 1))
    rwa [Cursor.skip, ← Position.advance_lower] at rest

theorem parse_eq_ok {text : String} {document : Document} : parse text = .ok document ↔
    document.format = .sequence ∧
      grammar.Reads grammar.start (Cursor.start (prepare text.toList)) document.statements := by
  rw [← Grammar.parse_ok_iff, parse]
  cases parsed : grammar.parse .sequence (prepare text.toList) with
  | error failure => simp
  | ok statements =>
    obtain ⟨format, listed⟩ := document
    simp [eq_comm]

theorem prepare_append {first : List Char} (closed : first.getLast? ≠ some '\r') (second : List Char) :
    prepare (first ++ '\n' :: second) = prepare first ++ prepare second := by
  simp [prepare, unifyLineEnds_append closed]

-- Nothing that is said on the lines above reaches over the line end between two texts, and nothing below reaches back.
theorem parse_joined {first second : String} {one two : Document} (closed : first.toList.getLast? ≠ some '\r')
    (above : parse first = .ok one) (below : parse second = .ok two) :
    parse (first ++ "\n" ++ second) =
      .ok ⟨.sequence, one.statements ++ two.statements.map (·.lower (1 + lineEnds first.toList))⟩ := by
  obtain ⟨-, upper⟩ := parse_eq_ok.1 above
  obtain ⟨-, lower⟩ := parse_eq_ok.1 below
  have text : (first ++ "\n" ++ second).toList = first.toList ++ '\n' :: second.toList := by simp
  have place : Position.start.advance (prepare first.toList) = Position.start.lower (1 + lineEnds first.toList) := by
    rw [prepare, Position.advance_feed, count_unifyLineEnds]
    simp only [Position.lower, Position.start, Position.mk.injEq, and_true]
    omega
  refine parse_eq_ok.2 ⟨rfl, ?_⟩
  rw [text, prepare_append closed]
  refine reads_extend upper (.inr List.getLast?_concat) ?_
  intro start
  have moved : Below one.statements (1 + lineEnds first.toList) State.start ⟨one.statements, .ready, start⟩ :=
    ⟨by simp [State.start], rfl, .inl rfl⟩
  rw [Cursor.seam, Cursor.start, place]
  exact Below.reads lower moved _

-- The note above runs over lines, and so does the comment below, which a marker line follows.
theorem parse_joined_note :
    let first := "A -> B : hello\r\nnote left of A\r  end \r\n end note\n"
    let second := "  /' one\n two '/\r\n@startuml\r\nactivate B"
    let one : List Placed :=
      [⟨⟨1, 1⟩, .message "A" "->" "B" (some "hello") none⟩, ⟨⟨2, 1⟩, .note ["A"] "left" "end"⟩]
    let two : List Placed := [⟨⟨1, 3⟩, .comment "one\n two"⟩, ⟨⟨4, 1⟩, .activation "B" Table.empty⟩]
    first.toList.getLast? ≠ some '\r' ∧ parse first = .ok ⟨.sequence, one⟩ ∧ parse second = .ok ⟨.sequence, two⟩ ∧
      parse (first ++ "\n" ++ second) = .ok ⟨.sequence, one ++
        [⟨⟨6, 3⟩, .comment "one\n two"⟩, ⟨⟨9, 1⟩, .activation "B" Table.empty⟩]⟩ := by
  intro first second one two
  have closed : first.toList.getLast? ≠ some '\r' := by decide
  have above : parse first = .ok ⟨.sequence, one⟩ := ok_of_toOption (by decide +kernel)
  have below : parse second = .ok ⟨.sequence, two⟩ := ok_of_toOption (by decide +kernel)
  have joined := parse_joined closed above below
  rw [show lineEnds first.toList = 4 by decide +kernel] at joined
  exact ⟨closed, above, below, joined⟩

end Sequence
end DiagramStream
