import DiagramStream.Proofs.Dot.RoundTrip
import DiagramStream.Proofs.Dot.Rules

/-!
Blanks and comments between the tokens of graph texts. Main statement: one more of them, at the start of a text or
behind any of its tokens, leaves the statements that are read.
-/

namespace DiagramStream.Dot
open Text Scan

variable {done all : List Statement} {stage : Stage} {kind : Kind} {state : State} {body opener piece text : List Char}

-- What two states come to that show the same.
theorem complete?_alike {one two : State} {result : List Placed} (same : one.outline = two.outline)
    (whole : one.complete? = some result) :
    ∃ other, two.complete? = some other ∧ other.map Placed.statement = result.map Placed.statement := by
  obtain ⟨sameDone, sameStage⟩ := Prod.mk.inj same
  refine Option.map_eq_some_iff.1 ?_
  rw [State.complete?_outline, ← sameDone, ← sameStage, ← State.complete?_outline, whole]
  rfl

theorem shift_alike {one two next : State} {word : List Char} {place place' : Position} {offset offset' : Nat}
    (same : one.outline = two.outline) (shifted : one.shift ⟨kind, word, place, offset⟩ = some next) :
    ∃ other, two.shift ⟨kind, word, place', offset'⟩ = some other ∧ other.outline = next.outline := by
  obtain ⟨sameDone, sameStage⟩ := Prod.mk.inj same
  -- The next stage does not hang on where the token stands.
  have followed : two.stage.follow ⟨kind, word, place', offset'⟩ = one.stage.follow ⟨kind, word, place, offset⟩ := by
    rw [sameStage]
    rfl
  cases step : one.stage.follow ⟨kind, word, place, offset⟩ with
  | some stage =>
    obtain ⟨after, moved, view⟩ := State.shift_follow step
    cases moved.symm.trans shifted
    obtain ⟨other, moved, viewed⟩ := State.shift_follow (followed.trans step)
    exact ⟨other, moved, by rw [viewed, view, sameDone]⟩
  | none =>
    rw [State.shift_silent step] at shifted
    obtain ⟨statements, whole, begun⟩ := Option.bind_eq_some_iff.1 shifted
    obtain ⟨stage, begins, rfl⟩ := Option.map_eq_some_iff.1 begun
    replace begins : Stage.begin ⟨kind, word, place', offset'⟩ = some stage := begins
    obtain ⟨others, whole, alike⟩ := complete?_alike same whole
    refine ⟨⟨others, stage, place'⟩, ?_, Prod.ext alike rfl⟩
    rw [State.shift_silent (followed.trans step), whole, begins]
    rfl

-- Statements do not hang on where their tokens stand.
theorem respects : grammar.Respects State.outline (List.map Placed.statement) :=
  ⟨fun same => congrArg Stage.expects (Prod.mk.inj same).2, fun _ _ => shift_alike, complete?_alike⟩

-- A run of blanks, a comment between two marks, or a comment with the end of its line.
inductive Filler : List Char → Prop where
  | blanks {run : List Char} : run ≠ [] → (∀ c ∈ run, isGap c = true) → Filler run
  | block {body : List Char} : ¬ ['*', '/'] <:+: body → Filler ("/*".toList ++ body ++ "*/".toList)
  | line {opener : String} {body : List Char} : opener = "//" ∨ opener = "#" → '\n' ∉ body →
      Filler (opener.toList ++ body ++ ['\n'])

theorem through_close {count : Nat} (open_ : ¬ ['*', '/'] <:+: body) (text : List Char) :
    Rule.through ['*', '/'] count (body ++ '*' :: '/' :: text) = count + body.length + 2 := by
  induction body generalizing count with
  | nil => rfl
  | cons c body ih =>
    have later : ¬ ['*', '/'] <:+: body := fun inside => open_ (List.IsInfix.trans inside (List.suffix_cons c body).isInfix)
    have here : ¬ ['*', '/'].isPrefixOf (c :: (body ++ '*' :: '/' :: text)) = true := by
      intro closes
      obtain ⟨rfl, more⟩ := List.cons_prefix_cons.1 (List.isPrefixOf_iff_prefix.1 closes)
      cases body with
      | nil => simp at more
      | cons d body =>
        obtain rfl := (List.cons_prefix_cons.1 more).1
        exact open_ (List.prefix_append ['*', '/'] body).isInfix
    rw [List.cons_append, Rule.through, if_neg here, ih later, List.length_cons]
    omega

theorem line_close (whole : '\n' ∉ body) (word text : List Char) :
    Rule.line word (word ++ body ++ '\n' :: text) = (word ++ body).length := by
  rw [List.append_assoc, Rule.line, if_pos (List.isPrefixOf_iff_prefix.2 (List.prefix_append _ _)), List.drop_left,
    lineLength, untilLineFeed_line whole, List.length_append]

-- Comments are taken in any state.
theorem match_remark (place : Nat) (here : rules[place]? = some (kind, ruleOf kind)) (ignored : kind.ignored = true)
    (some_ : piece ≠ []) (applies : ruleOf kind (piece ++ text) = piece.length)
    (silent : ((rules.take place).all fun entry => entry.2 (piece ++ text) == 0) = true) (state : State) :
    grammar.match? state (piece ++ text) = some (kind, piece.length - 1) := by
  refine firstMatch_at place here (by simp [grammar, ignored]) ?_ ?_
  · have := List.length_pos_iff.2 some_
    omega
  · intro entry listed _
    exact beq_iff_eq.1 (List.all_eq_true.1 silent entry listed)

theorem leading_remark (place : Nat) (here : rules[place]? = some (kind, ruleOf kind)) (ignored : kind.ignored = true)
    (some_ : piece ≠ []) (applies : ruleOf kind (piece ++ text) = piece.length)
    (silent : ((rules.take place).all fun entry => entry.2 (piece ++ text) == 0) = true)
    (rest : Leading done stage text all) : Leading done stage (piece ++ text) all := by
  have := List.length_pos_iff.2 some_
  exact Grammar.Leads.over (by omega) ignored (fun state _ => match_remark place here ignored some_ applies silent state) rest

theorem leading_block (open_ : ¬ ['*', '/'] <:+: body) (rest : Leading done stage text all) :
    Leading done stage ("/*".toList ++ body ++ "*/".toList ++ text) all := by
  have closed : Rule.through ['*', '/'] 2 (body ++ '*' :: '/' :: text) = 2 + body.length + 2 := through_close open_ text
  refine @leading_remark _ _ _ .blockComment _ _ 8 rfl rfl (by simp) ?_ rfl rest
  show Rule.through ['*', '/'] 2 (body ++ "*/".toList ++ text) = _
  rw [List.append_assoc]
  refine closed.trans ?_
  simp only [List.length_append]
  exact (Nat.add_assoc ..)

theorem leading_line {opener : String} (known : opener = "//" ∨ opener = "#") (whole : '\n' ∉ body)
    (rest : Leading done stage text all) : Leading done stage (opener.toList ++ body ++ ['\n'] ++ text) all := by
  have closed := line_close whole opener.toList text
  replace rest : Leading done stage ('\n' :: text) all := leading_gap rfl rest
  rw [List.append_assoc]
  rcases known with rfl | rfl
  · exact @leading_remark _ _ _ .lineComment _ _ 12 rfl rfl (by simp) closed rfl rest
  · exact @leading_remark _ _ _ .hashComment _ _ 13 rfl rfl (by simp) closed rfl rest

theorem leading_filler (filler : Filler piece) (rest : Leading done stage text all) :
    Leading done stage (piece ++ text) all := by
  cases filler with
  | blanks some_ gaps =>
    clear some_
    induction piece with
    | nil => exact rest
    | cons c run ih =>
      obtain ⟨gap, gaps⟩ := List.forall_mem_cons.1 gaps
      exact leading_gap gap (ih gaps)
  | block open_ => exact leading_block open_ rest
  | line known whole => exact leading_line known whole rest

theorem filler_cut (filler : Filler piece) (seen : kind.ignored = false) :
    ∃ c more, piece = c :: more ∧ kind.endsAt c = true := by
  cases filler with
  | blanks some_ gaps =>
    obtain ⟨c, more, rfl⟩ := List.exists_cons_of_ne_nil some_
    exact ⟨c, more, rfl, by simp [Kind.endsAt, seen, gaps c List.mem_cons_self]⟩
  | block => exact ⟨'/', _, rfl, by simp [Kind.endsAt, seen]⟩
  | line known =>
    rcases known with rfl | rfl
    · exact ⟨'/', _, rfl, by simp [Kind.endsAt, seen]⟩
    · exact ⟨'#', _, rfl, by simp [Kind.endsAt, seen]⟩

def tokens (text : List Char) : List (Token Kind) := grammar.tokens State.start (Cursor.start text)

-- The start of a text, and the end of each of its tokens.
def seams (text : List Char) : List Nat := 0 :: (tokens text).map fun token => token.offset + token.text.length

def inserted (text : String) (place : Nat) (piece : List Char) : String :=
  String.ofList (text.toList.take place ++ piece ++ text.toList.drop place)

theorem reads_spaced {result : List Placed} {seam : Nat} (reads : grammar.Reads State.start (Cursor.start text) result)
    (listed : seam ∈ seams text) (filler : Filler piece) :
    ∃ other, grammar.Reads State.start (Cursor.start (text.take seam ++ piece ++ text.drop seam)) other ∧
      other.map Placed.statement = result.map Placed.statement := by
  rcases List.mem_cons.1 listed with rfl | listed
  · exact leading_filler filler (reads.leads respects) State.start (Cursor.start _) rfl rfl
  · obtain ⟨token, inside, rfl⟩ := List.mem_map.1 listed
    obtain ⟨gone, rest, before, later, stands⟩ := reads.stands fits inside
    obtain ⟨c, more, rfl, cut⟩ := filler_cut filler stands.seen
    have whole : text = gone ++ token.text ++ rest := by
      rw [List.append_assoc]
      exact stands.text
    have seam : token.offset + token.text.length = (gone ++ token.text).length := by
      rw [stands.offset, List.length_append]
      exact congrArg (· + token.text.length) (Nat.zero_add _)
    have behind := (stands.behind_iff steady stands.found).1 (by rw [← stands.text]; exact reads)
    obtain ⟨other, reads, same⟩ := leading_filler filler (behind.leads respects) later
      ⟨c :: more ++ rest, token.position.advance token.text, token.offset + token.text.length⟩ rfl rfl
    obtain ⟨count, length, found⟩ := stands.found
    have goes := (stands.behind_iff steady ⟨count, length, match_cut length found cut (more ++ rest)⟩).2 reads
    refine ⟨other, ?_, same⟩
    rw [seam, whole, List.take_left, List.drop_left, List.append_assoc, List.append_assoc]
    exact goes

theorem parse_ok {document : Document} {text : String} (parsed : parse text = .ok document) :
    ∃ result, document = ⟨.dot, result⟩ ∧ grammar.Reads State.start (Cursor.start text.toList) result := by
  unfold parse at parsed
  split at parsed
  · rename_i result read
    cases parsed
    exact ⟨result, rfl, Grammar.parse_ok_iff.1 read⟩
  · cases parsed

-- Nothing runs together or falls apart, whatever the tokens beside the place are.
theorem parse_spaced {source : String} {document : Document} {seam : Nat} (parsed : parse source = .ok document)
    (place : seam ∈ seams source.toList) (filler : Filler piece) :
    ∃ placed, parse (inserted source seam piece) = .ok ⟨.dot, placed⟩ ∧
      placed.map Placed.statement = document.statements.map Placed.statement := by
  obtain ⟨result, rfl, reads⟩ := parse_ok parsed
  obtain ⟨other, goes, same⟩ := reads_spaced reads place filler
  refine ⟨other, ?_, same⟩
  rw [parse, inserted, String.toList_ofList, (Grammar.parse_ok_iff).2 goes]

-- A comment with a slash and stars at the ends of its body, between an operator and a number with a sign.
theorem parse_spaced_operator :
    let source := "digraph\x7ba->-.5:\"x\\\"y\"[k]\x7d"
    let document : Document := ⟨.dot, [⟨⟨1, 1⟩, .graphOpen true false none⟩,
      ⟨⟨1, 9⟩, .edgeStatement [[⟨"a", none⟩], [⟨"-.5", some "x\"y"⟩]] ["->"] (Table.ofList [("k", "true")])⟩,
      ⟨⟨1, 25⟩, .scopeClose [] [] Table.empty⟩]⟩
    parse source = .ok document ∧ 11 ∈ seams source.toList ∧ Filler "/*/***/".toList ∧
      inserted source 11 "/*/***/".toList = "digraph\x7ba->/*/***/-.5:\"x\\\"y\"[k]\x7d" ∧
      ∃ placed, parse (inserted source 11 "/*/***/".toList) = .ok ⟨.dot, placed⟩ ∧
        placed.map Placed.statement = document.statements.map Placed.statement := by
  intro source document
  have parsed : parse source = .ok document := ok_of_toOption (by decide +kernel)
  have place : 11 ∈ seams source.toList := by decide +kernel
  have filler : Filler "/*/***/".toList := @Filler.block ['/', '*', '*'] (by decide)
  exact ⟨parsed, place, filler, by decide +kernel, parse_spaced parsed place filler⟩

end DiagramStream.Dot
