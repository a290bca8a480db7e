import DiagramStream.Proofs.Scan.Line
import DiagramStream.Proofs.Scan.Reading
import DiagramStream.Sequence.Grammar

/-!
Which tokens of a sequence text keep to their line, and what becomes of the others when lines are added below. Main
statement: notes, block comments and line ends apart, what is found at a place does not depend on the lines below.
-/

namespace DiagramStream.Sequence
open Text Scan

variable {text more : List Char}

-- Rules that keep to their line

theorem keywords_withinLine {words : List String} (whole : ∀ word ∈ words, '\n' ∉ word.toList) :
    (keywords words).WithinLine := by
  refine Rule.oneOf_withinLine ?_
  intro rule listed
  obtain ⟨word, known, rfl⟩ := List.mem_map.1 listed
  exact Rule.keyword_withinLine (whole word known)

-- What the rules ask for after the mark that opens them

def stereotypeInside (rest : List Char) : Nat :=
  match rest.drop (rest.takeWhile isSpacing).length with
  | c :: more =>
    if isWord c || c == '"' then
      let body := (more.takeWhile fun c => c != '>' && c != '\n').length
      if ['>', '>'].isPrefixOf (more.drop body) then 2 + (rest.takeWhile isSpacing).length + 1 + body + 2 else 0
    else 0
  | [] => 0

def markInside (rest : List Char) : Nat :=
  match rest.dropWhile isSpacing with
  | c :: _ => if c == ':' || c == '\n' then 2 else 0
  | [] => 0

def quotedInside (rest : List Char) : Nat :=
  match rest.drop (rest.takeWhile fun c => c != '"' && c != '\n').length with
  | '"' :: _ => (rest.takeWhile fun c => c != '"' && c != '\n').length + 2
  | _ => 0

theorem stereotypeRule_withinLine : Rule.WithinLine stereotypeRule := by
  have same : stereotypeRule = Rule.opened ['<', '<'] stereotypeInside := by
    refine Rule.eq_opened (fun _ => rfl) ?_
    intro text other
    unfold stereotypeRule
    split
    · exact absurd rfl (other _)
    · rfl
  rw [same]
  refine Rule.opened_withinLine (by decide) ?_
  intro line below other _
  unfold stereotypeInside
  rw [takeWhile_line rfl, takeWhile_line rfl, drop_takeWhile_line, drop_takeWhile_line]
  cases line.dropWhile isSpacing with
  | nil => rfl
  | cons c more =>
    simp only [List.cons_append]
    rw [takeWhile_line rfl, takeWhile_line rfl, drop_takeWhile_line, drop_takeWhile_line,
      isPrefixOf_line (by decide), isPrefixOf_line (by decide)]

theorem markRule_withinLine : Rule.WithinLine markRule := by
  have same : markRule = fun text => if ['+', '+'].isPrefixOf text then 2 else
      Rule.opened ['-', '-'] markInside text := by
    funext text
    by_cases plus : ['+', '+'].isPrefixOf text = true
    · obtain ⟨rest, rfl⟩ := List.isPrefixOf_iff_prefix.1 plus
      rfl
    · rw [if_neg plus]
      unfold markRule Rule.opened
      split
      · exact absurd rfl plus
      · rfl
      · rename_i minus
        refine (if_neg ?_).symm
        intro found
        obtain ⟨rest, rfl⟩ := List.isPrefixOf_iff_prefix.1 found
        exact minus rest rfl
  have body : Rule.WithinLine markInside := by
    intro line below other _
    unfold markInside
    rw [dropWhile_line rfl, dropWhile_line rfl]
    cases line.dropWhile isSpacing <;> rfl
  rw [same]
  intro line below other whole
  dsimp only
  rw [isPrefixOf_line (by decide), isPrefixOf_line (by decide),
    Rule.opened_withinLine (by decide) body line below other whole]

theorem arrowRule_withinLine : Rule.WithinLine arrowRule := by
  intro line below other _
  cases line with
  | nil => rfl
  | cons c rest =>
    simp only [arrowRule, List.cons_append]
    rw [takeWhile_line (by decide), takeWhile_line (by decide), dropWhile_line (by decide), dropWhile_line (by decide)]
    cases rest.dropWhile isArrowPart with
    | nil => rfl
    | cons tip more => simp only [List.cons_append, atWordEnd_line]

theorem textRule_withinLine : Rule.WithinLine textRule := by
  intro line below other whole
  cases line with
  | nil => rfl
  | cons c rest =>
    have later : '\n' ∉ rest := fun member => whole (List.mem_cons_of_mem _ member)
    simp only [textRule, List.cons_append, lineLength, untilLineFeed_line later]

theorem quotedRule_withinLine : Rule.WithinLine quotedRule := by
  have same : quotedRule = Rule.opened ['"'] quotedInside := by
    refine Rule.eq_opened (fun _ => rfl) ?_
    intro text other
    unfold quotedRule
    split
    · exact absurd rfl (other _)
    · rfl
  rw [same]
  refine Rule.opened_withinLine (by decide) ?_
  intro line below other _
  unfold quotedInside
  rw [takeWhile_line rfl, takeWhile_line rfl, drop_takeWhile_line, drop_takeWhile_line]
  cases line.dropWhile (fun c => c != '"' && c != '\n') with
  | nil => rfl
  | cons c more => by_cases quote : c = '"' <;> simp [quote]

theorem colorRule_withinLine : Rule.WithinLine colorRule := by
  have same : colorRule = Rule.opened ['#'] fun rest =>
      if wordLength rest = 0 then 0 else 1 + wordLength rest := by
    refine Rule.eq_opened (fun _ => rfl) ?_
    intro text other
    unfold colorRule
    split
    · exact absurd rfl (other _)
    · rfl
  rw [same]
  refine Rule.opened_withinLine (by decide) ?_
  intro line below other _
  simp only [wordLength, @takeWhile_line isWord rfl]

theorem noteEndLength_line (line below : List Char) : noteEndLength (line ++ '\n' :: below) = noteEndLength line := by
  unfold noteEndLength
  dsimp only
  rw [takeWhile_line rfl, drop_takeWhile_line, drop_takeWhile]
  simp only [@isPrefixOf_line "endnote".toList (by decide), @isPrefixOf_line "end note".toList (by decide)]

theorem noteEndLength_withinLine : Rule.WithinLine noteEndLength :=
  Rule.withinLine_of noteEndLength fun line below _ => noteEndLength_line line below

-- Notes, block comments and line ends reach over lines.
def Kind.spans : Kind → Bool
  | .noteBody => true
  | .blockComment => true
  | .lineEnd => true
  | _ => false

theorem rules_withinLine : ∀ entry ∈ rules, entry.1.spans = false → entry.2.WithinLine := by
  simp only [rules, List.forall_mem_cons]
  refine ⟨fun _ => stereotypeRule_withinLine, fun _ => markRule_withinLine, fun _ => keywords_withinLine (by decide),
    fun _ => keywords_withinLine (by decide), fun _ => keywords_withinLine (by decide),
    fun _ => keywords_withinLine (by decide), fun _ => keywords_withinLine (by decide),
    fun _ => keywords_withinLine (by decide), fun _ => keywords_withinLine (by decide),
    fun _ => keywords_withinLine (by decide), fun _ => keywords_withinLine (by decide),
    fun _ => keywords_withinLine (by decide), fun _ => keywords_withinLine (by decide),
    fun _ => keywords_withinLine (by decide), fun _ => arrowRule_withinLine, nofun, ?_, nofun,
    fun _ => Rule.run_withinLine rfl, fun _ => Rule.line_withinLine (by decide),
    fun _ => Rule.line_withinLine (by decide), fun _ => Rule.word_withinLine, fun _ => textRule_withinLine, nofun,
    fun _ => quotedRule_withinLine, fun _ => Rule.line_withinLine (by decide),
    fun _ => Rule.line_withinLine (by decide), fun _ => Rule.line_withinLine (by decide),
    fun _ => colorRule_withinLine, fun _ => Rule.literal_withinLine (by decide), nofun⟩
  intro _
  refine Rule.oneOf_withinLine ?_
  simp only [List.forall_mem_cons]
  exact ⟨Rule.line_withinLine (by decide), Rule.line_withinLine (by decide), nofun⟩

-- The rules that do not

theorem rules_spanning : ∀ entry ∈ rules, entry.1.spans = true →
    entry = (.noteBody, noteBodyRule) ∨ entry = (.blockComment, .enclosed ['/', '\x27'] ['\x27', '/']) ∨
      entry = (.lineEnd, lineEndRule) := by
  simp [rules, Kind.spans]

theorem noteBodyLength_append {fresh : Bool} {count : Nat} (ends : text.getLast? = some '\n')
    (found : noteBodyLength fresh count text ≠ 0) (more : List Char) :
    noteBodyLength fresh count (text ++ more) = noteBodyLength fresh count text := by
  induction text generalizing fresh count with
  | nil => exact absurd rfl found
  | cons c rest ih =>
    have closing : noteEndLength (c :: (rest ++ more)) = noteEndLength (c :: rest) :=
      noteEndLength_withinLine.append (List.mem_of_getLast? ends) more
    rw [List.cons_append]
    unfold noteBodyLength at found ⊢
    rw [closing]
    split
    · rfl
    · rename_i open_
      rw [if_neg open_] at found
      cases rest with
      | nil => exact absurd rfl found
      | cons d rest => exact ih (by rwa [List.getLast?_cons_cons] at ends) found

-- A note ends where a line begins with the closing words.
theorem noteBodyLength_ne_zero_iff {fresh : Bool} {count : Nat} : noteBodyLength fresh count text ≠ 0 ↔
    ∃ before after, text = before ++ after ∧ (before = [] ∧ fresh = true ∨ before.getLast? = some '\n') ∧
      noteEndLength after ≠ 0 := by
  induction text generalizing fresh count with
  | nil =>
    refine iff_of_false (fun found => found rfl) ?_
    rintro ⟨before, after, empty, -, closing⟩
    obtain ⟨rfl, rfl⟩ := List.append_eq_nil_iff.1 empty.symm
    exact closing rfl
  | cons c rest ih =>
    unfold noteBodyLength
    by_cases here : (fresh && noteEndLength (c :: rest) ≠ 0) = true
    · obtain ⟨begins, closing⟩ : fresh = true ∧ noteEndLength (c :: rest) ≠ 0 := by simpa using here
      rw [if_pos here]
      exact iff_of_true (by omega) ⟨[], c :: rest, rfl, .inl ⟨rfl, begins⟩, closing⟩
    · rw [if_neg here, ih]
      constructor
      · rintro ⟨before, after, rfl, begins, closing⟩
        refine ⟨c :: before, after, rfl, .inr ?_, closing⟩
        rcases begins with ⟨rfl, feed⟩ | ended
        · simpa using feed
        · rw [List.getLast?_cons, ended]
          rfl
      · rintro ⟨before, after, whole, begins, closing⟩
        cases before with
        | nil =>
          rw [List.nil_append] at whole
          have begins : fresh = true := by simpa using begins
          exact absurd (by simp [begins, whole, closing]) here
        | cons d before =>
          obtain ⟨rfl, rfl⟩ := List.cons.inj whole
          refine ⟨before, after, rfl, ?_, closing⟩
          obtain ended : (c :: before).getLast? = some '\n' := by simpa using begins
          cases before with
          | nil => exact .inl ⟨rfl, by simpa using ended⟩
          | cons e before => exact .inr (by rwa [List.getLast?_cons_cons] at ended)

-- No rule takes more than there is

theorem keywords_bounded (words : List String) : (keywords words).Bounded := by
  refine Rule.oneOf_bounded ?_
  intro rule listed
  obtain ⟨word, -, rfl⟩ := List.mem_map.1 listed
  exact Rule.keyword_bounded _

theorem stereotypeRule_bounded : Rule.Bounded stereotypeRule := by
  intro text
  unfold stereotypeRule
  split
  · rename_i rest
    dsimp only
    split
    · rename_i c more after
      have inner := congrArg List.length after
      rw [List.length_drop, List.length_cons] at inner
      split
      · split
        · rename_i closes
          obtain ⟨tail, ends⟩ := List.isPrefixOf_iff_prefix.1 closes
          have outer := congrArg List.length ends
          rw [List.length_append, List.length_drop] at outer
          simp only [List.length_cons, List.length_nil] at outer ⊢
          omega
        · exact Nat.zero_le _
      · exact Nat.zero_le _
    · exact Nat.zero_le _
  · exact Nat.zero_le _

theorem markRule_bounded : Rule.Bounded markRule := by
  intro text
  unfold markRule
  split
  · simp
  · split
    · split <;> simp
    · exact Nat.zero_le _
  · exact Nat.zero_le _

theorem arrowRule_bounded : Rule.Bounded arrowRule := by
  intro text
  unfold arrowRule
  split
  · rename_i c rest
    have whole := congrArg List.length (List.takeWhile_append_dropWhile (p := isArrowPart) (l := rest))
    rw [List.length_append] at whole
    split
    · dsimp only
      split
      · rename_i tip more after
        rw [after] at whole
        simp only [List.length_cons] at whole ⊢
        split <;> omega
      · simp only [List.length_cons]
        omega
    · exact Nat.zero_le _
  · exact Nat.zero_le _

theorem textRule_bounded : Rule.Bounded textRule := by
  intro text
  unfold textRule
  split
  · rename_i c rest
    have fits : lineLength rest ≤ rest.length := (List.takeWhile_prefix _).length_le
    simp only [List.length_cons]
    split <;> omega
  · exact Nat.zero_le _

theorem noteEndLength_bounded : Rule.Bounded noteEndLength := by
  intro text
  unfold noteEndLength
  dsimp only
  split
  · rename_i closes
    have fits := (List.isPrefixOf_iff_prefix.1 closes).length_le
    rw [List.length_drop] at fits
    change 7 ≤ _ at fits
    omega
  · split
    · rename_i closes
      have fits := (List.isPrefixOf_iff_prefix.1 closes).length_le
      rw [List.length_drop] at fits
      change 8 ≤ _ at fits
      omega
    · exact Nat.zero_le _

theorem noteBodyLength_bounded (fresh : Bool) (count : Nat) (text : List Char) :
    noteBodyLength fresh count text ≤ count + text.length := by
  induction text generalizing fresh count with
  | nil => exact Nat.zero_le _
  | cons c rest ih =>
    unfold noteBodyLength
    split
    · exact Nat.add_le_add_left (noteEndLength_bounded _) _
    · refine Nat.le_trans (ih _ _) ?_
      simp only [List.length_cons]
      omega

theorem lineEndRule_bounded : Rule.Bounded lineEndRule := by
  intro text
  unfold lineEndRule
  split
  · rename_i rest
    have fits := (List.takeWhile_prefix (l := rest) fun c => isSpacing c || c == '\n').length_le
    simp only [List.length_cons]
    omega
  · exact Nat.zero_le _

theorem quotedRule_bounded : Rule.Bounded quotedRule := by
  intro text
  unfold quotedRule
  split
  · rename_i rest
    dsimp only
    split
    · rename_i more after
      have inner := congrArg List.length after
      rw [List.length_drop, List.length_cons] at inner
      simp only [List.length_cons]
      omega
    · exact Nat.zero_le _
  · exact Nat.zero_le _

theorem colorRule_bounded : Rule.Bounded colorRule := by
  intro text
  unfold colorRule
  split
  · rename_i rest
    have fits : wordLength rest ≤ rest.length := (List.takeWhile_prefix _).length_le
    simp only [List.length_cons]
    split <;> omega
  · exact Nat.zero_le _

theorem rules_bounded : ∀ entry ∈ rules, entry.2.Bounded := by
  simp only [rules, List.forall_mem_cons]
  refine ⟨stereotypeRule_bounded, markRule_bounded, keywords_bounded _, keywords_bounded _, keywords_bounded _,
    keywords_bounded _, keywords_bounded _, keywords_bounded _, keywords_bounded _, keywords_bounded _,
    keywords_bounded _, keywords_bounded _, keywords_bounded _, keywords_bounded _, arrowRule_bounded, ?_, ?_,
    Rule.enclosed_bounded _ _, Rule.run_bounded _, Rule.line_bounded _, Rule.line_bounded _, Rule.word_bounded,
    textRule_bounded, lineEndRule_bounded, quotedRule_bounded, Rule.line_bounded _, Rule.line_bounded _,
    Rule.line_bounded _, colorRule_bounded, Rule.literal_bounded _, nofun⟩
  · intro text
    exact Nat.le_trans (noteBodyLength_bounded true 0 text) (Nat.le_of_eq (Nat.zero_add _))
  · refine Rule.oneOf_bounded ?_
    simp only [List.forall_mem_cons]
    exact ⟨Rule.line_bounded _, Rule.line_bounded _, nofun⟩

-- What is found at a place

variable {state : State} {kind : Kind} {count : Nat}

theorem expects_noteBody {stage : Stage} (expected : stage.expects .noteBody = true) :
    ∃ side targets, stage = .noteLines side targets := by
  cases stage with
  | noteLines side targets => exact ⟨side, targets, rfl⟩
  | whole _ named => cases named <;> cases expected
  | _ => cases expected

theorem expects_blockComment {stage : Stage} (expected : stage.expects .blockComment = true) : stage = .ready := by
  cases stage with
  | ready => rfl
  | whole _ named => cases named <;> cases expected
  | _ => cases expected

theorem match_noteBody {side : String} {targets : List String} (stage : state.stage = .noteLines side targets)
    (found : noteBodyRule text = count + 1) : grammar.match? state text = some (.noteBody, count) := by
  refine firstMatch_at 15 rfl ?_ found ?_
  · simp [grammar, stage, Stage.expects]
  · intro entry listed looked
    have unlooked : ((rules.take 15).all fun entry => !entry.1.ignored && entry.1 != .noteBody) = true := rfl
    have other := List.all_eq_true.1 unlooked entry listed
    have expected : (entry.1.ignored || entry.1 == .noteBody) = true := by
      simpa only [grammar, stage, Stage.expects] using looked
    cases ignored : entry.1.ignored <;> simp_all

theorem match_fits (found : grammar.match? state text = some (kind, count)) : count + 1 ≤ text.length := by
  obtain ⟨rule, listed, taken⟩ := firstMatch_rule found
  rw [← taken]
  exact rules_bounded (kind, rule) listed text

-- Spacing is passed over wherever no note is being read.
theorem match_blank (open_ : state.stage.expects .noteBody = false) {c : Char} (spacing : isSpacing c = true)
    (rest : List Char) : grammar.match? state (c :: rest) = some (.blank, (rest.takeWhile isSpacing).length) := by
  refine firstMatch_at 18 rfl rfl ?_ ?_
  · rw [Rule.run, List.takeWhile_cons_of_pos spacing]
    rfl
  · intro entry listed looked
    have silent : ((rules.take 18).all fun entry => entry.1 == .noteBody || entry.2 (c :: rest) == 0) = true := by
      rcases Bool.or_eq_true_iff.1 spacing with space | tab
      · rw [beq_iff_eq.1 space]
        rfl
      · rw [beq_iff_eq.1 tab]
        rfl
    rcases Bool.or_eq_true_iff.1 (List.all_eq_true.1 silent entry listed) with note | nothing
    · rw [beq_iff_eq.1 note] at looked
      exact absurd looked (Bool.eq_false_iff.1 open_)
    · exact beq_iff_eq.1 nothing

-- The characters that a line end takes with it.
def isFill (c : Char) : Bool := isSpacing c || c == '\n'

theorem match_lineEnd (expected : state.stage.expects .lineEnd = true) (below : List Char) :
    grammar.match? state ('\n' :: below) = some (.lineEnd, (below.takeWhile isFill).length) := by
  refine firstMatch_at 23 rfl ?_ ?_ ?_
  · simp [grammar, expected]
  · exact Nat.add_comm _ _
  · intro entry listed looked
    have silent : ((rules.take 23).all fun entry => entry.1 == .noteBody || entry.2 ('\n' :: below) == 0) = true := rfl
    rcases Bool.or_eq_true_iff.1 (List.all_eq_true.1 silent entry listed) with note | nothing
    · rw [beq_iff_eq.1 note] at looked
      obtain ⟨side, targets, stage⟩ := expects_noteBody looked
      rw [stage] at expected
      cases expected
    · exact beq_iff_eq.1 nothing

-- At the head of a statement a stroke and a quote begin a block comment or nothing.
theorem match_blockComment (ready : state.stage = .ready) (rest : List Char) :
    let text := '/' :: '\x27' :: rest
    (Rule.enclosed ['/', '\x27'] ['\x27', '/'] text = 0 → grammar.match? state text = none) ∧
    ∀ count, Rule.enclosed ['/', '\x27'] ['\x27', '/'] text = count + 1 →
      grammar.match? state text = some (.blockComment, count) := by
  intro text
  have silent : (rules.all fun entry => !(entry.1.ignored || Stage.ready.expects entry.1) ||
      entry.1 == .blockComment || entry.2 text == 0) = true := rfl
  have others : ∀ entry ∈ rules, entry.1 ≠ .blockComment →
      (entry.1.ignored || state.stage.expects entry.1) = true → entry.2 text = 0 := by
    intro entry listed other looked
    have checked := List.all_eq_true.1 silent entry listed
    rw [ready] at looked
    simpa [looked, other] using checked
  refine ⟨?_, ?_⟩
  · intro absent
    refine firstMatch_none ?_
    intro entry listed looked
    by_cases same : entry.1 = .blockComment
    · have spans : entry.1.spans = true := by rw [same]; rfl
      rcases rules_spanning entry listed spans with rfl | rfl | rfl
      · cases same
      · exact absent
      · cases same
    · exact others entry listed same looked
  · intro count found
    refine firstMatch_at 17 rfl ?_ found ?_
    · simp [grammar, ready, Stage.expects, isStatementStart]
    · intro entry listed looked
      have kinds : ((rules.take 17).all fun entry => entry.1 != .blockComment) = true := rfl
      refine others entry (List.mem_of_mem_take listed) ?_ looked
      simpa using List.all_eq_true.1 kinds entry listed

theorem match_append (ends : text.getLast? = some '\n')
    (note : ∀ side targets, state.stage = .noteLines side targets → noteBodyRule text ≠ 0)
    (found : grammar.match? state text = some (kind, count)) (more : List Char) :
    grammar.match? state (text ++ more) = some (kind, count) ∨
      kind = .lineEnd ∧ count + 1 = text.length ∧
        grammar.match? state (text ++ more) = some (.lineEnd, count + (more.takeWhile isFill).length) := by
  have broken := List.mem_of_getLast? ends
  by_cases body : state.stage.expects .noteBody = true
  · obtain ⟨side, targets, stage⟩ := expects_noteBody body
    obtain ⟨taken, applies⟩ := Nat.exists_eq_succ_of_ne_zero (note side targets stage)
    rw [match_noteBody stage applies] at found
    cases found
    have again := (noteBodyLength_append ends (note side targets stage) more).trans applies
    exact .inl (match_noteBody stage again)
  by_cases feed : state.stage.expects .lineEnd = true ∧ ∃ below, text = '\n' :: below
  · obtain ⟨expected, below, rfl⟩ := feed
    rw [match_lineEnd expected] at found
    cases found
    rw [List.cons_append, match_lineEnd expected, List.takeWhile_append]
    split
    · rename_i whole
      refine .inr ⟨rfl, by simp [whole], ?_⟩
      rw [List.length_append, whole]
    · exact .inl rfl
  by_cases comment : state.stage.expects .blockComment = true ∧ ∃ rest, text = '/' :: '\x27' :: rest
  · obtain ⟨expected, rest, rfl⟩ := comment
    obtain ⟨absent, present⟩ := match_blockComment (expects_blockComment expected) rest
    cases taken : Rule.enclosed ['/', '\x27'] ['\x27', '/'] ('/' :: '\x27' :: rest) with
    | zero => cases (absent taken).symm.trans found
    | succ length =>
      have again := (Rule.enclosed_append (taken ▸ Nat.succ_ne_zero length) more).trans taken
      rw [present length taken] at found
      exact .inl (((match_blockComment (expects_blockComment expected) (rest ++ more)).2 length again).trans found)
  refine .inl (Eq.trans ?_ found)
  refine firstMatch_congr ?_
  intro entry listed looked
  cases spans : entry.1.spans with
  | false => exact (rules_withinLine entry listed spans).append broken more
  | true =>
    rcases rules_spanning entry listed spans with rfl | rfl | rfl
    · exact absurd looked body
    · have closed : ['/', '\x27'].isPrefixOf text = false := by
        refine Bool.eq_false_iff.2 ?_
        intro opens
        obtain ⟨rest, rfl⟩ := List.isPrefixOf_iff_prefix.1 opens
        exact comment ⟨looked, rest, rfl⟩
      have still : ['/', '\x27'].isPrefixOf (text ++ more) = false :=
        (isPrefixOf_below (by decide) broken more).trans closed
      simp [Rule.enclosed, closed, still]
    · cases text with
      | nil => cases ends
      | cons c rest =>
        have other : c ≠ '\n' := by
          rintro rfl
          exact feed ⟨looked, rest, rfl⟩
        simp [lineEndRule, other]

end DiagramStream.Sequence
