import DiagramStream.Proofs.Parsing
import DiagramStream.Proofs.Scan.Behind
import DiagramStream.Proofs.Scan.Tokens
import DiagramStream.Proofs.Scan.Words
import DiagramStream.Proofs.Sequence.RoundTrip
import DiagramStream.Proofs.Text.Lines

/-!
Notes that run over several lines. Main statement: the lines between the header and the closing words are read as the
text of one note exactly if none of them begins with the closing words.
-/

namespace DiagramStream.Sequence
open Text Scan

variable {line indent closer word rest below text : List Char} {front : List (List Char)} {state later : State}
  {kind : Kind} {place : Position} {offset count : Nat} {result : List Placed}

-- A line begins with the closing words, whatever stands behind them.
def Closes (line : List Char) : Prop :=
  "end note".toList <+: line.dropWhile isSpacing ∨ "endnote".toList <+: line.dropWhile isSpacing

instance (line : List Char) : Decidable (Closes line) := inferInstanceAs (Decidable (_ ∨ _))

theorem noteEndLength_ne_zero_iff : noteEndLength line ≠ 0 ↔ Closes line := by
  unfold noteEndLength Closes
  simp only [drop_takeWhile, List.isPrefixOf_iff_prefix]
  split
  · rename_i endnote
    exact iff_of_true (by omega) (.inr endnote)
  · rename_i other
    split
    · rename_i closing
      exact iff_of_true (by omega) (.inl closing)
    · rename_i none
      exact iff_of_false (fun found => found rfl) fun closes => closes.elim none other

-- The closing words, as the line with them may begin.
theorem noteEndLength_closer (spacing : ∀ c ∈ indent, isSpacing c = true)
    (known : word = "end note".toList ∨ word = "endnote".toList) (rest : List Char) :
    noteEndLength (indent ++ (word ++ rest)) = (indent ++ word).length := by
  have head : ∀ c, (word ++ rest).head? = some c → isSpacing c = false := by
    rcases known with rfl | rfl <;> rintro c ⟨⟩ <;> rfl
  unfold noteEndLength
  dsimp only
  rw [takeWhile_ended spacing head, List.drop_left, List.length_append]
  rcases known with rfl | rfl <;> rfl

-- The rest of a line is passed over as it is.
theorem noteBodyLength_within (whole : '\n' ∉ line) (below : List Char) :
    noteBodyLength false count (line ++ '\n' :: below) = noteBodyLength true (count + line.length + 1) below := by
  induction line generalizing count with
  | nil => rfl
  | cons c line ih =>
    obtain ⟨other, later⟩ : '\n' ≠ c ∧ '\n' ∉ line := by simpa using whole
    have same : decide (c = '\n') = false := decide_eq_false (Ne.symm other)
    rw [List.cons_append, noteBodyLength, Bool.false_and, if_neg (by decide), same, ih later, List.length_cons]
    congr 1
    omega

theorem noteBodyLength_line (whole : '\n' ∉ line) (open_ : ¬ Closes line) (below : List Char) :
    noteBodyLength true count (line ++ '\n' :: below) = noteBodyLength true (count + line.length + 1) below := by
  have silent : noteEndLength (line ++ '\n' :: below) = 0 := by
    rw [noteEndLength_line]
    exact Decidable.byContradiction fun found => open_ (noteEndLength_ne_zero_iff.1 found)
  cases line with
  | nil => simp [noteBodyLength, show noteEndLength ('\n' :: below) = 0 from silent]
  | cons c line =>
    obtain ⟨other, later⟩ : '\n' ≠ c ∧ '\n' ∉ line := by simpa using whole
    have same : decide (c = '\n') = false := decide_eq_false (Ne.symm other)
    rw [List.cons_append] at silent ⊢
    rw [noteBodyLength, silent, if_neg (by decide), same, noteBodyLength_within later, List.length_cons]
    congr 1
    omega

-- The body goes to the closing words of the first line that begins with them.
theorem noteBodyLength_ended (whole : ∀ line ∈ front, '\n' ∉ line) (open_ : ∀ line ∈ front, ¬ Closes line)
    (closing : noteEndLength text ≠ 0) :
    noteBodyLength true count (ended front ++ text) = count + (ended front).length + noteEndLength text := by
  induction front generalizing count with
  | nil =>
    cases text with
    | nil => exact absurd rfl closing
    | cons c text =>
      have here : (true && decide (noteEndLength (c :: text) ≠ 0)) = true := by simpa using closing
      exact if_pos here
  | cons line front ih =>
    obtain ⟨here, later⟩ := List.forall_mem_cons.1 whole
    obtain ⟨first, others⟩ := List.forall_mem_cons.1 open_
    rw [ended_cons, List.append_assoc, List.cons_append, noteBodyLength_line here first, ih later others,
      List.length_append, List.length_cons]
    omega

-- The text of a note is that of its lines.
theorem noteText_ended (whole : ∀ line ∈ front, '\n' ∉ line) (last : '\n' ∉ closer) :
    noteText (ended front ++ closer) = joinLines (innerLines (front.map strip)) := by
  have closing : (untilLineFeed (ended front ++ closer).reverse).length = closer.length := by
    have inside : ∀ c ∈ closer.reverse, (c != '\n') = true := by
      intro c member
      refine bne_iff_ne.2 ?_
      rintro rfl
      exact last (List.mem_reverse.1 member)
    have head : ∀ c, (ended front).reverse.head? = some c → (c != '\n') = false := by
      intro c head
      rw [head_reverse_ended head]
      rfl
    rw [untilLineFeed, List.reverse_append, takeWhile_ended inside head, List.length_reverse]
  have stripped : ∀ line ∈ front.map strip ++ [[]], '\n' ∉ line :=
    List.forall_mem_append.2 ⟨strip_unbroken whole, List.forall_mem_singleton.2 List.not_mem_nil⟩
  unfold noteText
  simp only [closing, List.length_append, Nat.add_sub_cancel, List.take_left, lines_ended whole, List.map_append,
    List.map_cons, List.map_nil]
  rw [show strip [] = [] from rfl, trim_joinLines stripped, innerLines_concat_nil]

theorem closes_dropWhile : Closes (line.dropWhile isSpacing) ↔ Closes line := by
  rw [Closes, Closes, List.dropWhile_idempotent]

theorem isSpacing_isFill {c : Char} (spacing : isSpacing c = true) : isFill c = true := by
  simp [isFill, spacing]

-- Blank lines and indentation that go with the end of the header are of no account.
theorem fill_ended (whole : ∀ line ∈ front, '\n' ∉ line) (open_ : ∀ line ∈ front, ¬ Closes line)
    (spacing : ∀ c ∈ indent, isSpacing c = true) (head : ∀ c, text.head? = some c → isFill c = false) :
    ∃ front' indent', (ended front ++ (indent ++ text)).dropWhile isFill = ended front' ++ (indent' ++ text) ∧
      (∀ line ∈ front', '\n' ∉ line) ∧ (∀ line ∈ front', ¬ Closes line) ∧
      (∀ c ∈ indent', isSpacing c = true) ∧ innerLines (front'.map strip) = innerLines (front.map strip) := by
  induction front with
  | nil =>
    refine ⟨[], [], ?_, List.forall_mem_nil _, List.forall_mem_nil _, List.forall_mem_nil _, rfl⟩
    show (indent ++ text).dropWhile isFill = text
    rw [List.dropWhile_append_of_pos fun c member => isSpacing_isFill (spacing c member)]
    cases text with
    | nil => rfl
    | cons c text => exact List.dropWhile_cons_of_neg (by simp [head c rfl])
  | cons line front ih =>
    obtain ⟨here, later⟩ := List.forall_mem_cons.1 whole
    obtain ⟨first, others⟩ := List.forall_mem_cons.1 open_
    rw [ended_cons, List.append_assoc, List.cons_append]
    obtain ⟨lead, back, rfl, inside, ends⟩ := takeWhile_cut isSpacing line
    rw [List.append_assoc, List.dropWhile_append_of_pos fun c member => isSpacing_isFill (inside c member)]
    cases back with
    | nil =>
      have blank : strip lead = [] := strip_nil_iff.2 fun c member => isSpacing_isBlank (inside c member)
      rw [List.append_nil, List.map_cons, blank, innerLines_nil_cons]
      exact ih later others
    | cons d more =>
      have cut : (lead ++ d :: more).dropWhile isSpacing = d :: more := by
        rw [List.dropWhile_append_of_pos inside, List.dropWhile_cons_of_neg (by simp [ends d rfl])]
      have seen : isFill d = false := by
        have plain : d ≠ '\n' := by
          rintro rfl
          exact here (by simp)
        simp [isFill, ends d rfl, plain]
      refine ⟨(d :: more) :: front, indent, ?_, ?_, ?_, spacing, ?_⟩
      · rw [List.cons_append, List.dropWhile_cons_of_neg (by simp [seen]), ended_cons, List.append_assoc]
        rfl
      · exact List.forall_mem_cons.2 ⟨fun feed => here (List.mem_append_right _ feed), later⟩
      · exact List.forall_mem_cons.2 ⟨fun closes => first (closes_dropWhile.1 (cut.symm ▸ closes)), others⟩
      · rw [List.map_cons, List.map_cons, ← strip_dropWhile (lead ++ d :: more), cut]

-- The tokens of a note, one by one

theorem reads_word_iff (lexes : Lexes state.stage kind word text)
    (shifted : state.shift ⟨kind, word, place, offset⟩ = some later) :
    grammar.Reads state ⟨word ++ text, place, offset⟩ result ↔
      grammar.Reads later ⟨text, place.advance word, offset + word.length⟩ result := by
  obtain ⟨seen, count, length, found⟩ := lexes
  exact Grammar.reads_take_iff length (found state rfl) seen shifted

theorem reads_space_iff (open_ : state.stage.expects .noteBody = false)
    (stops : ∀ c, text.head? = some c → isSpacing c = false) :
    grammar.Reads state ⟨' ' :: text, place, offset⟩ result ↔
      grammar.Reads state ⟨text, place.advance [' '], offset + 1⟩ result := by
  refine @Grammar.reads_skip_iff _ _ _ grammar state result .blank 0 place offset [' '] rfl text ?_ rfl
  have none : ([] ++ text).takeWhile isSpacing = [] := takeWhile_ended nofun stops
  rw [List.nil_append] at none
  have found := match_blank open_ (show isSpacing ' ' = true from rfl) text
  rwa [none] at found

theorem reads_header_iff (below : List Char) :
    grammar.Reads State.start (Cursor.start ("note left of A".toList ++ '\n' :: below)) result ↔
      grammar.Reads ⟨[], .noteTargets "left" ["A"] false, Position.start⟩ ⟨'\n' :: below, ⟨1, 15⟩, 14⟩ result := by
  let name := ['A'] ++ '\n' :: below
  let target := "of".toList ++ ' ' :: name
  let side := "left".toList ++ ' ' :: target
  calc grammar.Reads State.start ⟨"note".toList ++ ' ' :: side, ⟨1, 1⟩, 0⟩ result
    _ ↔ grammar.Reads ⟨[], .note, Position.start⟩ ⟨' ' :: side, ⟨1, 5⟩, 4⟩ result :=
      reads_word_iff (lexes_at 8 rfl rfl rfl (by decide) rfl rfl) rfl
    _ ↔ grammar.Reads ⟨[], .note, Position.start⟩ ⟨side, ⟨1, 6⟩, 5⟩ result :=
      reads_space_iff rfl (by rintro c ⟨⟩; rfl)
    _ ↔ grammar.Reads ⟨[], .noteSide "left", Position.start⟩ ⟨' ' :: target, ⟨1, 10⟩, 9⟩ result :=
      reads_word_iff (lexes_at 7 rfl rfl rfl (by decide) rfl rfl) rfl
    _ ↔ grammar.Reads ⟨[], .noteSide "left", Position.start⟩ ⟨target, ⟨1, 11⟩, 10⟩ result :=
      reads_space_iff rfl (by rintro c ⟨⟩; rfl)
    _ ↔ grammar.Reads ⟨[], .noteOf "left", Position.start⟩ ⟨' ' :: name, ⟨1, 13⟩, 12⟩ result :=
      reads_word_iff (lexes_at 13 rfl rfl rfl (by decide) rfl rfl) rfl
    _ ↔ grammar.Reads ⟨[], .noteOf "left", Position.start⟩ ⟨name, ⟨1, 14⟩, 13⟩ result :=
      reads_space_iff rfl (by rintro c ⟨⟩; rfl)
    _ ↔ grammar.Reads ⟨[], .noteTargets "left" ["A"] false, Position.start⟩ ⟨'\n' :: below, ⟨1, 15⟩, 14⟩ result :=
      reads_word_iff (lexes_at 21 rfl rfl rfl (by decide) rfl rfl) rfl

-- The end of the header, with the blanks that go with it.
theorem reads_fill_iff (below : List Char) :
    grammar.Reads ⟨[], .noteTargets "left" ["A"] false, Position.start⟩ ⟨'\n' :: below, place, offset⟩ result ↔
      grammar.Reads ⟨[], .noteLines "left" ["A"], Position.start⟩
        ⟨below.dropWhile isFill, place.advance ('\n' :: below.takeWhile isFill),
          offset + ('\n' :: below.takeWhile isFill).length⟩ result := by
  have whole : '\n' :: below = ('\n' :: below.takeWhile isFill) ++ below.dropWhile isFill :=
    congrArg ('\n' :: ·) List.takeWhile_append_dropWhile.symm
  have found := @match_lineEnd ⟨[], .noteTargets "left" ["A"] false, Position.start⟩ rfl below
  rw [whole] at found ⊢
  exact Grammar.reads_take_iff rfl found rfl rfl

-- The note that these lines are meant to be.
def noteOf (lines : List (List Char)) : Statement :=
  .note ["A"] "left" (String.ofList (joinLines (innerLines (lines.map strip))))

theorem reads_body_iff (whole : ∀ line ∈ front, '\n' ∉ line) (open_ : ∀ line ∈ front, ¬ Closes line)
    (spacing : ∀ c ∈ indent, isSpacing c = true) (known : word = "end note".toList ∨ word = "endnote".toList) :
    grammar.Reads ⟨[], .noteLines "left" ["A"], Position.start⟩
        ⟨ended front ++ (indent ++ (word ++ rest)), place, offset⟩ result ↔
      grammar.Reads ⟨[], .whole (noteOf front) false, Position.start⟩
        ⟨rest, place.advance (ended front ++ (indent ++ word)), offset + (ended front ++ (indent ++ word)).length⟩
        result := by
  have closing := noteEndLength_closer spacing known rest
  have some_ : (indent ++ word).length ≠ 0 := by
    rcases known with rfl | rfl <;> simp
  have last : '\n' ∉ indent ++ word := by
    intro feed
    rcases List.mem_append.1 feed with inside | inside
    · cases spacing _ inside
    · rcases known with rfl | rfl <;> exact absurd inside (by decide)
  have text := noteText_ended whole last
  have taken : noteBodyRule (ended front ++ (indent ++ (word ++ rest))) = (ended front ++ (indent ++ word)).length := by
    rw [noteBodyRule, noteBodyLength_ended whole open_ (closing ▸ some_), closing, Nat.zero_add, ← List.length_append]
  obtain ⟨count, length⟩ := Nat.exists_eq_succ_of_ne_zero (show (ended front ++ (indent ++ word)).length ≠ 0 by
    rw [List.length_append]
    omega)
  have found : grammar.match? ⟨[], .noteLines "left" ["A"], Position.start⟩
      (ended front ++ (indent ++ (word ++ rest))) = some (.noteBody, count) :=
    match_noteBody rfl (taken.trans length)
  have split : ended front ++ (indent ++ (word ++ rest)) = ended front ++ (indent ++ word) ++ rest := by
    simp only [List.append_assoc]
  rw [split] at found ⊢
  refine Grammar.reads_take_iff length.symm found rfl ?_
  simp only [grammar, State.shift, Stage.follow, text, noteOf]

theorem reads_note_iff (whole : ∀ line ∈ front, '\n' ∉ line) (open_ : ∀ line ∈ front, ¬ Closes line)
    (spacing : ∀ c ∈ indent, isSpacing c = true) (known : word = "end note".toList ∨ word = "endnote".toList) :
    ∃ place offset, ∀ result, grammar.Reads State.start
        (Cursor.start ("note left of A".toList ++ '\n' :: (ended front ++ (indent ++ (word ++ rest))))) result ↔
      grammar.Reads ⟨[], .whole (noteOf front) false, Position.start⟩ ⟨rest, place, offset⟩ result := by
  have head : ∀ c, (word ++ rest).head? = some c → isFill c = false := by
    rcases known with rfl | rfl <;> rintro c ⟨⟩ <;> rfl
  obtain ⟨front', indent', filled, whole', open', spacing', same⟩ := fill_ended whole open_ spacing head
  have note : noteOf front' = noteOf front := by rw [noteOf, noteOf, same]
  have steps (result : List Placed) :=
    (@reads_header_iff result (ended front ++ (indent ++ (word ++ rest)))).trans (reads_fill_iff _)
  rw [filled] at steps
  rw [← note]
  exact ⟨_, _, fun result => (steps result).trans (reads_body_iff whole' open' spacing' known)⟩

-- What is read first

-- Either nothing is done yet and `first` only wants its line end, or `first` is what was done first.
def State.First (first : Statement) (state : State) : Prop :=
  (state.done = [] ∧ ∃ named, state.stage = .whole first named) ∨ state.done.head?.map Placed.statement = some first

theorem whole_follow (first : Statement) (named : Bool) (token : Token Kind) :
    (Stage.whole first named).follow token = none := by
  cases token.kind <;> rfl

theorem shift_first {first : Statement} {token : Token Kind} (kept : state.First first)
    (shifted : state.shift token = some later) : later.First first := by
  rcases State.shift_cases shifted with ⟨followed, same⟩ | finished
  · rcases kept with ⟨-, named, stage⟩ | done
    · rw [stage, whole_follow] at followed
      cases followed
    · exact .inr (same ▸ done)
  · obtain ⟨statement?, complete, rfl⟩ := Option.map_eq_some_iff.1 finished
    rcases kept with ⟨nothing, named, stage⟩ | done
    · rw [stage] at complete
      cases complete
      exact .inr (by rw [nothing]; rfl)
    · cases statement? with
      | none => exact .inr done
      | some statement =>
        obtain ⟨placed, head, same⟩ := Option.map_eq_some_iff.1 done
        exact .inr (by rw [List.head?_append, head]; exact congrArg some same)

-- A statement that only wants its line end comes first of all that is read.
theorem reads_first {first : Statement} {start : Position}
    (reads : grammar.Reads ⟨[], .whole first false, start⟩ ⟨rest, place, offset⟩ result) :
    result.head?.map Placed.statement = some first := by
  refine reads.keeps (State.First first) (fun done => done.head?.map Placed.statement = some first)
    (fun _ _ => shift_first) ?_ (List.Subset.refl rest) (.inl ⟨rfl, false, rfl⟩)
  intro state done kept ended
  obtain ⟨ready, rfl⟩ : state.stage = .ready ∧ state.done = done := by
    revert ended
    show state.finish = some done → _
    unfold State.finish
    split
    · rename_i ready
      exact fun same => ⟨ready, Option.some.inj same⟩
    · exact nofun
  rcases kept with ⟨-, named, stage⟩ | head
  · cases ready.symm.trans stage
  · exact head

theorem reads_ending (first : Statement) (fill : ∀ c ∈ text, isFill c = true) (start : Position) :
    grammar.Reads ⟨[], .whole first false, start⟩ ⟨'\n' :: text, place, offset⟩ [⟨start, first⟩] := by
  refine .take (List.cons_ne_nil _ _) (match_lineEnd rfl text) rfl rfl (.done ?_ rfl)
  rw [List.takeWhile_eq_self_iff.2 fill]
  exact List.drop_length

-- The lines of a note between its header and its closing words.
def noted (lines : List String) (tail : String) : String :=
  String.ofList ("note left of A".toList ++ '\n' ::
    (ended (lines.map String.toList) ++ ("end note".toList ++ tail.toList)))

theorem prepare_noted {lines : List String} {tail : String} (unbroken : ∀ line ∈ lines, Unbroken line)
    (last : '\r' ∉ tail.toList) : prepare (noted lines tail).toList = "note left of A".toList ++ '\n' ::
      (ended (lines.map String.toList) ++ ("end note".toList ++ (tail.toList ++ ['\n']))) := by
  have plain : '\r' ∉ ended (lines.map String.toList) := by
    intro inside
    obtain ⟨_, written, inside⟩ := List.mem_flatMap.1 inside
    obtain ⟨line, listed, rfl⟩ := List.mem_map.1 written
    rcases List.mem_append.1 inside with inside | feed
    · exact (unbroken line listed).2 inside
    · cases List.mem_singleton.1 feed
  have header : '\r' ∉ "note left of A".toList := by simp
  have words : '\r' ∉ "end note".toList := by simp
  -- No equation of `noted` is asked for here: making one would spell out the words of its header.
  have text : (noted lines tail).toList = "note left of A".toList ++ '\n' ::
      (ended (lines.map String.toList) ++ ("end note".toList ++ tail.toList)) := String.toList_ofList
  have whole : '\r' ∉ (noted lines tail).toList := by
    rw [text]
    simp only [List.mem_append, List.mem_cons, header, words, plain, last, or_false, false_or]
    decide
  rw [prepare, unifyLineEnds_unreturned whole, text]
  simp only [List.append_assoc, List.cons_append]

theorem Closes.cut (closes : Closes line) : ∃ indent word rest, line = indent ++ (word ++ rest) ∧
    (∀ c ∈ indent, isSpacing c = true) ∧ (word = "end note".toList ∨ word = "endnote".toList) := by
  have whole : line.takeWhile isSpacing ++ line.dropWhile isSpacing = line := List.takeWhile_append_dropWhile
  have spacing : ∀ c ∈ line.takeWhile isSpacing, isSpacing c = true := List.all_eq_true.1 List.all_takeWhile
  rcases closes with ⟨rest, split⟩ | ⟨rest, split⟩
  · exact ⟨_, _, rest, by rw [split, whole], spacing, .inl rfl⟩
  · exact ⟨_, _, rest, by rw [split, whole], spacing, .inr rfl⟩

-- The first line that begins with the closing words.
theorem closes_first {all : List (List Char)} (listed : line ∈ all) (closes : Closes line) :
    ∃ front closer back, all = front ++ closer :: back ∧ Closes closer ∧ ∀ other ∈ front, ¬ Closes other := by
  cases found : all.find? fun other => decide (Closes other) with
  | none => exact absurd (decide_eq_true closes) (List.find?_eq_none.1 found line listed)
  | some closer =>
    obtain ⟨closing, front, back, split, open_⟩ := List.find?_eq_some_iff_append.1 found
    exact ⟨front, closer, back, split, of_decide_eq_true closing, fun other inside => by simpa using open_ other inside⟩

theorem Closes.strip_ne_nil (closes : Closes line) : strip line ≠ [] := by
  intro blank
  have inside : 'e' ∈ line.dropWhile isSpacing := by
    rcases closes with closer | closer <;> exact closer.subset (by decide)
  cases strip_nil_iff.1 blank 'e' (List.dropWhile_subset _ inside)

-- What stands behind the first line that begins with the closing words is missed, and so is that line.
theorem noteOf_cut {back : List (List Char)} (whole : ∀ other ∈ front ++ line :: back, '\n' ∉ other)
    (closes : Closes line) : noteOf front ≠ noteOf (front ++ line :: back) := by
  intro same
  have texts : joinLines (innerLines (front.map strip)) =
      joinLines (innerLines ((front ++ line :: back).map strip)) := by
    simpa only [noteOf, Statement.note.injEq, true_and, String.ofList_inj] using same
  have flat : (front.map strip).flatten = ((front ++ line :: back).map strip).flatten := by
    rw [← filter_innerLines (strip_unbroken fun other listed => whole other (List.mem_append_left _ listed)), texts,
      filter_innerLines (strip_unbroken whole)]
  rw [List.map_append, List.flatten_append, List.self_eq_append_right, List.map_cons, List.flatten_cons] at flat
  exact closes.strip_ne_nil (List.append_eq_nil_iff.1 flat).1

-- Where a line begins with the closing words the note ends there, so that another one is read.
theorem closes_misread {all : List (List Char)} {start : Position} (whole : ∀ line ∈ all, '\n' ∉ line)
    (reads : grammar.Reads State.start (Cursor.start ("note left of A".toList ++ '\n' :: (ended all ++ text)))
      [⟨start, noteOf all⟩]) : ∀ line ∈ all, ¬ Closes line := by
  intro line listed closes
  obtain ⟨front, closer, back, rfl, closing, open_⟩ := closes_first listed closes
  obtain ⟨indent, word, rest, rfl, spacing, known⟩ := closing.cut
  obtain ⟨place, offset, same⟩ := reads_note_iff (fun other inside => whole other (List.mem_append_left _ inside))
    open_ spacing known
  simp only [ended_append, ended_cons, List.append_assoc] at reads
  have first := reads_first ((same _).1 reads)
  exact noteOf_cut whole closing (Option.some.inj first).symm

-- Only if the note ends where it is meant to is all of it read.
theorem parse_noted_iff {lines : List String} {tail : String} (unbroken : ∀ line ∈ lines, Unbroken line)
    (last : tail = "" ∨ tail = "\n") :
    parse (noted lines tail) = .ok ⟨.sequence, [⟨⟨1, 1⟩, noteOf (lines.map String.toList)⟩]⟩ ↔
      ∀ line ∈ lines, ¬ Closes line.toList := by
  have plain : '\r' ∉ tail.toList := by
    rcases last with rfl | rfl <;> simp
  have whole : ∀ line ∈ lines.map String.toList, '\n' ∉ line :=
    List.forall_mem_map.2 fun line listed => (unbroken line listed).1
  have written : (∀ line ∈ lines.map String.toList, ¬ Closes line) ↔ ∀ line ∈ lines, ¬ Closes line.toList :=
    List.forall_mem_map
  rw [parse_eq_ok, prepare_noted unbroken plain, ← written]
  constructor
  · rintro ⟨-, reads⟩
    exact closes_misread whole reads
  · intro open_
    obtain ⟨place, offset, same⟩ :=
      @reads_note_iff [] "end note".toList (tail.toList ++ ['\n']) _ whole open_ nofun (.inl rfl)
    refine ⟨rfl, (same _).2 ?_⟩
    rcases last with rfl | rfl
    · exact reads_ending _ (by simp) _
    · exact reads_ending _ (by simp [isFill]) _

-- The closing words may stand further on in a line, and what surrounds the lines is of no account.
theorem parse_noted_iff_surrounded :
    (∀ line ∈ ["", "  to the end note ", "", "\tendless", " "], Unbroken line) ∧
    parse (noted ["", "  to the end note ", "", "\tendless", " "] "\n") =
      .ok ⟨.sequence, [⟨⟨1, 1⟩, .note ["A"] "left" "to the end note\n\nendless"⟩]⟩ := by
  have unbroken : ∀ line ∈ ["", "  to the end note ", "", "\tendless", " "], Unbroken line := by
    simp [Unbroken]
  have text : noteOf (["", "  to the end note ", "", "\tendless", " "].map String.toList) =
      .note ["A"] "left" "to the end note\n\nendless" := by decide +kernel
  refine ⟨unbroken, ?_⟩
  rw [← text]
  exact (parse_noted_iff unbroken (.inr rfl)).2 (by decide +kernel)

-- A line that only begins with the closing words ends the note all the same, and what is left of it is refused.
theorem parse_noted_breaks :
    (Unbroken "end notes" ∧ String.ofList (strip "end notes".toList) ∉ ["end note", "endnote"]) ∧
    (parse (noted ["end notes"] "")).toOption = none := by
  decide +kernel

end DiagramStream.Sequence
