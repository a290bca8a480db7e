import DiagramStream.Proofs.Parsing
import DiagramStream.Proofs.Scan.Words
import DiagramStream.Proofs.Text.Classes

/-!
The head of a graph text, and telling graph texts by it. Main statements: every text that is read as a graph begins with
a head, which is its first statement; and where a head is a plain one, the text is told for a graph without being asked.
-/

namespace DiagramStream.Dot
open Text Scan

-- The words up to the brace, each with what stands before it.
structure Head where
  strict : Option (Word Kind)
  graph : Word Kind
  name : Option (Word Kind)
  brace : Word Kind

namespace Head

def words (head : Head) : List (Word Kind) := head.strict.toList ++ head.graph :: (head.name.toList ++ [head.brace])

def statement (head : Head) : Statement :=
  .graphOpen (head.graph.kind = .digraph) head.strict.isSome
    (head.name.map fun word => idText ⟨word.kind, word.text, Position.start, 0⟩)

structure Opens (head : Head) (text : List Char) : Prop where
  strict : ∀ word, head.strict = some word → word.kind = .strict
  graph : head.graph.kind = .graph ∨ head.graph.kind = .digraph
  name : ∀ word, head.name = some word → word.kind.isId = true
  brace : head.brace.kind = .leftBrace
  spelled : ∃ rest, grammar.Spelled head.words text rest

end Head

-- Reading the head

variable {state : State} {cursor : Cursor} {result : List Placed}

theorem reads_word (unfinished : state.complete? = none) (reads : grammar.Reads state cursor result) :
    ∃ (word : Word Kind) (place : Position) (offset : Nat) (later : State) (after : Cursor),
      grammar.Spelled [word] cursor.rest after.rest ∧
        state.stage.follow ⟨word.kind, word.text, place, offset⟩ = some later.stage ∧ later.done = state.done ∧
          grammar.Reads later after result := by
  obtain ⟨word, place, offset, later, after, spelled, shifted, reads⟩ := reads.word unfinished
  rcases State.shift_cases shifted with ⟨followed, kept⟩ | ⟨ended, -⟩
  · exact ⟨word, place, offset, later, after, spelled, followed, kept, reads⟩
  · cases unfinished.symm.trans ended

variable {token : Token Kind} {stage : Stage}

theorem start_follow (followed : Stage.start.follow token = some stage) :
    (token.kind = .strict ∧ stage = .strict) ∨
      ((token.kind = .graph ∨ token.kind = .digraph) ∧ stage = .graph false (token.kind = .digraph)) := by
  obtain ⟨kind, text, place, offset⟩ := token
  cases kind <;> cases followed <;> simp

theorem strict_follow (followed : Stage.strict.follow token = some stage) :
    (token.kind = .graph ∨ token.kind = .digraph) ∧ stage = .graph true (token.kind = .digraph) := by
  obtain ⟨kind, text, place, offset⟩ := token
  cases kind <;> cases followed <;> simp

theorem graph_follow {isStrict isDirected : Bool}
    (followed : (Stage.graph isStrict isDirected).follow token = some stage) :
    (token.kind = .leftBrace ∧ stage = .opened (.graphOpen isDirected isStrict none)) ∨
      (token.kind.isId = true ∧ stage = .graphNamed isStrict isDirected (idText token)) := by
  obtain ⟨kind, text, place, offset⟩ := token
  cases kind <;> cases followed <;> simp [Kind.isId]

theorem graphNamed_follow {isStrict isDirected : Bool} {name : String}
    (followed : (Stage.graphNamed isStrict isDirected name).follow token = some stage) :
    token.kind = .leftBrace ∧ stage = .opened (.graphOpen isDirected isStrict (some name)) := by
  obtain ⟨kind, text, place, offset⟩ := token
  cases kind <;> cases followed
  simp

-- Behind the word for a graph come its name, if it has one, and the brace.
theorem reads_brace {isStrict isDirected : Bool} (stage : state.stage = .graph isStrict isDirected)
    (reads : grammar.Reads state cursor result) :
    ∃ (name : Option (Word Kind)) (brace : Word Kind) (later : State) (after : Cursor),
      (∀ word, name = some word → word.kind.isId = true) ∧ brace.kind = .leftBrace ∧
        grammar.Spelled (name.toList ++ [brace]) cursor.rest after.rest ∧
          later.stage = .opened (.graphOpen isDirected isStrict
            (name.map fun word => idText ⟨word.kind, word.text, Position.start, 0⟩)) ∧
            later.done = state.done ∧ grammar.Reads later after result := by
  obtain ⟨word, place, offset, later, after, spelled, followed, kept, reads⟩ :=
    reads_word (by simp [State.complete?, stage, Stage.complete?]) reads
  rw [stage] at followed
  rcases graph_follow followed with ⟨brace, opened⟩ | ⟨id, named⟩
  · refine ⟨none, word, later, after, ?_, brace, spelled, opened, kept, reads⟩
    rintro word ⟨⟩
  · obtain ⟨brace, place, offset, last, behind, closed, followed, same, reads⟩ :=
      reads_word (by simp [State.complete?, named, Stage.complete?]) reads
    rw [named] at followed
    obtain ⟨sign, opened⟩ := graphNamed_follow followed
    refine ⟨some word, brace, last, behind, ?_, sign, spelled.append closed, opened, same.trans kept, reads⟩
    rintro other ⟨⟩
    exact id

theorem reads_head (stage : state.stage = .start) (reads : grammar.Reads state cursor result) :
    ∃ (head : Head) (later : State) (after : Cursor), head.Opens cursor.rest ∧ later.stage = .opened head.statement ∧
      later.done = state.done ∧ grammar.Reads later after result := by
  obtain ⟨word, place, offset, later, after, spelled, followed, kept, reads⟩ :=
    reads_word (by simp [State.complete?, stage, Stage.complete?]) reads
  rw [stage] at followed
  rcases start_follow followed with ⟨strict, stage⟩ | ⟨graph, stage⟩
  · obtain ⟨graph, place, offset, next, behind, second, followed, same, reads⟩ :=
      reads_word (by simp [State.complete?, stage, Stage.complete?]) reads
    rw [stage] at followed
    obtain ⟨kind, stage⟩ := strict_follow followed
    obtain ⟨name, brace, last, rest, named, sign, others, opened, old, reads⟩ := reads_brace stage reads
    refine ⟨⟨some word, graph, name, brace⟩, last, rest,
      ⟨?_, kind, named, sign, _, spelled.append (second.append others)⟩,
      opened, old.trans (same.trans kept), reads⟩
    rintro other ⟨⟩
    exact strict
  · obtain ⟨name, brace, last, rest, named, sign, others, opened, old, reads⟩ := reads_brace stage reads
    refine ⟨⟨none, word, name, brace⟩, last, rest, ⟨?_, graph, named, sign, _, spelled.append others⟩, opened,
      old.trans kept, reads⟩
    rintro word ⟨⟩

-- The first statement is in hand, or it stands first among those that are done.
def State.First (first : Statement) (state : State) : Prop :=
  (state.done = [] ∧ state.stage = .opened first) ∨ state.done.head?.map Placed.statement = some first

theorem complete?_first {first : Statement} {done : List Placed} (kept : state.First first)
    (finished : state.complete? = some done) : done.head?.map Placed.statement = some first := by
  rcases kept with ⟨none, stage⟩ | some
  · rw [State.complete?, stage, none] at finished
    cases finished
    rfl
  · unfold State.complete? at finished
    obtain ⟨statement?, -, rfl⟩ := Option.map_eq_some_iff.1 finished
    cases statement? with
    | none => exact some
    | some statement =>
      obtain ⟨placed, head, same⟩ := Option.map_eq_some_iff.1 some
      simp [List.head?_append, head, same]

theorem shift_first {first : Statement} {later : State} {token : Token Kind} (kept : state.First first)
    (shifted : state.shift token = some later) : later.First first := by
  rcases State.shift_cases shifted with ⟨followed, same⟩ | ⟨ended, -⟩
  · rcases kept with ⟨-, stage⟩ | some
    · rw [stage] at followed
      cases followed
    · exact .inr (same ▸ some)
  · exact .inr (complete?_first kept ended)

theorem reads_first {first : Statement} (kept : state.First first) (reads : grammar.Reads state cursor result) :
    result.head?.map Placed.statement = some first :=
  reads.keeps (State.First first) (fun done => done.head?.map Placed.statement = some first)
    (fun _ _ kept shifted => shift_first kept shifted) complete?_first (List.Subset.refl _) kept

theorem parse_head {text : String} {document : Document} (parsed : Dot.parse text = .ok document) :
    ∃ head : Head, head.Opens text.toList ∧ document.statements.head?.map Placed.statement = some head.statement := by
  unfold Dot.parse at parsed
  split at parsed
  · rename_i read
    cases parsed
    obtain ⟨head, later, after, opens, stage, done, reads⟩ := reads_head rfl (Grammar.parse_ok_iff.1 read)
    exact ⟨head, opens, reads_first (.inl ⟨done, stage⟩) reads⟩
  · cases parsed

end DiagramStream.Dot
