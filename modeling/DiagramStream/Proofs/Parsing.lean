import DiagramStream.Proofs.Scan
import DiagramStream.Proofs.Statement
import DiagramStream.Conversion

/-!
Whatever text is read, the statements that come of it are those of its notation, and a block is opened
by nothing but the keyword of a control block.
-/

namespace DiagramStream
open Text Scan

namespace Dot

theorem Chain.statement_written (chain : Chain) (attrs : Attrs) : (chain.statement attrs).Written := by
  unfold Chain.statement
  split <;> exact ⟨rfl, rfl⟩

theorem Subject.statement_written (subject : Subject) (attrs : Attrs) : (subject.statement attrs).Written := by
  cases subject with
  | node => exact ⟨rfl, rfl⟩
  | chain link => exact link.statement_written attrs
  | defaults => exact ⟨rfl, rfl⟩

-- Only a brace that opened a scope keeps a whole statement in hand.
def Stage.Written : Stage → Prop
  | .opened statement => statement.Written
  | _ => True

def State.Written (state : State) : Prop :=
  (∀ placed ∈ state.done, placed.statement.Written) ∧ state.stage.Written

theorem Site.follow_written {site : Site} {ref : NodeRef} {token : Token Kind} {stage : Stage}
    (followed : site.follow ref token = some stage) : stage.Written := by
  unfold Site.follow at followed
  split at followed
  · dsimp only at followed
    repeat' split at followed
    all_goals cases followed <;> trivial
  · split at followed
    · obtain ⟨chain, -, rfl⟩ := Option.map_eq_some_iff.1 followed
      trivial
    · obtain ⟨subject, -, rfl⟩ := Option.map_eq_some_iff.1 followed
      trivial
    · cases followed

theorem Stage.follow_written {stage later : Stage} {token : Token Kind}
    (followed : stage.follow token = some later) : later.Written := by
  unfold Stage.follow at followed
  split at followed
  all_goals try split at followed
  all_goals first
    | exact Site.follow_written followed
    | (cases followed <;> trivial)

theorem Stage.begin_written {token : Token Kind} {stage : Stage} (begun : Stage.begin token = some stage) :
    stage.Written := by
  unfold Stage.begin at begun
  repeat' split at begun
  all_goals cases begun
  all_goals trivial

theorem Stage.complete_written {stage : Stage} {statement : Statement} (held : stage.Written)
    (whole : stage.complete? = some (some statement)) : statement.Written := by
  cases stage with
  | opened => cases whole; exact held
  | closed => cases whole; exact ⟨rfl, rfl⟩
  | assigned => cases whole; exact ⟨rfl, rfl⟩
  | grouped chain => cases whole; exact chain.statement_written _
  | attrsClosed subject => cases whole; exact subject.statement_written _
  | named site name =>
    obtain ⟨subject, -, same⟩ := Option.map_eq_some_iff.1 whole
    cases same
    exact subject.statement_written _
  | atPort site name port =>
    obtain ⟨subject, -, same⟩ := Option.map_eq_some_iff.1 whole
    cases same
    exact subject.statement_written _
  | _ => cases whole

theorem State.complete_written {state : State} {done : List Placed} (held : state.Written)
    (whole : state.complete? = some done) : ∀ placed ∈ done, placed.statement.Written := by
  obtain ⟨last, ended, rfl⟩ := Option.map_eq_some_iff.1 whole
  cases last with
  | none => exact held.1
  | some statement =>
    intro placed member
    rcases List.mem_append.1 member with earlier | added
    · exact held.1 placed earlier
    · cases List.mem_singleton.1 added
      exact Stage.complete_written held.2 ended

-- A token goes on with the statement in hand, or it ends that and starts the next, which then stands at it.
theorem State.shift_place {state later : State} {token : Token Kind} (shifted : state.shift token = some later) :
    (state.stage.follow token = some later.stage ∧ later.done = state.done ∧
        (state.stage = .start → later.position = token.position) ∧
        (state.stage ≠ .start → later.position = state.position)) ∨
      (state.complete? = some later.done ∧ Stage.begin token = some later.stage ∧
        later.position = token.position) := by
  unfold State.shift at shifted
  split at shifted
  · rename_i fresh followed
    cases shifted
    exact .inl ⟨followed, rfl, fun _ => rfl, fun other => absurd fresh other⟩
  · rename_i followed other
    cases shifted
    exact .inl ⟨followed, rfl, fun fresh => absurd fresh other, fun _ => rfl⟩
  · split at shifted
    · rename_i ended begun
      cases shifted
      exact .inr ⟨ended, begun, rfl⟩
    · cases shifted

theorem State.shift_cases {state later : State} {token : Token Kind} (shifted : state.shift token = some later) :
    (state.stage.follow token = some later.stage ∧ later.done = state.done) ∨
      (state.complete? = some later.done ∧ Stage.begin token = some later.stage) := by
  rcases State.shift_place shifted with ⟨followed, kept, -⟩ | ⟨ended, begun, -⟩
  · exact .inl ⟨followed, kept⟩
  · exact .inr ⟨ended, begun⟩

theorem State.shift_written {state later : State} {token : Token Kind} (held : state.Written)
    (shifted : state.shift token = some later) : later.Written := by
  rcases State.shift_cases shifted with ⟨followed, kept⟩ | ⟨ended, begun⟩
  · exact ⟨kept ▸ held.1, Stage.follow_written followed⟩
  · exact ⟨State.complete_written held ended, Stage.begin_written begun⟩

theorem parse_written {text : String} {document : Document} (parsed : parse text = .ok document) :
    document.format = .dot ∧ ∀ placed ∈ document.statements, placed.statement.Written := by
  unfold parse at parsed
  split at parsed
  · rename_i read
    cases parsed
    have start : State.Written grammar.start := ⟨List.forall_mem_nil _, trivial⟩
    have all : ∀ placed : Placed, placed ∈ _ → placed.statement.Written := Grammar.parse_keeps start
      (fun _ held shifted => State.shift_written held shifted)
      (fun held whole => State.complete_written held whole) read
    exact ⟨rfl, all⟩
  · cases parsed

theorem parse_coherent {text : String} {document : Document} (parsed : parse text = .ok document) :
    document.Coherent := by
  obtain ⟨format, written⟩ := parse_written parsed
  unfold Document.Coherent
  rw [format]
  exact fun placed member => (written placed member).1

end Dot

namespace Sequence

-- A whole statement in hand is one of sequence diagrams, and a block in hand is a control block.
def Stage.OfSequence : Stage → Prop
  | .block kind => (ScopeKind.ofName? kind).any ScopeKind.isBlock = true
  | .whole statement _ => statement.ofSequence = true ∧ statement.opensControl = true
  | _ => True

def State.OfSequence (state : State) : Prop :=
  (∀ placed ∈ state.done, placed.statement.ofSequence = true ∧ placed.statement.opensControl = true) ∧
    state.stage.OfSequence

theorem keywords_take {words : List String} {text : List Char} (applies : keywords words text ≠ 0) :
    ∃ word ∈ words, text.take (keywords words text) = word.toList := by
  obtain ⟨rule, listed, taken, same⟩ := Rule.oneOf_rule applies
  obtain ⟨word, known, rfl⟩ := List.mem_map.1 listed
  refine ⟨word, known, ?_⟩
  rw [keywords, same]
  exact Rule.keyword_take taken

-- The word that opens a block names a control block.
theorem block_control {token : Token Kind} (found : token.OfRule rules) (block : token.kind = .block) :
    (ScopeKind.ofName? (String.ofList token.text)).any ScopeKind.isBlock = true := by
  obtain ⟨rule, text, listed, applies, taken⟩ := found
  rw [block] at listed
  obtain rfl : rule = keywords ["alt", "loop", "opt", "par", "group", "critical", "break"] := by
    simpa [rules] using listed
  obtain ⟨word, known, spelled⟩ := keywords_take applies
  have all : ∀ word ∈ ["alt", "loop", "opt", "par", "group", "critical", "break"],
      (ScopeKind.ofName? word).any ScopeKind.isBlock = true := by decide
  rw [taken, spelled, String.ofList_toList]
  exact all word known

theorem Stage.follow_ofSequence {stage later : Stage} {token : Token Kind} (found : token.OfRule rules)
    (held : stage.OfSequence) (followed : stage.follow token = some later) : later.OfSequence := by
  unfold Stage.follow at followed
  dsimp only at followed
  split at followed
  case h_5 block => cases followed; exact block_control found block
  all_goals first
    | (cases followed <;> trivial)
    | (obtain ⟨name, -, rfl⟩ := Option.map_eq_some_iff.1 followed; trivial)
    | (split at followed <;> cases followed; trivial)

theorem Stage.complete_ofSequence {stage : Stage} {statement : Statement} (held : stage.OfSequence)
    (whole : stage.complete? = some (some statement)) :
    statement.ofSequence = true ∧ statement.opensControl = true := by
  cases stage with
  | block => cases whole; exact ⟨rfl, held⟩
  | whole => cases whole; exact held
  | declared => cases whole; exact ⟨rfl, rfl⟩
  | stereotyped => cases whole; exact ⟨rfl, rfl⟩
  | receiver => cases whole; exact ⟨rfl, rfl⟩
  | marked => cases whole; exact ⟨rfl, rfl⟩
  | activated => cases whole; exact ⟨rfl, rfl⟩
  | otherwise => cases whole; exact ⟨rfl, rfl⟩
  | _ => cases whole

theorem State.endLine_ofSequence {state later : State} (held : state.OfSequence)
    (ended : state.endLine = some later) : later.OfSequence := by
  obtain ⟨last, whole, rfl⟩ := Option.map_eq_some_iff.1 ended
  cases last with
  | none => exact held
  | some statement =>
    refine ⟨?_, trivial⟩
    intro placed member
    rcases List.mem_append.1 member with earlier | added
    · exact held.1 placed earlier
    · cases List.mem_singleton.1 added
      exact Stage.complete_ofSequence held.2 whole

-- A token goes on with the statement in hand, which stands at its first one, or it ends the line.
theorem State.shift_place {state later : State} {token : Token Kind} (shifted : state.shift token = some later) :
    (state.stage.follow token = some later.stage ∧ later.done = state.done ∧
        (state.stage = .ready → later.position = token.position) ∧
        (state.stage ≠ .ready → later.position = state.position)) ∨
      (token.kind = .lineEnd ∧ state.endLine = some later) := by
  unfold State.shift at shifted
  split at shifted
  · rename_i fresh followed
    cases shifted
    exact .inl ⟨followed, rfl, fun _ => rfl, fun other => absurd fresh other⟩
  · rename_i followed other
    cases shifted
    exact .inl ⟨followed, rfl, fun fresh => absurd fresh other, fun _ => rfl⟩
  · exact .inr (Option.ite_none_right_eq_some.1 shifted)

theorem State.shift_cases {state later : State} {token : Token Kind} (shifted : state.shift token = some later) :
    (state.stage.follow token = some later.stage ∧ later.done = state.done) ∨ state.endLine = some later := by
  rcases State.shift_place shifted with ⟨followed, kept, -⟩ | ⟨-, ended⟩
  · exact .inl ⟨followed, kept⟩
  · exact .inr ended

theorem State.shift_ofSequence {state later : State} {token : Token Kind} (found : token.OfRule rules)
    (held : state.OfSequence) (shifted : state.shift token = some later) : later.OfSequence := by
  rcases State.shift_cases shifted with ⟨followed, kept⟩ | ended
  · exact ⟨kept ▸ held.1, Stage.follow_ofSequence found held.2 followed⟩
  · exact State.endLine_ofSequence held ended

theorem State.finish_ofSequence {state : State} {done : List Placed} (held : state.OfSequence)
    (ended : state.finish = some done) :
    ∀ placed ∈ done, placed.statement.ofSequence = true ∧ placed.statement.opensControl = true := by
  unfold State.finish at ended
  split at ended
  · cases ended
    exact held.1
  · cases ended

theorem parse_coherent {text : String} {document : Document} (parsed : parse text = .ok document) :
    document.Coherent := by
  unfold parse at parsed
  split at parsed
  · rename_i read
    cases parsed
    have start : State.OfSequence grammar.start := ⟨List.forall_mem_nil _, trivial⟩
    have all : ∀ placed : Placed, placed ∈ _ →
        placed.statement.ofSequence = true ∧ placed.statement.opensControl = true :=
      Grammar.parse_keeps start (fun found held shifted => State.shift_ofSequence found held shifted)
        (fun held ended => State.finish_ofSequence held ended) read
    exact all
  · cases parsed

end Sequence

theorem Conversion.document_coherent {text : String} {format : Option String} {document : Document}
    (parsed : Conversion.document text format = .ok document) : document.Coherent := by
  unfold Conversion.document at parsed
  split at parsed
  · cases parsed
  · rename_i chosen _
    cases chosen with
    | dot => exact Dot.parse_coherent parsed
    | sequence => exact Sequence.parse_coherent parsed

end DiagramStream
