import DiagramStream.Proofs.Parsing
import DiagramStream.Proofs.Exchange.Acceptance
import DiagramStream.Proofs.Graph.Acceptance

/-!
What a text can fail for. Main statement: every failure is diagnosed but one. A level that passes for a number
and cannot be read as one ends the telling of a graph without a diagnosis, as soon as it is met.
-/

namespace DiagramStream

namespace Failure

theorem diagnosed_of_line {failure : Failure} {line : Int} (placed : failure.line? = some line) :
    failure.diagnosis? ≠ none := by
  cases failure <;> simp_all [line?, position?, diagnosis?, code?]

theorem undiagnosed_of_level {failure : Failure} (level : failure.ofLevel = true) : failure.diagnosis? = none := by
  cases failure <;> simp_all [ofLevel, diagnosis?, code?]

end Failure

-- Levels

def Statement.levelFailure? : Statement → Option Failure
  | .nodeStatement _ attrs =>
    match Narration.ownAttrs attrs with
    | .error failure => some failure
    | .ok _ => none
  | _ => none

-- What is wrong with a statement of a graph text, if its level counts too.
def troubleAfter? (before : List Placed) (placed : Placed) : Option Failure :=
  (faultAfter? before placed).or placed.statement.levelFailure?

namespace Narration

theorem levelFailure?_ofLevel {statement : Statement} {failure : Failure}
    (trouble : statement.levelFailure? = some failure) : failure.ofLevel = true := by
  unfold Statement.levelFailure? at trouble
  repeat' split at trouble
  all_goals cases trouble
  exact ownAttrs_error ‹_›

theorem levelFailure?_none_iff {statement : Statement} (ends : statement.hasEnd = true) :
    statement.levelFailure? = none ↔ statement.Readable := by
  rw [← sayable_iff_readable]
  cases statement with
  | nodeStatement node attrs =>
    simp only [Statement.levelFailure?, Statement.Sayable]
    cases ownAttrs attrs <;> simp
  | edgeStatement endpoints operators attrs =>
    cases endpoints with
    | nil => cases ends
    | cons first rest => simp [Statement.levelFailure?, Statement.Sayable]
  | _ => exact iff_of_true rfl trivial

theorem levelFailure?_some_iff {statement : Statement} :
    (∃ failure, statement.levelFailure? = some failure) ↔
      ∃ node attrs level, statement = .nodeStatement node attrs ∧ attrs.get? "level" = some level ∧
        ¬ReadableLevel level := by
  rw [← Option.isSome_iff_exists, ← Option.ne_none_iff_isSome]
  constructor
  · intro trouble
    cases statement with
    | nodeStatement node attrs =>
      have unreadable := (levelFailure?_none_iff rfl).not.1 trouble
      obtain ⟨level, given, unread⟩ : ∃ level, attrs.get? "level" = some level ∧ ¬ReadableLevel level := by
        simpa [Statement.Readable] using unreadable
      exact ⟨node, attrs, level, rfl, given, unread⟩
    | _ => exact absurd rfl trouble
  · rintro ⟨node, attrs, level, rfl, given, unread⟩
    refine (levelFailure?_none_iff rfl).not.2 ?_
    intro readable
    exact unread (readable level given)

-- Inside the graph a level that is not read stops its statement.
theorem tell_levelFailure {narration : Narration} {placed : Placed} {failure : Failure}
    (trouble : placed.statement.levelFailure? = some failure) (fine : narration.site.fault? placed = none) :
    narration.tell placed = .error failure := by
  obtain ⟨position, statement⟩ := placed
  cases statement with
  | nodeStatement node attrs =>
    obtain ⟨top, outer, scopes⟩ := body_of_fine (by simp) fine
    simp only [tell, requireBody_eq, scopes, nodeStatement]
    unfold Statement.levelFailure? at trouble
    cases read : ownAttrs attrs with
    | ok own => simp [read] at trouble
    | error other => simpa [read] using trouble
  | _ => cases trouble

theorem written_decides :
    Decides troubleAfter? (fun placed => placed.statement.Written)
      (fun narration before => Held narration ∧ narration.site = siteOf before) := by
  refine ⟨?_, ?_⟩
  · rintro narration before placed reached ⟨graph, ends⟩ fine
    obtain ⟨placedWell, level⟩ := Option.or_eq_none_iff.1 fine
    exact graph_decides.accepts narration before placed reached ⟨graph, (levelFailure?_none_iff ends).1 level⟩ placedWell
  · rintro narration before placed failure ⟨held, site⟩ ⟨graph, ends⟩ trouble
    rcases Option.or_eq_some_iff.1 trouble with fault | ⟨fine, level⟩
    · exact tell_refused held graph ends (site ▸ fault)
    · exact tell_levelFailure level (site ▸ fine)

theorem clean_trouble_iff {statements : List Placed} (written : ∀ placed ∈ statements, placed.statement.Written) :
    Clean troubleAfter? statements ↔
      Clean faultAfter? statements ∧ ∀ placed ∈ statements, placed.statement.Readable := by
  induction statements using List.reverseRecOn with
  | nil => exact iff_of_true clean_nil ⟨clean_nil, List.forall_mem_nil _⟩
  | append_singleton before placed ih =>
    have level := levelFailure?_none_iff (written placed (by simp)).2
    rw [clean_concat, clean_concat, ih fun one member => written one (List.mem_append_left _ member), troubleAfter?,
      Option.or_eq_none_iff, level, List.forall_mem_append, List.forall_mem_singleton]
    exact and_and_and_comm

-- A scope that is left open is diagnosed.
theorem ofDocument_undiagnosed_iff {document : Document} {batching : Batching} {failure : Failure}
    (undiagnosed : failure.diagnosis? = none) :
    ofDocument document batching = .error failure ↔
      (opening document batching).tellAll document.statements = .error failure := by
  unfold ofDocument
  cases (opening document batching).tellAll document.statements with
  | error other => exact Iff.rfl
  | ok last =>
    refine iff_of_false ?_ (by simp)
    simp only [finish, Nesting.ensureClosed]
    cases last.nesting.frames with
    | nil => simp
    | cons top outer =>
      rintro ⟨⟩
      cases undiagnosed

theorem ofDocument_sequence_diagnosed {statements : List Placed} {batching : Batching} {failure : Failure}
    (coherent : Document.Coherent ⟨.sequence, statements⟩)
    (failed : ofDocument ⟨.sequence, statements⟩ batching = .error failure) : failure.diagnosis? ≠ none := by
  intro undiagnosed
  have stopped := (ofDocument_undiagnosed_iff undiagnosed).1 failed
  obtain ⟨before, placed, rest, rfl, -, offence⟩ :=
    (exchange_decides.tellAll_error_iff (opening_follows _ batching) fun one member => (coherent one member).1).1
      stopped
  exact Failure.diagnosed_of_line (offenceAfter?_line (coherent placed (by simp)).2 offence) undiagnosed

theorem ofDocument_graph_undiagnosed {statements : List Placed} {batching : Batching} {failure : Failure}
    (written : ∀ placed ∈ statements, placed.statement.Written) (undiagnosed : failure.diagnosis? = none) :
    ofDocument ⟨.dot, statements⟩ batching = .error failure ↔
      ∃ before placed rest, statements = before ++ placed :: rest ∧
        (∀ one ∈ before, one.statement.Readable) ∧ Extendable (before ++ [placed]) ∧
        placed.statement.levelFailure? = some failure := by
  rw [ofDocument_undiagnosed_iff undiagnosed, written_decides.tellAll_error_iff (opening_reached _ _) written]
  refine exists_congr fun before => exists_congr fun placed => exists_congr fun rest => and_congr_right ?_
  rintro rfl
  have earlier : ∀ one ∈ before, one.statement.Written := fun one member => written one (List.mem_append_left _ member)
  rw [clean_trouble_iff earlier, extendable_iff, clean_concat]
  constructor
  · rintro ⟨⟨clean, readable⟩, trouble⟩
    rcases Option.or_eq_some_iff.1 trouble with fault | ⟨fine, level⟩
    · exact absurd undiagnosed (Failure.diagnosed_of_line (Site.fault?_line fault))
    · exact ⟨readable, ⟨clean, fine⟩, level⟩
  · rintro ⟨readable, ⟨clean, fine⟩, level⟩
    exact ⟨⟨clean, readable⟩, Option.or_eq_some_iff.2 (.inr ⟨fine, level⟩)⟩

end Narration

-- A text that is no diagram is reported where its reading stops.
theorem Scan.Grammar.parse_diagnosed {κ σ ρ : Type} {grammar : Scan.Grammar κ σ ρ} {format : Format}
    {text : List Char} {failure : Failure} (failed : grammar.parse format text = .error failure) :
    failure.diagnosis? ≠ none := by
  unfold Scan.Grammar.parse at failed
  split at failed
  · cases failed
  · cases failed
    simp [Scan.Grammar.report, Failure.diagnosis?, Failure.code?]

namespace Conversion

theorem chooseFormat_named (text : String) (format : Option Format) :
    chooseFormat text (format.map Format.name) = .ok (format.getD (detect text)) := by
  cases format with
  | none => rfl
  | some format => cases format <;> rfl

theorem chooseBatching_named (batching : Option Batching) :
    chooseBatching (batching.map Batching.name) = .ok (batching.getD defaultBatching) := by
  cases batching with
  | none => rfl
  | some batching => cases batching <;> rfl

theorem parse_diagnosed {text : String} {format : Format} {failure : Failure}
    (failed : parse text format = .error failure) : failure.diagnosis? ≠ none := by
  cases format with
  | dot =>
    simp only [parse, Dot.parse] at failed
    split at failed
    · cases failed
    · cases failed
      exact Scan.Grammar.parse_diagnosed ‹_›
  | sequence =>
    simp only [parse, Sequence.parse] at failed
    split at failed
    · cases failed
    · cases failed
      exact Scan.Grammar.parse_diagnosed ‹_›

theorem parse_format {text : String} {format : Format} {document : Document}
    (parsed : parse text format = .ok document) : document.format = format := by
  cases format with
  | dot =>
    simp only [parse, Dot.parse] at parsed
    split at parsed <;> cases parsed
    rfl
  | sequence =>
    simp only [parse, Sequence.parse] at parsed
    split at parsed <;> cases parsed
    rfl

theorem document_diagnosed {text : String} {format : Option Format} {failure : Failure}
    (failed : document text (format.map Format.name) = .error failure) : failure.diagnosis? ≠ none := by
  unfold document at failed
  rw [chooseFormat_named] at failed
  exact parse_diagnosed failed

theorem document_written {text : String} {format : Option String} {statements : List Placed}
    (parsed : document text format = .ok ⟨.dot, statements⟩) : ∀ placed ∈ statements, placed.statement.Written := by
  unfold document at parsed
  split at parsed
  · cases parsed
  · rename_i chosen _
    cases chosen with
    | dot => exact (Dot.parse_written parsed).2
    | sequence => cases parse_format parsed

-- A failure without a diagnosis comes of a graph.
theorem narrate_undiagnosed {text : String} {format : Option Format} {batching : Option Batching} {failure : Failure}
    (undiagnosed : failure.diagnosis? = none) :
    narrate text (format.map Format.name) (batching.map Batching.name) = .error failure ↔
      ∃ before placed rest, document text (format.map Format.name) = .ok ⟨.dot, before ++ placed :: rest⟩ ∧
        (∀ one ∈ before, one.statement.Readable) ∧ Extendable (before ++ [placed]) ∧
        placed.statement.levelFailure? = some failure := by
  unfold narrate
  rw [chooseBatching_named]
  cases parsed : document text (format.map Format.name) with
  | error other =>
    refine iff_of_false ?_ (by simp)
    rintro ⟨⟩
    exact document_diagnosed parsed undiagnosed
  | ok document =>
    obtain ⟨chosen, statements⟩ := document
    cases chosen with
    | dot =>
      refine (Narration.ofDocument_graph_undiagnosed (document_written parsed) undiagnosed).trans ?_
      simp
    | sequence =>
      refine iff_of_false ?_ (by simp)
      intro failed
      exact Narration.ofDocument_sequence_diagnosed (document_coherent parsed) failed undiagnosed

-- Such a failure comes of the first level that passes for a number and is not read as one, in a graph that has
-- met no other fault.
theorem narrate_undiagnosed_iff (text : String) (format : Option Format) (batching : Option Batching) :
    let outcome := narrate text (format.map Format.name) (batching.map Batching.name)
    ((∃ failure, outcome = .error failure ∧ failure.diagnosis? = none) ↔
      ∃ before position node attrs rest level,
        document text (format.map Format.name) =
          .ok ⟨.dot, before ++ ⟨position, .nodeStatement node attrs⟩ :: rest⟩ ∧
        (∀ placed ∈ before, placed.statement.Readable) ∧
        Extendable (before ++ [⟨position, .nodeStatement node attrs⟩]) ∧
        attrs.get? "level" = some level ∧ ¬ReadableLevel level) ∧
    ∀ failure, outcome = .error failure → failure.diagnosis? = none → failure.ofLevel = true := by
  refine ⟨⟨?_, ?_⟩, ?_⟩
  · rintro ⟨failure, failed, undiagnosed⟩
    obtain ⟨before, ⟨position, statement⟩, rest, parsed, readable, extendable, trouble⟩ :=
      (narrate_undiagnosed undiagnosed).1 failed
    obtain ⟨node, attrs, level, rfl, given, unread⟩ := Narration.levelFailure?_some_iff.1 ⟨failure, trouble⟩
    exact ⟨before, position, node, attrs, rest, level, parsed, readable, extendable, given, unread⟩
  · rintro ⟨before, position, node, attrs, rest, level, parsed, readable, extendable, given, unread⟩
    obtain ⟨failure, trouble⟩ := Narration.levelFailure?_some_iff.2 ⟨node, attrs, level, rfl, given, unread⟩
    have undiagnosed := Failure.undiagnosed_of_level (Narration.levelFailure?_ofLevel trouble)
    exact ⟨failure, (narrate_undiagnosed undiagnosed).2 ⟨before, _, rest, parsed, readable, extendable, trouble⟩,
      undiagnosed⟩
  · intro failure failed undiagnosed
    obtain ⟨before, placed, rest, -, -, -, trouble⟩ := (narrate_undiagnosed undiagnosed).1 failed
    exact Narration.levelFailure?_ofLevel trouble

-- A superscript passes for a digit and has no place value.
theorem narrate_superscript :
    ∃ failure, narrate "digraph \x7b a [level=\"²\"] \x7d" none none = .error failure ∧ failure.diagnosis? = none := by
  have read : (document "digraph \x7b a [level=\"²\"] \x7d" none).toOption = some ⟨.dot,
      [⟨⟨1, 1⟩, .graphOpen true false none⟩,
       ⟨⟨1, 11⟩, .nodeStatement ⟨"a", none⟩ (Table.ofList [("level", "²")])⟩,
       ⟨⟨1, 25⟩, .scopeClose [] [] Table.empty⟩]⟩ := by
    decide +kernel
  unfold narrate
  cases parsed : document "digraph \x7b a [level=\"²\"] \x7d" none with
  | error failure => simp [parsed, Except.toOption] at read
  | ok document =>
    rw [parsed] at read
    cases read
    exact ⟨.levelNotDecimal "²", rfl, rfl⟩

end Conversion
end DiagramStream
