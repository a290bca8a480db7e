import DiagramStream.Proofs.Graph.Balance
import DiagramStream.Proofs.Graph.Level
import DiagramStream.Proofs.Graph.Stream

/-!
Which graphs are told. Main statement: exactly those whose braces balance around one graph with the right
operators; any other is refused at the first statement that no such graph can go on with, or at its end for
its innermost open scope.
-/

namespace DiagramStream

-- What a caller promises of a statement: a first end of an edge, and a level that can be read.
def Statement.Readable : Statement → Prop
  | .nodeStatement _ attrs => ∀ level, attrs.get? "level" = some level → ReadableLevel level
  | .edgeStatement endpoints _ _ => endpoints ≠ []
  | _ => True

namespace Narration

theorem sayable_iff_readable {statement : Statement} : statement.Sayable ↔ statement.Readable := by
  cases statement with
  | nodeStatement node attrs => exact ownAttrs_ok_iff
  | _ => exact Iff.rfl

-- What a site decides, it decides for the narration that stands there.
theorem graph_decides :
    Decides faultAfter? (fun placed => placed.statement.ofGraph = true ∧ placed.statement.Readable)
      (fun narration before => Held narration ∧ narration.site = siteOf before) := by
  refine ⟨?_, ?_⟩
  · rintro narration before placed ⟨held, site⟩ ⟨graph, readable⟩ fine
    obtain ⟨next, told, moves⟩ := tell_accepted held graph (sayable_iff_readable.2 readable) (site ▸ fine)
    refine ⟨next, told, moves.held, ?_⟩
    rw [moves.site, site, siteOf_concat]
  · rintro narration before placed failure ⟨held, site⟩ ⟨graph, readable⟩ fault
    exact tell_refused held graph (sayable_iff_readable.2 readable).hasEnd (site ▸ fault)

theorem opening_reached (document : Document) (batching : Batching) :
    Held (opening document batching) ∧ (opening document batching).site = siteOf [] :=
  ⟨opening_held document batching, rfl⟩

theorem ofDocument_fault {before rest : List Placed} {placed : Placed} (batching : Batching)
    (allowed : ∀ one ∈ before ++ placed :: rest, one.statement.ofGraph = true ∧ one.statement.Readable)
    (clean : Clean faultAfter? before) {failure : Failure} (fault : faultAfter? before placed = some failure) :
    ofDocument ⟨.dot, before ++ placed :: rest⟩ batching = .error failure := by
  unfold ofDocument
  rw [graph_decides.tellAll_fault (opening_reached _ batching) allowed clean fault]

-- At the end the outline tells what is left open.
theorem ofDocument_clean {statements : List Placed} (batching : Batching)
    (allowed : ∀ placed ∈ statements, placed.statement.ofGraph = true ∧ placed.statement.Readable)
    (clean : Clean faultAfter? statements) :
    match (siteOf statements).scopes with
    | [] => ∃ narration, ofDocument ⟨.dot, statements⟩ batching = .ok narration
    | (kind, opened) :: _ => ofDocument ⟨.dot, statements⟩ batching = .error (.neverClosed kind opened) := by
  obtain ⟨last, told, held, site⟩ :=
    graph_decides.tellAll_clean (opening_reached ⟨.dot, statements⟩ batching) allowed clean
  have scopes : (siteOf statements).scopes = last.outline := by rw [← site]; rfl
  rw [scopes]
  unfold ofDocument
  cases frames : last.nesting.frames with
  | nil =>
    simp only [outline_nil frames, told, finish, Nesting.ensureClosed, frames]
    exact ⟨_, rfl⟩
  | cons top outer => simp only [outline_cons frames, told, finish, Nesting.ensureClosed, frames]

theorem ofDocument_graph {statements : List Placed} (batching : Batching)
    (graph : ∀ placed ∈ statements, placed.statement.ofGraph = true)
    (readable : ∀ placed ∈ statements, placed.statement.Readable) :
    ((∃ narration, ofDocument ⟨.dot, statements⟩ batching = .ok narration) ↔ WellShaped statements) ∧
    (∀ before placed rest, statements = before ++ placed :: rest →
      Extendable before → ¬Extendable (before ++ [placed]) →
      ∃ failure, faultAfter? before placed = some failure ∧
        ofDocument ⟨.dot, statements⟩ batching = .error failure) ∧
    (Extendable statements → ¬WellShaped statements →
      ∃ kind opened outer, (siteOf statements).scopes = (kind, opened) :: outer ∧
        ofDocument ⟨.dot, statements⟩ batching = .error (.neverClosed kind opened)) := by
  have allowed : ∀ placed ∈ statements, placed.statement.ofGraph = true ∧ placed.statement.Readable :=
    fun placed member => ⟨graph placed member, readable placed member⟩
  refine ⟨⟨?_, ?_⟩, ?_, ?_⟩
  · rintro ⟨narration, told⟩
    obtain ⟨last, run, closed, _⟩ := (ofDocument_ok_iff _ _ _).1 told
    obtain ⟨clean, held, site⟩ := graph_decides.clean_of_told (opening_reached _ batching) allowed run
    refine wellShaped_of_clean clean ?_
    rw [← site]
    exact outline_nil closed
  · intro shaped
    obtain ⟨clean, ended⟩ := shaped.clean
    have outcome := ofDocument_clean batching allowed clean
    rwa [ended] at outcome
  · rintro before placed rest rfl extendable stuck
    have clean := (extendable_iff before).1 extendable
    cases fault : faultAfter? before placed with
    | none => exact absurd ((extendable_iff _).2 (clean_concat.2 ⟨clean, fault⟩)) stuck
    | some failure => exact ⟨failure, rfl, ofDocument_fault batching allowed clean fault⟩
  · intro extendable unfinished
    have clean := (extendable_iff statements).1 extendable
    have outcome := ofDocument_clean batching allowed clean
    cases scopes : (siteOf statements).scopes with
    | nil => exact absurd (wellShaped_of_clean clean scopes) unfinished
    | cons top outer =>
      rw [scopes] at outcome
      exact ⟨top.1, top.2, outer, rfl, outcome⟩

-- A chain that begins at the brace of a subgraph.
theorem ofDocument_graph_chained :
    let statements : List Placed :=
      [⟨⟨1, 1⟩, .graphOpen true true (some "g")⟩, ⟨⟨2, 1⟩, .subgraphOpen none⟩,
       ⟨⟨3, 1⟩, .nodeStatement ⟨"a", none⟩ (Table.ofList [("level", "12")])⟩,
       ⟨⟨4, 1⟩, .scopeClose [[⟨"b", none⟩]] ["->"] Table.empty⟩,
       ⟨⟨5, 1⟩, .edgeStatement [[⟨"b", none⟩], [⟨"a", some "n"⟩]] ["->"] Table.empty⟩,
       ⟨⟨6, 1⟩, .scopeClose [] [] Table.empty⟩]
    (∀ placed ∈ statements, placed.statement.ofGraph = true) ∧
    (∀ placed ∈ statements, placed.statement.Readable) ∧ WellShaped statements := by
  intro statements
  have graph : ∀ placed ∈ statements, placed.statement.ofGraph = true := by
    simp [statements, Statement.ofGraph]
  have readable : ∀ placed ∈ statements, placed.statement.Readable := by
    simp only [statements, List.mem_cons, List.not_mem_nil, or_false, forall_eq_or_imp, forall_eq]
    refine ⟨trivial, trivial, ?_, trivial, by simp [Statement.Readable], trivial⟩
    rintro level given
    cases given
    intro _
    decide
  exact ⟨graph, readable, (ofDocument_graph .diagram graph readable).1.1 ⟨_, rfl⟩⟩

-- An operator that the graph does not allow, behind the brace that closes it: the brace is refused for having
-- a chain at all.
theorem ofDocument_rootChain :
    let opener : Placed := ⟨⟨1, 1⟩, .graphOpen true false none⟩
    let brace : Placed := ⟨⟨2, 1⟩, .scopeClose [[⟨"a", none⟩]] ["--"] Table.empty⟩
    (∀ placed ∈ [opener, brace], placed.statement.ofGraph = true ∧ placed.statement.Readable) ∧
    Extendable [opener] ∧ ¬Extendable [opener, brace] ∧ (siteOf [opener]).scopes.length = 1 ∧
    (∃ operator ∈ brace.statement.operators, operator ≠ edgeOperator true) ∧
    ∃ failure, ofDocument ⟨.dot, [opener, brace]⟩ .diagram = .error failure ∧
      failure.code? = some "E_STRAY_STATEMENT" := by
  intro opener brace
  have begun : Clean faultAfter? ([] ++ [opener]) := clean_concat.2 ⟨clean_nil, rfl⟩
  refine ⟨?_, (extendable_iff _).2 begun, ?_, rfl, ⟨"--", by simp [brace, Statement.operators], by decide⟩, _, rfl, rfl⟩
  · simp [opener, brace, Statement.ofGraph, Statement.Readable]
  · intro extendable
    have clean : Clean faultAfter? ([opener] ++ [brace]) := (extendable_iff _).1 extendable
    cases (clean_concat.1 clean).2

end Narration
end DiagramStream
