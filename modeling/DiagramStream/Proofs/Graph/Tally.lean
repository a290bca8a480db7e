import DiagramStream.Proofs.Graph.Reference
import DiagramStream.Proofs.Graph.Stream

/-!
A graph that is being told, against the statements so far. Main statement: the roster holds the names that were
referred to, and each open scope those referred to since it was opened, in the order of their first mention.
-/

namespace DiagramStream

-- Frames against open scopes, each from its opener on. A scope that was closed inside counts with what was
-- mentioned in it.
inductive Tallies : List Placed → List Frame → List Scope → Prop where
  | outside (statements : List Placed) : Tallies statements [] []
  | inside {outer : List Placed} {frames : List Frame} {scopes : List Scope} (around : Tallies outer frames scopes)
      {opener : Placed} (inner : List Placed) {frame : Frame} {scope : Scope} (mute : opener.statement.refs = [])
      (opened : scope.opened = outer.length) (edges : frame.edgeDefaults = scope.edgeDefaults)
      (members : frame.members = (refsOf inner).eraseDups) :
      Tallies (outer ++ opener :: inner) (frame :: frames) (scope :: scopes)

namespace Tallies
variable {before : List Placed} {placed : Placed} {top : Frame} {frames : List Frame} {scope : Scope}
  {scopes : List Scope}

-- Statements that neither open nor close a scope, with the nodes they add to the innermost.
theorem add (tallies : Tallies before frames scopes) {ids : List String} {more : List Placed}
    (same : ∀ seen : List String, (seen ++ ids).eraseDups = (seen ++ refsOf more).eraseDups) :
    Tallies (before ++ more) (Nesting.carry ids frames) scopes := by
  cases tallies with
  | outside => exact .outside _
  | inside around inner mute opened edges members =>
    rw [List.append_assoc, List.cons_append]
    refine .inside around (inner ++ more) mute opened (by simpa using edges) ?_
    rw [addMembers_members members, same, refsOf_append]

theorem refer (tallies : Tallies before frames scopes) {after : List Frame}
    (carried : after = Nesting.carry placed.statement.refs frames) : Tallies (before ++ [placed]) after scopes :=
  carried ▸ tallies.add fun seen => by simp

theorem enter (tallies : Tallies before frames scopes) (mute : placed.statement.refs = [])
    (blank : top.members = []) : Tallies (before ++ [placed]) (top :: frames) (⟨before.length, top.edgeDefaults⟩ :: scopes) :=
  .inside tallies [] mute rfl rfl blank

-- What was mentioned inside carries over to the scope around, before the chain behind the brace adds its own.
theorem leave (tallies : Tallies before (top :: frames) (scope :: scopes)) {after : List Frame}
    (carried : after = Nesting.carry placed.statement.refs (Nesting.carry top.members frames)) :
    Tallies (before ++ [placed]) after scopes := by
  cases tallies with
  | @inside outer _ _ around opener inner _ _ mute opened edges members =>
    rw [carried, carry_carry, List.append_assoc, List.cons_append]
    refine around.add ?_
    intro seen
    have refs : refsOf (opener :: (inner ++ [placed])) = refsOf inner ++ placed.statement.refs := by
      simp [refsOf, mute]
    rw [refs, members, ← List.append_assoc, ← eraseDups_eraseDups_append, eraseDups_append_eraseDups,
      eraseDups_eraseDups_append, List.append_assoc]

theorem change (tallies : Tallies before (top :: frames) (scope :: scopes)) (mute : placed.statement.refs = [])
    {frame : Frame} (members : frame.members = top.members) {defaults : Attrs} (edges : frame.edgeDefaults = defaults) :
    Tallies (before ++ [placed]) (frame :: frames) (⟨scope.opened, defaults⟩ :: scopes) := by
  cases tallies with
  | inside around inner mute' opened _ counted =>
    rw [List.append_assoc, List.cons_append]
    refine .inside around (inner ++ [placed]) mute' opened edges ?_
    rw [members, counted, refsOf_append, refsOf_singleton, mute, List.append_nil]

theorem edges (tallies : Tallies before (top :: frames) scopes) : top.edgeDefaults = edgeDefaults scopes := by
  cases tallies with
  | inside _ _ _ _ edges _ => exact edges

theorem members (tallies : Tallies before (top :: frames) (openScopes before)) : top.members = insideOf before := by
  unfold insideOf
  generalize scopes : openScopes before = opened at tallies
  cases tallies with
  | inside around inner mute opened edges members =>
    simp [members, opened]

end Tallies

namespace Narration

structure Tallied (narration : Narration) (before : List Placed) : Prop where
  held : Held narration
  plain : narration.roster.Plain
  site : narration.site = siteOf before
  keys : narration.roster.members.keys = (refsOf before).eraseDups
  tallies : Tallies before narration.nesting.frames (openScopes before)

theorem Tallied.edgeAttrs {narration : Narration} {before : List Placed} (tallied : Tallied narration before) :
    narration.nesting.edgeAttrs = edgeDefaults (openScopes before) := by
  have tallies := tallied.tallies
  unfold Nesting.edgeAttrs
  split
  · rename_i none
    rw [none] at tallies
    generalize openScopes before = scopes at tallies
    cases tallies
    rfl
  · rename_i top outer frames
    rw [frames] at tallies
    exact tallies.edges

-- In a scope, the document has it open as well.
theorem Tallied.inside {narration : Narration} {before : List Placed} (tallied : Tallied narration before)
    {top : Frame} {outer : List Frame} (frames : narration.nesting.frames = top :: outer) :
    ∃ scope scopes, openScopes before = scope :: scopes ∧ Tallies before (top :: outer) (scope :: scopes) := by
  have tallies := tallied.tallies
  rw [frames] at tallies
  generalize openScopes before = opened at tallies ⊢
  cases tallies with
  | inside around inner mute opened edges members =>
    exact ⟨_, _, rfl, .inside around inner mute opened edges members⟩

theorem enter_frames (nesting : Nesting) (kind : ScopeKind) (label : Option String) (line : Int) :
    ∃ frame, (nesting.enter kind label line).1.frames = frame :: nesting.frames ∧ frame.members = [] ∧
      frame.edgeDefaults = nesting.edgeAttrs := by
  unfold Nesting.enter Nesting.edgeAttrs
  cases nesting.frames <;> exact ⟨_, rfl, rfl, rfl⟩

-- The innermost scope takes new defaults, for edges or for something else.
theorem setDefaults_frames {narration : Narration} {top : Frame} {outer : List Frame}
    (frames : narration.nesting.frames = top :: outer) (target : String) (attrs : Attrs) :
    ∃ frame, (narration.setDefaults target attrs).nesting.frames = frame :: outer ∧ frame.members = top.members ∧
      frame.edgeDefaults = if target = "edge" then top.edgeDefaults.merge attrs else top.edgeDefaults := by
  simp only [setDefaults, Nesting.update, frames]
  refine ⟨_, rfl, ?_, ?_⟩
  · split
    · rfl
    · split <;> rfl
  · by_cases node : target = "node"
    · simp [node]
    · by_cases edge : target = "edge" <;> simp [node, edge]

theorem declared_same {narration after : Narration} {said : Roster.Declared}
    (told : narration.declared said = .ok after) :
    after.roster = said.roster ∧ after.nesting.frames = Nesting.carry [said.id] narration.nesting.frames := by
  unfold declared at told
  split at told
  · cases told
    exact ⟨rfl, addMember_frames ..⟩
  · split at told
    · cases told
      exact ⟨rfl, addMember_frames ..⟩
    · dsimp only at told
      split at told
      · cases told
      · cases told
        exact ⟨rfl, addMember_frames ..⟩

theorem declared_referred {narration after : Narration} (held : Held narration) (plain : narration.roster.Plain)
    {said : Roster.Declaration} (single : said.otherName = none)
    (told : narration.declared (narration.roster.declare said) = .ok after) : Referred narration [said.name] after := by
  have grows := Roster.declare_grows held.sound said
  obtain ⟨id, later⟩ := Roster.Plain.declare held.sound plain single
  obtain ⟨other, same, refers⟩ := declared_refers held grows
  cases same.symm.trans told
  obtain ⟨roster, frames⟩ := declared_same told
  rw [id] at frames
  refine ⟨refers, roster ▸ later, ?_, frames⟩
  intro seen keys
  have seen := grows.seen keys
  rwa [id, ← roster] at seen

-- A chain behind a brace refers to its nodes from the scope around; drawing its edges comes after.
theorem Tallied.refer {narration start middle after : Narration} {before : List Placed} {placed : Placed}
    (tallied : Tallied narration before) (moves : Moves narration placed after)
    (referred : Referred start placed.statement.refs middle) (begins : start.roster = narration.roster)
    (stays : after.roster = middle.roster)
    (tallies : Tallies (before ++ [placed]) after.nesting.frames (openScopes (before ++ [placed]))) :
    Tallied after (before ++ [placed]) := by
  refine ⟨moves.held, stays ▸ referred.plain, ?_, ?_, tallies⟩
  · rw [moves.site, tallied.site, siteOf_concat]
  · rw [stays, refsOf_append, refsOf_singleton]
    exact referred.keys _ (begins ▸ tallied.keys)

-- Statements that refer to nothing: only the scopes remain to be looked at.
theorem Tallied.mute {narration after : Narration} {before : List Placed} {placed : Placed}
    (tallied : Tallied narration before) (moves : Moves narration placed after) (mute : placed.statement.refs = [])
    (roster : after.roster = narration.roster)
    (tallies : Tallies (before ++ [placed]) after.nesting.frames (openScopes (before ++ [placed]))) :
    Tallied after (before ++ [placed]) := by
  refine ⟨moves.held, roster ▸ tallied.plain, ?_, ?_, tallies⟩
  · rw [moves.site, tallied.site, siteOf_concat]
  · rw [roster, tallied.keys, refsOf_append, refsOf_singleton, mute, List.append_nil]

-- The scope that is entered takes over the defaults of the one around.
theorem Tallied.enter {narration after : Narration} {before : List Placed} {placed : Placed}
    (tallied : Tallied narration before) (moves : Moves narration placed after) (mute : placed.statement.refs = [])
    (roster : after.roster = narration.roster) {kind : ScopeKind} {label : Option String} {line : Int}
    (entered : after.nesting.frames = (narration.nesting.enter kind label line).1.frames)
    (opened : openScopes (before ++ [placed]) =
      ⟨before.length, edgeDefaults (openScopes before)⟩ :: openScopes before) :
    Tallied after (before ++ [placed]) := by
  obtain ⟨frame, frames, blank, defaults⟩ := enter_frames narration.nesting kind label line
  refine tallied.mute moves mute roster ?_
  rw [entered, frames, opened, ← tallied.edgeAttrs, ← defaults]
  exact tallied.tallies.enter mute blank

theorem tell_tallied {narration after : Narration} {before : List Placed} {placed : Placed}
    (tallied : Tallied narration before) (graph : placed.statement.ofGraph = true)
    (told : narration.tell placed = .ok after) : Tallied after (before ++ [placed]) := by
  have moves := tell_held tallied.held graph told
  have scopes := openScopes_concat before placed
  cases tell_goes tallied.held tallied.plain graph told with
  | begins place directed strict name none =>
    exact tallied.enter moves rfl rfl rfl scopes
  | enters place name body =>
    exact tallied.enter moves rfl rfl rfl scopes
  | ends place endpoints attrs top frames =>
    obtain ⟨scope, outer, opened, tallies⟩ := tallied.inside frames
    refine tallied.mute moves rfl rfl ?_
    rw [scopes, opened]
    exact tallies.leave rfl
  | leaves place endpoints attrs top rest frames =>
    obtain ⟨scope, outer, opened, tallies⟩ := tallied.inside frames
    refine tallied.mute moves rfl rfl ?_
    rw [scopes, opened]
    exact tallies.leave (carry_nil _).symm
  | continues place endpoints operators attrs top rest frames some_ =>
    have refs : (Statement.scopeClose endpoints operators attrs).refs = endpoints.flatten.map NodeRef.name := by
      simp [Statement.refs, some_]
    have referred := mentionAll_referred (leave_held tallied.held frames).1 tallied.plain
      (endpoints.flatten.map NodeRef.name)
    rw [← refs] at referred
    obtain ⟨scope, outer, opened, tallies⟩ := tallied.inside frames
    refine tallied.refer moves referred rfl (by rw [refs]; rfl) ?_
    rw [scopes, opened]
    exact tallies.leave (refs ▸ referred.frames)
  | joins place endpoints operators attrs body =>
    have referred := mentionAll_referred tallied.held tallied.plain (endpoints.flatten.map NodeRef.name)
    exact tallied.refer moves referred rfl rfl (scopes ▸ tallied.tallies.refer referred.frames)
  | states place node attrs own after body readable told =>
    have referred := declared_referred tallied.held tallied.plain rfl told
    exact tallied.refer moves referred rfl rfl (scopes ▸ tallied.tallies.refer referred.frames)
  | sets place target attrs body =>
    obtain ⟨top, rest, frames⟩ := List.exists_cons_of_ne_nil body
    obtain ⟨frame, changed, members, defaults⟩ := setDefaults_frames frames target attrs
    obtain ⟨scope, outer, opened, tallies⟩ := tallied.inside frames
    refine tallied.mute moves rfl rfl ?_
    rw [changed, scopes, opened]
    have mute : (Placed.mk place (.attrStatement target attrs)).statement.refs = [] := rfl
    refine tallies.change mute members ?_
    rw [defaults, tallies.edges]
    rfl
  | assigns place key value body =>
    obtain ⟨top, rest, frames⟩ := List.exists_cons_of_ne_nil body
    obtain ⟨scope, outer, opened, tallies⟩ := tallied.inside frames
    refine tallied.mute moves rfl rfl ?_
    simp only [assign, Nesting.update, frames]
    rw [scopes, opened]
    have mute : (Placed.mk place (.assignment key value)).statement.refs = [] := rfl
    refine tallies.change mute ?_ ?_
    · rfl
    · exact tallies.edges

theorem opening_tallied (document : Document) (batching : Batching) : Tallied (opening document batching) [] :=
  ⟨opening_held document batching, Roster.empty_plain _, rfl, rfl, .outside []⟩

-- What is kept of the statements of a graph, and what is told of it in the end.
theorem ofDocument_reaches {Reached : Narration → List Placed → Prop} {statements : List Placed}
    {batching : Batching} {narration : Narration}
    (graph : ∀ placed ∈ statements, placed.statement.ofGraph = true)
    (step : ∀ placed ∈ statements, ∀ before one other, Tallied one before → Reached one before →
      one.tell placed = .ok other → Reached other (before ++ [placed]))
    (start : Reached (opening ⟨.dot, statements⟩ batching) [])
    (told : ofDocument ⟨.dot, statements⟩ batching = .ok narration) :
    ∃ last, Tallied last statements ∧ Reached last statements ∧ narration =
      { last with events := account statements last.graph.nodes.values last.graph.edges } := by
  obtain ⟨last, run, -, rfl⟩ := (ofDocument_ok_iff _ _ _).1 told
  obtain ⟨⟨tallied, quiet⟩, reached⟩ := tellAll_reaches
    (fun one before => (Tallied one before ∧ Quiet (opening ⟨.dot, statements⟩ batching) one) ∧ Reached one before)
    (fun placed member before one other kept one_ =>
      have moves := tell_held kept.1.1.held (graph placed member) one_
      ⟨⟨tell_tallied kept.1.1 (graph placed member) one_, kept.1.2.trans moves.quiet⟩,
        step placed member before one other kept.1.1 kept.2 one_⟩)
    ⟨⟨opening_tallied _ batching, .refl _⟩, start⟩ run
  refine ⟨last, tallied, reached, ?_⟩
  have format : last.format = .dot := quiet.format
  have whole : last.batching = .diagram := quiet.batching
  have events : last.events = .batchStart :: (Hint.ofStatements statements).toList := quiet.events
  simp [heldBack, account, format, whole, events]

end Narration
end DiagramStream
