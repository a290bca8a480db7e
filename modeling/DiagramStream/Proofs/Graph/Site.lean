import DiagramStream.Proofs.Graph.Step

/-!
Where in a graph the next statement stands: the scopes around it, what they are joined by, and whether the
graph is over. Main statements: the site alone decides whether a statement is refused, and with which
failure; every other statement moves the site and nothing else that decides.
-/

namespace DiagramStream

-- The innermost scope comes first, each with the line that opened it.
structure Site where
  scopes : List (ScopeKind × Int)
  directed : Bool
  closed : Bool
deriving DecidableEq

namespace Site

def start : Site := ⟨[], true, false⟩

-- The first operator that the graph does not allow.
def misfit? (site : Site) (operators : List String) (line : Int) : Option Failure :=
  (operators.find? (· ≠ edgeOperator site.directed)).map fun operator => .wrongOperator operator site.directed line

-- What is wrong with a statement at this site. The brace that closes the graph can be the end of no edge,
-- whatever its operators.
def fault? (site : Site) (placed : Placed) : Option Failure :=
  let place := placed.position
  match placed.statement, site.scopes with
  | .graphOpen .., [] => if site.closed then some (.secondGraph place) else none
  | .graphOpen .., _ :: _ => some (.secondGraph place)
  | .scopeClose .., [] => some (.nothingToClose "\x7d" place.line)
  | .scopeClose _ operators _, [_] => if operators = [] then none else some (.rootEdge place)
  | .scopeClose _ operators _, _ :: _ :: _ => site.misfit? operators place.line
  | .edgeStatement _ operators _, _ :: _ => site.misfit? operators place.line
  | statement, [] => some (.outsideGraph statement.name place)
  | _, _ :: _ => none

def after (site : Site) (placed : Placed) : Site :=
  match placed.statement with
  | .graphOpen directed _ _ =>
    { site with scopes := (.graph, placed.position.line) :: site.scopes, directed := directed }
  | .subgraphOpen _ => { site with scopes := (.subgraph, placed.position.line) :: site.scopes }
  | .scopeClose .. => { site with scopes := site.scopes.tail, closed := site.closed || site.scopes.tail.isEmpty }
  | _ => site

theorem checkOperators_eq (operators : List String) (site : Site) (line : Int) :
    checkOperators operators site.directed line =
      match site.misfit? operators line with
      | some failure => .error failure
      | none => .ok () := by
  induction operators with
  | nil => rfl
  | cons operator rest ih =>
    by_cases fits : operator = edgeOperator site.directed
    · simpa [checkOperators, checkOperator, misfit?, fits] using ih
    · simp [checkOperators, checkOperator, misfit?, fits]

theorem checkOperators_fit {site : Site} {operators : List String} {line : Int}
    (fits : site.misfit? operators line = none) : checkOperators operators site.directed line = .ok () := by
  rw [checkOperators_eq, fits]

theorem checkOperators_unfit {site : Site} {operators : List String} {line : Int} {failure : Failure}
    (unfit : site.misfit? operators line = some failure) :
    checkOperators operators site.directed line = .error failure := by
  rw [checkOperators_eq, unfit]

theorem misfit?_line {site : Site} {operators : List String} {line : Int} {failure : Failure}
    (unfit : site.misfit? operators line = some failure) : failure.line? = some line := by
  obtain ⟨operator, -, rfl⟩ := Option.map_eq_some_iff.1 unfit
  rfl

-- Whatever is wrong with a statement is reported at its own line.
theorem fault?_line {site : Site} {placed : Placed} {failure : Failure} (fault : site.fault? placed = some failure) :
    failure.line? = some placed.position.line := by
  unfold fault? at fault
  dsimp only at fault
  split at fault
  all_goals try split at fault
  all_goals first
    | exact misfit?_line fault
    | (cases fault <;> rfl)

end Site

-- What else a statement needs: a level that can be read, and a first end.
def Statement.Sayable : Statement → Prop
  | .nodeStatement _ attrs => ∃ own, Narration.ownAttrs attrs = .ok own
  | .edgeStatement endpoints _ _ => endpoints ≠ []
  | _ => True

theorem Statement.Sayable.hasEnd {statement : Statement} (sayable : statement.Sayable) : statement.hasEnd = true := by
  cases statement with
  | edgeStatement endpoints operators attrs =>
    cases endpoints with
    | nil => exact absurd rfl sayable
    | cons first rest => rfl
  | _ => rfl

namespace Narration

def site (narration : Narration) : Site := ⟨narration.outline, narration.graph.directed, narration.graph.closed⟩

theorem Stays.site {before after : Narration} (stays : Stays before after) : after.site = before.site := by
  simp [Narration.site, stays.outline, stays.directed, stays.closed]

-- What an accepted statement leads to.
structure Moves (before : Narration) (placed : Placed) (after : Narration) : Prop where
  held : Held after
  quiet : Quiet before after
  site : after.site = before.site.after placed

theorem requireBody_eq (narration : Narration) (statement : String) (place : Text.Position) :
    narration.requireBody statement place =
      match narration.outline with
      | [] => .error (.outsideGraph statement place)
      | _ :: _ => .ok () := by
  unfold requireBody Nesting.depth outline
  cases narration.nesting.frames <;> rfl

theorem leave_eq {narration : Narration} (held : Held narration) {top : Frame} {outer : List Frame}
    (frames : narration.nesting.frames = top :: outer) (closer : String) (line : Int) :
    narration.nesting.leave closer ScopeKind.isGraph line =
      .ok ({ narration.nesting with frames := Nesting.carry top.members outer }, top) := by
  have graph := held.scopes top (frames ▸ List.mem_cons_self ..)
  simp [Nesting.leave, Nesting.split, frames, graph]

-- The site of a narration with its frames known.
theorem outline_nil {narration : Narration} (frames : narration.nesting.frames = []) : narration.outline = [] := by
  simp [outline, frames]

theorem outline_cons {narration : Narration} {top : Frame} {outer : List Frame}
    (frames : narration.nesting.frames = top :: outer) :
    narration.outline = (top.kind, top.line) :: outer.map fun frame => (frame.kind, frame.line) := by
  simp [outline, frames]

theorem scopeClose_refused {narration : Narration} (held : Held narration) {position : Text.Position}
    {endpoints : List (List NodeRef)} {operators : List String} {attrs : Attrs} {failure : Failure}
    (fault : narration.site.fault? ⟨position, .scopeClose endpoints operators attrs⟩ = some failure) :
    narration.scopeClose endpoints operators attrs position = .error failure := by
  cases frames : narration.nesting.frames with
  | nil =>
    simp [site, outline, frames, Site.fault?] at fault
    simp [scopeClose, Nesting.leave, Nesting.split, frames, fault]
  | cons top outer =>
    simp only [scopeClose, leave_eq held frames]
    cases outer with
    | nil =>
      by_cases bare : operators = []
      · simp [site, outline, frames, Site.fault?, bare] at fault
      · simp [site, outline, frames, Site.fault?, bare] at fault
        simp [Nesting.depth, Nesting.carry, bare, fault]
    | cons next rest =>
      have unfit : narration.site.misfit? operators position.line = some failure := by
        simpa [site, outline, frames, Site.fault?] using fault
      have some_ : operators ≠ [] := by rintro rfl; cases unfit
      simp [Nesting.depth, Nesting.carry, some_]
      exact chain_refused _ _ _ _ (Site.checkOperators_unfit unfit)

theorem scopeClose_accepted {narration : Narration} (held : Held narration) {position : Text.Position}
    {endpoints : List (List NodeRef)} {operators : List String} {attrs : Attrs}
    (fine : narration.site.fault? ⟨position, .scopeClose endpoints operators attrs⟩ = none) :
    ∃ next, narration.scopeClose endpoints operators attrs position = .ok next ∧
      Moves narration ⟨position, .scopeClose endpoints operators attrs⟩ next := by
  cases frames : narration.nesting.frames with
  | nil => simp [site, outline, frames, Site.fault?] at fine
  | cons top outer =>
    obtain ⟨after, outline⟩ := leave_held held frames
    simp only [scopeClose, leave_eq held frames]
    cases outer with
    | nil =>
      have bare : operators = [] := by
        by_cases bare : operators = []
        · exact bare
        · simp [site, Narration.outline, frames, Site.fault?, bare] at fine
      subst bare
      refine ⟨_, rfl, ⟨after.sound, after.keys, after.own, after.scopes, after.members, ?_⟩, ⟨rfl, rfl, rfl⟩, ?_⟩
      · exact ⟨after.joins.ends, after.joins.unnumbered, after.joins.ids⟩
      · simp [site, Narration.outline, frames, Nesting.carry, Site.after]
    | cons next rest =>
      have fits : narration.site.misfit? operators position.line = none := by
        simpa [site, Narration.outline, frames, Site.fault?] using fine
      have moved : ({ narration with
          nesting := { narration.nesting with frames := Nesting.carry top.members (next :: rest) } } :
            Narration).site = narration.site.after ⟨position, .scopeClose endpoints operators attrs⟩ := by
        simp [site, outline, Narration.outline_cons frames, Site.after]
      by_cases bare : operators = []
      · simp only [bare, List.isEmpty_nil, if_true]
        exact ⟨_, rfl, after, ⟨rfl, rfl, rfl⟩, by simpa [bare] using moved⟩
      · have listed : ∀ one ∈ top.members.map fun id => ((id, ⟨id, none⟩) : EdgeEnd),
            one.1 ∈ narration.graph.nodes.keys := by
          intro one member
          obtain ⟨id, inside, rfl⟩ := List.mem_map.1 member
          exact held.members top (frames ▸ List.mem_cons_self ..) id inside
        obtain ⟨last, told, stays⟩ := chain_stays after listed endpoints attrs (Site.checkOperators_fit fits)
        simp only [Nesting.depth, Nesting.carry, List.length_cons, Nat.add_eq_zero_iff, Nat.one_ne_zero, and_false,
          if_false, List.isEmpty_iff, bare]
        exact ⟨last, told, stays.held, ⟨stays.quiet.format, stays.quiet.batching, stays.quiet.events⟩,
          stays.site.trans moved⟩

theorem tell_refused {narration : Narration} (held : Held narration) {placed : Placed}
    (graph : placed.statement.ofGraph = true) (ends : placed.statement.hasEnd = true) {failure : Failure}
    (fault : narration.site.fault? placed = some failure) : narration.tell placed = .error failure := by
  obtain ⟨position, statement⟩ := placed
  cases statement with
  | scopeClose endpoints operators attrs => exact scopeClose_refused held fault
  | graphOpen directed strict name =>
    cases frames : narration.nesting.frames with
    | nil =>
      have ended : narration.graph.closed = true ∧ .secondGraph position = failure := by
        simpa [site, outline, frames, Site.fault?] using fault
      simp [tell, graphOpen, ended]
    | cons top outer =>
      have second : .secondGraph position = failure := by
        simpa [site, outline, frames, Site.fault?] using fault
      simp [tell, graphOpen, Nesting.depth, frames, second]
  | edgeStatement endpoints operators attrs =>
    simp only [tell, requireBody_eq]
    cases scopes : narration.outline with
    | nil =>
      simp only [site, scopes, Site.fault?, Option.some.injEq] at fault
      simp [fault]
    | cons top outer =>
      have unfit : narration.site.misfit? operators position.line = some failure := by
        simpa [site, scopes, Site.fault?] using fault
      cases endpoints with
      | nil => cases ends
      | cons first rest =>
        obtain ⟨refers, _⟩ := edgeEnds_refers held first
        exact chain_refused _ _ _ _ (by rw [refers.stays.directed]; exact Site.checkOperators_unfit unfit)
  | subgraphOpen name | nodeStatement node attrs | attrStatement target attrs | assignment key value =>
    simp only [tell, requireBody_eq]
    cases scopes : narration.outline with
    | nil =>
      simp only [site, scopes, Site.fault?, Option.some.injEq] at fault
      simp [fault]
    | cons top outer => simp [site, scopes, Site.fault?] at fault
  | _ => cases graph

theorem Refers.moves {before after : Narration} (refers : Refers before after) {placed : Placed}
    (still : ∀ site : Site, site.after placed = site) : Moves before placed after :=
  ⟨refers.held, refers.quiet, refers.stays.site.trans (still _).symm⟩

-- Only the outermost opener can be said outside of every scope.
theorem body_of_fine {narration : Narration} {placed : Placed}
    (later : ∀ directed strict name, placed.statement ≠ .graphOpen directed strict name)
    (fine : narration.site.fault? placed = none) : ∃ top outer, narration.outline = top :: outer := by
  cases scopes : narration.outline with
  | cons top outer => exact ⟨top, outer, rfl⟩
  | nil =>
    obtain ⟨position, statement⟩ := placed
    cases statement with
    | graphOpen directed strict name => exact absurd rfl (later directed strict name)
    | _ => simp [site, scopes, Site.fault?] at fine

theorem graphOpen_accepted {narration : Narration} (held : Held narration) {position : Text.Position}
    {directed strict : Bool} {name : Option String}
    (fine : narration.site.fault? ⟨position, .graphOpen directed strict name⟩ = none) :
    ∃ next, narration.tell ⟨position, .graphOpen directed strict name⟩ = .ok next ∧
      Moves narration ⟨position, .graphOpen directed strict name⟩ next := by
  cases frames : narration.nesting.frames with
  | nil =>
    have begun : narration.graph.closed = false := by
      simpa [site, outline, frames, Site.fault?] using fine
    obtain ⟨after, outline⟩ := enter_held held .graph rfl name position.line
    simp only [tell, graphOpen, begun, Nesting.depth, frames, Bool.false_or, List.length_nil, ne_eq, not_true,
      decide_false, Bool.false_eq_true, if_false]
    refine ⟨_, rfl, ⟨after.sound, after.keys, after.own, after.scopes, after.members, ?_⟩, ⟨rfl, rfl, rfl⟩, ?_⟩
    · exact ⟨after.joins.ends, after.joins.unnumbered, after.joins.ids⟩
    · simp [site, Narration.outline, Nesting.enter, frames, begun, Site.after]
  | cons top outer => simp [site, outline, frames, Site.fault?] at fine

theorem edgeStatement_accepted {narration : Narration} (held : Held narration) {position : Text.Position}
    {endpoints : List (List NodeRef)} {operators : List String} {attrs : Attrs}
    (sayable : (Statement.edgeStatement endpoints operators attrs).Sayable)
    (fine : narration.site.fault? ⟨position, .edgeStatement endpoints operators attrs⟩ = none) :
    ∃ next, narration.tell ⟨position, .edgeStatement endpoints operators attrs⟩ = .ok next ∧
      Moves narration ⟨position, .edgeStatement endpoints operators attrs⟩ next := by
  cases scopes : narration.outline with
  | nil => simp [site, scopes, Site.fault?] at fine
  | cons top outer =>
    have fits : narration.site.misfit? operators position.line = none := by
      simpa [site, scopes, Site.fault?] using fine
    simp only [tell, requireBody_eq, scopes]
    cases endpoints with
    | nil => exact absurd rfl sayable
    | cons first rest =>
      obtain ⟨refers, listed⟩ := edgeEnds_refers held first
      have fit : checkOperators operators (narration.edgeEnds first).2.graph.directed position.line = .ok () := by
        rw [refers.stays.directed]
        exact Site.checkOperators_fit fits
      obtain ⟨next, told, stays⟩ := chain_stays refers.held listed rest attrs fit
      exact ⟨next, told, stays.held, refers.quiet.trans stays.quiet, stays.site.trans refers.stays.site⟩

theorem tell_accepted {narration : Narration} (held : Held narration) {placed : Placed}
    (graph : placed.statement.ofGraph = true) (sayable : placed.statement.Sayable)
    (fine : narration.site.fault? placed = none) :
    ∃ next, narration.tell placed = .ok next ∧ Moves narration placed next := by
  obtain ⟨position, statement⟩ := placed
  cases statement with
  | scopeClose endpoints operators attrs => exact scopeClose_accepted held fine
  | graphOpen directed strict name => exact graphOpen_accepted held fine
  | edgeStatement endpoints operators attrs => exact edgeStatement_accepted held sayable fine
  | subgraphOpen name =>
    obtain ⟨top, outer, scopes⟩ := body_of_fine (by simp) fine
    obtain ⟨after, outline⟩ := enter_held held .subgraph rfl name position.line
    simp only [tell, requireBody_eq, scopes]
    exact ⟨_, rfl, after, ⟨rfl, rfl, rfl⟩, by simp [subgraphOpen, site, outline, Site.after]⟩
  | nodeStatement node attrs =>
    obtain ⟨top, outer, scopes⟩ := body_of_fine (by simp) fine
    obtain ⟨own, readable⟩ := sayable
    obtain ⟨next, told, refers⟩ := nodeStatement_refers held node readable position.line
    simp only [tell, requireBody_eq, scopes]
    exact ⟨next, told, refers.moves fun _ => rfl⟩
  | attrStatement target attrs =>
    obtain ⟨top, outer, scopes⟩ := body_of_fine (by simp) fine
    simp only [tell, requireBody_eq, scopes]
    exact ⟨_, rfl, (setDefaults_refers held target attrs).moves fun _ => rfl⟩
  | assignment key value =>
    obtain ⟨top, outer, scopes⟩ := body_of_fine (by simp) fine
    simp only [tell, requireBody_eq, scopes]
    exact ⟨_, rfl, (assign_refers held key value).moves fun _ => rfl⟩
  | _ => cases graph

end Narration
end DiagramStream
