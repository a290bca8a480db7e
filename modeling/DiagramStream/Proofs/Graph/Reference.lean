import DiagramStream.Proofs.Nesting
import DiagramStream.Proofs.Graph.Reading

/-!
What an accepted statement of a graph does. Main statement: the names it refers to are mentioned one after the
other, each the id of its node, and nothing else but its edges and its scope changes.
-/

namespace DiagramStream

namespace Roster
variable {roster : Roster}

-- Nobody goes by a second name. A graph has no way to give one.
def Plain (roster : Roster) : Prop := ∀ name id, roster.id? name = some id → id = name

theorem empty_plain (defaultKind : String) : (empty defaultKind).Plain := by
  intro name id bound; cases bound

-- One more name, bound to itself.
theorem Plain.learn (plain : roster.Plain) {after : Roster} {name : String}
    (learns : ∀ other, after.id? other = if other = name then some name else roster.id? other) : after.Plain := by
  intro other id bound
  rw [learns] at bound
  split at bound
  · rename_i same
    exact (Option.some.inj bound).symm.trans same.symm
  · exact plain other id bound

theorem Plain.enroll (plain : roster.Plain) (name kind : String) (label : Option String) (attrs : Attrs)
    (explicit : Bool) : (roster.enroll name kind label attrs explicit).2.Plain :=
  plain.learn fun other => enroll_id? roster name other kind label attrs explicit

theorem Plain.bind (plain : roster.Plain) (name : String) : (roster.bind name name).Plain :=
  plain.learn fun other => bind_id? roster name other name

theorem Plain.mention (sound : roster.Sound) (plain : roster.Plain) (name : String) (attrs : Attrs) :
    (roster.mention name attrs).id = name ∧ (roster.mention name attrs).roster.Plain := by
  cases bound : roster.id? name with
  | none =>
    rw [mention_new bound]
    exact ⟨rfl, plain.enroll name roster.defaultKind none attrs false⟩
  | some id =>
    rw [mention_known sound bound]
    exact ⟨plain name id bound, plain⟩

theorem Plain.declare (sound : roster.Sound) (plain : roster.Plain) {said : Declaration}
    (single : said.otherName = none) :
    (roster.declare said).id = said.name ∧ (roster.declare said).roster.Plain := by
  cases bound : roster.id? said.name with
  | none =>
    have nobody : roster.subject? said = none := by simp [subject?, bound, single, given]
    simp only [Roster.declare, nobody, single]
    exact ⟨trivial, plain.enroll said.name ((given said.kind).getD roster.defaultKind) said.label said.attrs true⟩
  | some id =>
    obtain ⟨member, found, own⟩ := sound.member bound
    have subject : roster.subject? said = some member := by simp [subject?, bound, found]
    have same : member.node.id = said.name := own.trans (plain said.name id bound)
    simp only [Roster.declare, subject, single, same]
    have revised : Plain { roster with
        members := roster.members.set said.name
          { member with node := (revise member.node said).node, explicit := true }
        notices := roster.notices ++ ((conflict? member said).map Notice.redeclared).toList } := plain
    exact ⟨trivial, revised.bind said.name⟩

-- Members stand in the order in which they were first referred to.
theorem Grows.seen {id : String} {created : Option Member} {after : Roster} (grows : Grows roster id created after)
    {seen : List String} (keys : roster.members.keys = seen.eraseDups) :
    after.members.keys = (seen ++ [id]).eraseDups := by
  have listed := grows.listed
  rw [eraseDups_concat, grows.keys, keys]
  cases created with
  | none =>
    rw [grows.keys, keys] at listed
    have known : id ∈ seen := List.mem_eraseDups.1 (by simpa using listed)
    simp [known]
  | some member =>
    obtain ⟨same, fresh⟩ := grows.fresh member rfl
    have new : id ∉ seen := fun known => fresh (keys ▸ List.mem_eraseDups.2 known)
    simp [new, same]

end Roster

theorem addMember_members {frame : Frame} {seen : List String} (members : frame.members = seen.eraseDups)
    (id : String) : (frame.addMember id).members = (seen ++ [id]).eraseDups := by
  rw [eraseDups_concat]
  unfold Frame.addMember
  by_cases known : id ∈ seen <;> simp [members, known, List.mem_eraseDups]

theorem addMembers_members {frame : Frame} {seen : List String} (members : frame.members = seen.eraseDups)
    (ids : List String) : (frame.addMembers ids).members = (seen ++ ids).eraseDups := by
  unfold Frame.addMembers
  induction ids generalizing frame seen with
  | nil => simpa using members
  | cons id rest ih => simpa using ih (addMember_members members id)

theorem carry_carry (earlier later : List String) (frames : List Frame) :
    Nesting.carry later (Nesting.carry earlier frames) = Nesting.carry (earlier ++ later) frames := by
  cases frames with
  | nil => rfl
  | cons frame rest => simp [Nesting.carry, Frame.addMembers]

theorem carry_nil (frames : List Frame) : Nesting.carry [] frames = frames := by
  cases frames <;> rfl

namespace Narration

theorem addMember_frames (narration : Narration) (id : String) :
    (narration.addMember id).nesting.frames = Nesting.carry [id] narration.nesting.frames := by
  unfold Narration.addMember Nesting.addMember Nesting.update
  cases frames : narration.nesting.frames with
  | nil => exact frames
  | cons top outer => rfl

-- Nodes were referred to by these names, one after the other.
structure Referred (before : Narration) (names : List String) (after : Narration) : Prop where
  refers : Refers before after
  plain : after.roster.Plain
  keys : ∀ seen : List String, before.roster.members.keys = seen.eraseDups →
    after.roster.members.keys = (seen ++ names).eraseDups
  frames : after.nesting.frames = Nesting.carry names before.nesting.frames

theorem Referred.refl {narration : Narration} (held : Held narration) (plain : narration.roster.Plain) :
    Referred narration [] narration :=
  ⟨.refl held, plain, fun seen keys => by simpa using keys, (carry_nil _).symm⟩

theorem Referred.trans {first second third : Narration} {earlier later : List String}
    (one : Referred first earlier second) (other : Referred second later third) :
    Referred first (earlier ++ later) third := by
  refine ⟨one.refers.trans other.refers, other.plain, ?_, ?_⟩
  · intro seen keys
    rw [← List.append_assoc]
    exact other.keys _ (one.keys seen keys)
  · rw [other.frames, one.frames, carry_carry]

theorem graphNode_referred {narration : Narration} (held : Held narration) (plain : narration.roster.Plain)
    (name : String) :
    (narration.graphNode name).1 = name ∧ Referred narration [name] (narration.graphNode name).2 := by
  obtain ⟨id, after⟩ := Roster.Plain.mention held.sound plain name narration.nesting.nodeAttrs
  have grows := Roster.mention_grows held.sound name narration.nesting.nodeAttrs
  refine ⟨id, (graphNode_refers held name).1, ?_, ?_, ?_⟩
  all_goals rw [graphNode_eq]
  · unfold received
    split <;> exact after
  · intro seen keys
    have later := grows.seen keys
    rw [id] at later
    unfold received
    split <;> exact later
  · rw [addMember_frames, id]
    unfold received
    split <;> rfl

-- All names that a statement refers to, before anything else is done.
def mentionAll (narration : Narration) (names : List String) : Narration :=
  names.foldl (fun narration name => (narration.graphNode name).2) narration

theorem mentionAll_append (narration : Narration) (earlier later : List String) :
    narration.mentionAll (earlier ++ later) = (narration.mentionAll earlier).mentionAll later := List.foldl_append ..

theorem mentionAll_referred {narration : Narration} (held : Held narration) (plain : narration.roster.Plain)
    (names : List String) : Referred narration names (narration.mentionAll names) := by
  induction names generalizing narration with
  | nil => exact .refl held plain
  | cons name rest ih =>
    obtain ⟨-, first⟩ := graphNode_referred held plain name
    exact first.trans (ih first.refers.held first.plain)

-- How a reference is kept until its edges are drawn.
def endOf (ref : NodeRef) : EdgeEnd := (ref.name, ref)

theorem edgeEnds_eq {narration : Narration} (held : Held narration) (plain : narration.roster.Plain)
    (refs : List NodeRef) :
    narration.edgeEnds refs = (refs.map endOf, narration.mentionAll (refs.map NodeRef.name)) := by
  induction refs generalizing narration with
  | nil => rfl
  | cons ref rest ih =>
    obtain ⟨id, first⟩ := graphNode_referred held plain ref.name
    simp only [edgeEnds, ih first.refers.held first.plain, id]
    rfl

theorem edgeEndGroups_eq {narration : Narration} (held : Held narration) (plain : narration.roster.Plain)
    (groups : List (List NodeRef)) :
    narration.edgeEndGroups groups =
      (groups.map (·.map endOf), narration.mentionAll (groups.flatten.map NodeRef.name)) := by
  induction groups generalizing narration with
  | nil => rfl
  | cons group rest ih =>
    have first := mentionAll_referred held plain (group.map NodeRef.name)
    simp only [edgeEndGroups, edgeEnds_eq held plain, ih first.refers.held first.plain]
    simp [mentionAll_append]

-- The edges of a chain between groups of nodes that have all been mentioned.
def draw (narration : Narration) (groups : List (List NodeRef)) (attrs : Attrs) : Narration :=
  let said := narration.nesting.edgeAttrs.merge attrs
  let base := (said.erase "label").set "direction" (directionName narration.graph.directed)
  let add (graph : GraphPart) (pair : EdgeEnd × EdgeEnd) : GraphPart :=
    addEdge graph (said.get? "label") base pair.1 pair.2
  { narration with graph := (edgePairs (groups.map (·.map endOf))).foldl add narration.graph }

theorem chain_eq {narration : Narration} (held : Held narration) (plain : narration.roster.Plain)
    {heads : List NodeRef} {endpoints : List (List NodeRef)} {operators : List String} {attrs : Attrs} {line : Int}
    {after : Narration} (told : narration.chain (heads.map endOf) endpoints operators attrs line = .ok after) :
    after = (narration.mentionAll (endpoints.flatten.map NodeRef.name)).draw (heads :: endpoints) attrs := by
  unfold chain at told
  split at told
  · cases told
  · rw [edgeEndGroups_eq held plain] at told
    exact (Except.ok.inj told).symm

-- The scope around takes the place of the innermost one.
def left (narration : Narration) (top : Frame) (outer : List Frame) : Narration :=
  { narration with nesting := { narration.nesting with frames := Nesting.carry top.members outer } }

-- What a node statement declares.
def stated (narration : Narration) (node : NodeRef) (attrs own : Attrs) (line : Int) : Roster.Declaration :=
  let inherits := !narration.roster.knows node.name || 1 < narration.nesting.depth
  ⟨node.name, attrs.get? "type", attrs.get? "label", none,
    if inherits then narration.nesting.nodeAttrs.merge own else own, line⟩

-- What an accepted statement does, with what was true when it was accepted.
inductive Goes (narration : Narration) : Placed → Narration → Prop where
  | begins (place : Text.Position) (directed strict : Bool) (name : Option String) :
      narration.nesting.frames = [] →
      Goes narration ⟨place, .graphOpen directed strict name⟩
        { narration with
          graph := { narration.graph with directed := directed, strict := strict }
          nesting := (narration.nesting.enter .graph name place.line).1 }
  | enters (place : Text.Position) (name : Option String) : narration.nesting.frames ≠ [] →
      Goes narration ⟨place, .subgraphOpen name⟩ (narration.subgraphOpen name place)
  | ends (place : Text.Position) (endpoints : List (List NodeRef)) (attrs : Attrs) (top : Frame) :
      narration.nesting.frames = [top] →
      Goes narration ⟨place, .scopeClose endpoints [] attrs⟩
        { narration.left top [] with graph := { narration.graph with closed := true } }
  | leaves (place : Text.Position) (endpoints : List (List NodeRef)) (attrs : Attrs) (top : Frame)
      (outer : List Frame) : narration.nesting.frames = top :: outer →
      Goes narration ⟨place, .scopeClose endpoints [] attrs⟩ (narration.left top outer)
  | continues (place : Text.Position) (endpoints : List (List NodeRef)) (operators : List String) (attrs : Attrs)
      (top : Frame) (outer : List Frame) : narration.nesting.frames = top :: outer → operators.isEmpty = false →
      Goes narration ⟨place, .scopeClose endpoints operators attrs⟩
        (((narration.left top outer).mentionAll (endpoints.flatten.map NodeRef.name)).draw
          ((top.members.map fun id => ⟨id, none⟩) :: endpoints) attrs)
  | joins (place : Text.Position) (endpoints : List (List NodeRef)) (operators : List String) (attrs : Attrs) :
      narration.nesting.frames ≠ [] →
      Goes narration ⟨place, .edgeStatement endpoints operators attrs⟩
        ((narration.mentionAll (endpoints.flatten.map NodeRef.name)).draw endpoints attrs)
  | states (place : Text.Position) (node : NodeRef) (attrs own : Attrs) (after : Narration) :
      narration.nesting.frames ≠ [] → ownAttrs attrs = .ok own →
      narration.declared (narration.roster.declare (narration.stated node attrs own place.line)) = .ok after →
      Goes narration ⟨place, .nodeStatement node attrs⟩ after
  | sets (place : Text.Position) (target : String) (attrs : Attrs) : narration.nesting.frames ≠ [] →
      Goes narration ⟨place, .attrStatement target attrs⟩ (narration.setDefaults target attrs)
  | assigns (place : Text.Position) (key value : String) : narration.nesting.frames ≠ [] →
      Goes narration ⟨place, .assignment key value⟩ (narration.assign key value)

theorem scopeClose_goes {narration after : Narration} (held : Held narration) (plain : narration.roster.Plain)
    {place : Text.Position} {endpoints : List (List NodeRef)} {operators : List String} {attrs : Attrs}
    (told : narration.scopeClose endpoints operators attrs place = .ok after) :
    Goes narration ⟨place, .scopeClose endpoints operators attrs⟩ after := by
  cases frames : narration.nesting.frames with
  | nil => simp [scopeClose, Nesting.leave, Nesting.split, frames] at told
  | cons top outer =>
    simp only [scopeClose, leave_eq held frames] at told
    split at told
    · rename_i outermost
      have last : outer = [] := by
        cases outer with
        | nil => rfl
        | cons next rest => simp [Nesting.depth, Nesting.carry] at outermost
      subst last
      split at told
      · rename_i bare
        cases List.isEmpty_iff.1 bare
        cases told
        exact .ends place endpoints attrs top frames
      · cases told
    · split at told
      · rename_i bare
        cases List.isEmpty_iff.1 bare
        cases told
        exact .leaves place endpoints attrs top outer frames
      · rename_i some_
        have members : (top.members.map fun id => ((id, ⟨id, none⟩) : EdgeEnd)) =
            (top.members.map fun id => (⟨id, none⟩ : NodeRef)).map endOf := by simp [endOf]
        rw [members] at told
        rw [chain_eq (leave_held held frames).1 plain told]
        exact .continues place endpoints operators attrs top outer frames (by simpa using some_)

theorem edgeStatement_goes {narration after : Narration} (held : Held narration) (plain : narration.roster.Plain)
    (body : narration.nesting.frames ≠ []) (place : Text.Position) {endpoints : List (List NodeRef)}
    {operators : List String} {attrs : Attrs}
    (told : narration.edgeStatement endpoints operators attrs place.line = .ok after) :
    Goes narration ⟨place, .edgeStatement endpoints operators attrs⟩ after := by
  cases endpoints with
  | nil => cases told
  | cons first rest =>
    have heads := mentionAll_referred held plain (first.map NodeRef.name)
    simp only [edgeStatement, edgeEnds_eq held plain] at told
    rw [chain_eq heads.refers.held heads.plain told, ← mentionAll_append, ← List.map_append]
    exact .joins place (first :: rest) operators attrs body

theorem body_of_told {narration after : Narration} {statement : String} {place : Text.Position}
    {proceed : Except Failure Narration}
    (told : (match narration.requireBody statement place with
      | .error failure => Except.error failure
      | .ok () => proceed) = .ok after) : narration.nesting.frames ≠ [] ∧ proceed = .ok after := by
  unfold requireBody Nesting.depth at told
  cases frames : narration.nesting.frames with
  | nil => simp [frames] at told
  | cons top outer => exact ⟨by simp, by simpa [frames] using told⟩

theorem tell_goes {narration after : Narration} (held : Held narration) (plain : narration.roster.Plain)
    {placed : Placed} (graph : placed.statement.ofGraph = true) (told : narration.tell placed = .ok after) :
    Goes narration placed after := by
  obtain ⟨place, statement⟩ := placed
  cases statement with
  | graphOpen directed strict name =>
    simp only [tell, graphOpen] at told
    split at told
    · cases told
    · rename_i alone
      cases told
      refine .begins place directed strict name ?_
      have alone : narration.graph.closed = false ∧ narration.nesting.depth = 0 := by simpa using alone
      exact List.length_eq_zero_iff.1 alone.2
  | scopeClose endpoints operators attrs => exact scopeClose_goes held plain told
  | subgraphOpen name =>
    obtain ⟨body, told⟩ := body_of_told told
    cases told
    exact .enters place name body
  | nodeStatement node attrs =>
    obtain ⟨body, told⟩ := body_of_told told
    unfold nodeStatement at told
    split at told
    · cases told
    · rename_i own readable
      exact .states place node attrs own after body readable told
  | edgeStatement endpoints operators attrs =>
    obtain ⟨body, told⟩ := body_of_told told
    exact edgeStatement_goes held plain body place told
  | attrStatement target attrs =>
    obtain ⟨body, told⟩ := body_of_told told
    cases told
    exact .sets place target attrs body
  | assignment key value =>
    obtain ⟨body, told⟩ := body_of_told told
    cases told
    exact .assigns place key value body
  | _ => cases graph

end Narration
end DiagramStream
