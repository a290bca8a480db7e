import DiagramStream.Proofs.Graph.InOrder

/-!
The layout of a graph, which is looked for before the first statement is told. Main statement: what is looked for agrees
with what is told, as the hint is the one that the attributes of the root ask for where the root is closed.
-/

namespace DiagramStream
open Text

-- What the outermost frame holds. Where none is open it is what a graph begins with.
def rootOf (frames : List Frame) : Attrs := (frames.map Frame.attrs).getLast?.getD Table.empty

theorem rootOf_carry (ids : List String) (frames : List Frame) : rootOf (Nesting.carry ids frames) = rootOf frames := by
  cases frames with
  | nil => rfl
  | cons frame rest =>
    rw [Nesting.carry, addMembers_eq]
    rfl

theorem rootOf_cons (frame : Frame) {outer : List Frame} (some_ : outer ≠ []) :
    rootOf (frame :: outer) = rootOf outer := by
  obtain ⟨next, rest, rfl⟩ := List.exists_cons_of_ne_nil some_
  simp [rootOf, List.getLast?_cons]

theorem rootOf_enter (nesting : Nesting) (kind : ScopeKind) (label : Option String) (line : Int) :
    rootOf (nesting.enter kind label line).1.frames = rootOf nesting.frames := by
  unfold Nesting.enter
  cases nesting.frames with
  | nil => rfl
  | cons top outer => exact rootOf_cons _ (by simp)

@[simp] theorem Nesting.depth_enter (nesting : Nesting) (kind : ScopeKind) (label : Option String) (line : Int) :
    (nesting.enter kind label line).1.depth = nesting.depth + 1 := rfl

namespace Hint

-- The program that lays the graph out, if one is asked for by name.
def engine? (root : Attrs) : Option String := Roster.given (root.get? "layout")

-- A hint that a root asks for. What has no meaning falls back on the defaults.
structure Follows (root : Attrs) (hint : LayoutHint) : Prop where
  layout : match engine? root with
    | none => hint.1 = .hierarchical
    | some engine => (lower engine, hint.1) ∈ engines ∨
        hint.1 = .hierarchical ∧ ∀ known ∈ engines, known.1 ≠ lower engine
  direction : match root.get? "rankdir" with
    | none => hint.2.1 = .topToBottom
    | some rankdir => hint.2.1.name = upper rankdir ∨
        hint.2.1 = .topToBottom ∧ ∀ direction : Direction, direction.name ≠ upper rankdir
  attrs : ∀ key, hint.2.2.get? key =
    if key = "engine" then (engine? root).or (root.get? key)
    else if key = "layout" ∨ key = "rankdir" then none
    else root.get? key

theorem engineLayout_known (engine : String) :
    (lower engine, engineLayout engine) ∈ engines ∨
      engineLayout engine = .hierarchical ∧ ∀ known ∈ engines, known.1 ≠ lower engine := by
  unfold engineLayout
  cases found : Table.find? (lower engine) engines with
  | some layout => exact .inl (Table.mem_of_find? found)
  | none =>
    refine .inr ⟨rfl, ?_⟩
    intro known member same
    have listed : lower engine ∈ Table.keysOf engines := same ▸ List.mem_map_of_mem member
    obtain ⟨layout, there⟩ := (Table.mem_keysOf_iff _ _).1 listed
    cases found.symm.trans there

theorem rankDirection_known (name : String) :
    (rankDirection name).name = upper name ∨
      rankDirection name = .topToBottom ∧ ∀ direction : Direction, direction.name ≠ upper name := by
  unfold rankDirection
  cases found : Direction.ofName? (upper name) with
  | some direction => exact .inl (by simpa using List.find?_some found)
  | none =>
    refine .inr ⟨rfl, ?_⟩
    intro direction same
    rw [← same, Direction.ofName?_name] at found
    cases found

-- A root that asks for nothing has no hint, any other has one.
theorem ofRoot_cases (root : Attrs) :
    ("rankdir" ∉ root.keys ∧ "layout" ∉ root.keys ∧ ofRoot root = none) ∨
      ("rankdir" ∈ root.keys ∨ "layout" ∈ root.keys) ∧
        ∃ hint, ofRoot root = some (.setLayout hint.1 hint.2.1 hint.2.2) ∧ Follows root hint := by
  by_cases asks : "rankdir" ∈ root.keys ∨ "layout" ∈ root.keys
  · refine .inr ⟨asks, (engineLayout ((engine? root).getD "dot"), rankDirection ((root.get? "rankdir").getD "TB"),
      match engine? root with
        | none => (root.erase "layout").erase "rankdir"
        | some engine => ((root.erase "layout").erase "rankdir").set "engine" engine), ?_, ?_, ?_, ?_⟩
    · unfold ofRoot
      split
      · rename_i layout rankdir
        rw [Table.get?_eq_none_iff] at layout rankdir
        exact absurd asks (not_or.2 ⟨rankdir, layout⟩)
      · rfl
    · cases engine? root with
      | none => rfl
      | some engine => exact engineLayout_known engine
    · cases root.get? "rankdir" with
      | none => rfl
      | some rankdir => exact rankDirection_known rankdir
    · intro key
      have rest : ((root.erase "layout").erase "rankdir").get? key =
          if key = "layout" ∨ key = "rankdir" then none else root.get? key := by
        rw [Table.get?_erase, Table.get?_erase]
        by_cases layout : key = "layout" <;> by_cases rankdir : key = "rankdir" <;> simp [layout, rankdir]
      cases engine? root with
      | none =>
        rw [rest, Option.none_or]
        by_cases engine : key = "engine" <;> simp [engine]
      | some engine => simp only [Table.get?_set, rest, Option.some_or]
  · obtain ⟨rankdir, layout⟩ := not_or.1 asks
    refine .inl ⟨rankdir, layout, ?_⟩
    unfold ofRoot
    rw [(Table.get?_eq_none_iff _ _).2 layout, (Table.get?_eq_none_iff _ _).2 rankdir]

end Hint

-- Where a write to the innermost frame can be seen from outside.
theorem rootOf_update {nesting : Nesting} {top : Frame} {outer : List Frame} (frames : nesting.frames = top :: outer)
    (change : Frame → Frame) :
    rootOf (nesting.update change).frames =
      if nesting.depth = 1 then (change top).attrs else rootOf nesting.frames := by
  simp only [Nesting.update, Nesting.depth, frames, List.length_cons]
  cases outer with
  | nil => simp [rootOf]
  | cons next rest => simp [rootOf]

theorem rootOf_one {nesting : Nesting} {top : Frame} {outer : List Frame} (frames : nesting.frames = top :: outer)
    (one : nesting.depth = 1) : rootOf nesting.frames = top.attrs := by
  have alone : outer = [] := by simpa [Nesting.depth, frames] using one
  simp [rootOf, frames, alone]

@[simp] theorem Nesting.depth_update (nesting : Nesting) (change : Frame → Frame) :
    (nesting.update change).depth = nesting.depth := by
  unfold Nesting.update Nesting.depth
  split
  · rfl
  · rename_i frames
    simp [frames]

namespace Narration

theorem rootAttrs_carry {narration : Narration} {frames : List Frame} {ids : List String}
    (carried : narration.nesting.frames = Nesting.carry ids frames) (rest : List Placed) :
    Hint.rootAttrs narration.nesting.depth (rootOf narration.nesting.frames) rest =
      Hint.rootAttrs frames.length (rootOf frames) rest := by
  rw [Nesting.depth, carried, rootOf_carry]
  cases frames <;> rfl

-- One step of the search against one step of the telling. It stops where the root is left.
theorem tell_scanned {narration after : Narration} {placed : Placed} (held : Held narration)
    (plain : narration.roster.Plain) (graph : placed.statement.ofGraph = true)
    (known : ∀ target attrs, placed.statement = .attrStatement target attrs →
      target = "graph" ∨ target = "node" ∨ target = "edge")
    (told : narration.tell placed = .ok after) (still : after.nesting.frames ≠ []) (rest : List Placed) :
    Hint.rootAttrs narration.nesting.depth (rootOf narration.nesting.frames) (placed :: rest) =
      Hint.rootAttrs after.nesting.depth (rootOf after.nesting.frames) rest := by
  -- A brace that leaves a scope inside the root.
  have leaves : ∀ {top : Frame} {outer : List Frame}, narration.nesting.frames = top :: outer → outer ≠ [] →
      ¬narration.nesting.depth ≤ 1 ∧ narration.nesting.depth - 1 = outer.length ∧
        rootOf narration.nesting.frames = rootOf outer := by
    intro top outer frames some_
    have length := List.length_pos_iff.2 some_
    rw [Nesting.depth, frames, rootOf_cons top some_, List.length_cons]
    exact ⟨by omega, by omega, rfl⟩
  cases tell_goes held plain graph told with
  | begins | enters => simp only [Hint.rootAttrs, subgraphOpen, Nesting.depth_enter, rootOf_enter]
  | ends place endpoints attrs top frames => exact absurd rfl still
  | leaves place endpoints attrs top outer frames =>
    have some_ : outer ≠ [] := by
      rintro rfl
      exact still rfl
    obtain ⟨inside, depth, root⟩ := leaves frames some_
    rw [rootAttrs_carry (show (narration.left top outer).nesting.frames = _ from rfl)]
    simp only [Hint.rootAttrs, if_neg inside, depth, root]
  | continues place endpoints operators attrs top outer frames bare =>
    have referred := mentionAll_referred (leave_held held frames).1 plain (endpoints.flatten.map NodeRef.name)
    have carried := (show _ = Nesting.carry _ _ from referred.frames).trans (carry_carry top.members _ outer)
    have some_ : outer ≠ [] := by
      rintro rfl
      exact still carried
    obtain ⟨inside, depth, root⟩ := leaves frames some_
    refine .trans ?_ (rootAttrs_carry carried rest).symm
    simp only [Hint.rootAttrs, if_neg inside, depth, root]
  | joins place endpoints operators attrs body =>
    have referred := mentionAll_referred held plain (endpoints.flatten.map NodeRef.name)
    exact (rootAttrs_carry referred.frames rest).symm
  | states place node attrs own after body readable told =>
    exact (rootAttrs_carry (declared_same told).2 rest).symm
  | sets place target attrs body =>
    obtain ⟨top, outer, frames⟩ := List.exists_cons_of_ne_nil body
    simp only [Hint.rootAttrs, setDefaults, Nesting.depth_update, rootOf_update frames, Bool.and_eq_true,
      decide_eq_true_eq]
    by_cases one : narration.nesting.depth = 1
    · rw [rootOf_one frames one]
      rcases known target attrs rfl with rfl | rfl | rfl <;> simp [one]
    · simp [one]
  | assigns place key value body =>
    obtain ⟨top, outer, frames⟩ := List.exists_cons_of_ne_nil body
    simp only [Hint.rootAttrs, assign, Nesting.depth_update, rootOf_update frames]
    by_cases one : narration.nesting.depth = 1
    · simp [one, rootOf_one frames one]
    · simp [one]

-- A run that the search has followed up to where it stands. Outside of the root it has nothing to follow.
structure Scanned (narration : Narration) (before : List Placed) : Prop where
  outside : narration.nesting.frames = [] → before = [] ∨ narration.graph.closed = true
  agrees : narration.nesting.frames ≠ [] ∨ before = [] → ∀ rest,
    Hint.rootAttrs 0 Table.empty (before ++ rest) =
      Hint.rootAttrs narration.nesting.depth (rootOf narration.nesting.frames) rest

theorem opening_scanned (document : Document) (batching : Batching) : Scanned (opening document batching) [] :=
  ⟨fun _ => .inl rfl, fun _ _ => rfl⟩

-- A graph that is over takes no more statements, so that one that is told begins it or stands inside.
theorem Scanned.inside {narration after : Narration} {before : List Placed} {placed : Placed}
    (scanned : Scanned narration before) (held : Held narration) (plain : narration.roster.Plain)
    (graph : placed.statement.ofGraph = true) (told : narration.tell placed = .ok after) :
    narration.nesting.frames ≠ [] ∨ before = [] := by
  by_cases frames : narration.nesting.frames = []
  · rcases scanned.outside frames with first | closed
    · exact .inr first
    · cases tell_goes held plain graph told with
      | begins => simp [tell, graphOpen, closed] at told
      | ends | leaves | continues => simp_all
      | enters | joins | states | sets | assigns => contradiction
  · exact .inl frames

-- Only the brace that closes the root leads out of every scope.
theorem tell_out {narration after : Narration} {placed : Placed} (held : Held narration)
    (plain : narration.roster.Plain) (graph : placed.statement.ofGraph = true)
    (told : narration.tell placed = .ok after) (out : after.nesting.frames = []) :
    (∃ endpoints operators attrs, placed.statement = .scopeClose endpoints operators attrs) ∧
      (∃ root, narration.nesting.frames = [root]) ∧ after.graph.closed = true := by
  have site : after.site = narration.site.after placed := (tell_held held graph told).site
  have scopes : (narration.site.after placed).scopes = [] := site ▸ outline_nil out
  have closed : after.graph.closed = (narration.site.after placed).closed := congrArg Site.closed site
  cases tell_goes held plain graph told with
  | begins | enters => cases scopes
  | ends place endpoints attrs top frames => exact ⟨⟨_, _, _, rfl⟩, ⟨top, frames⟩, rfl⟩
  | leaves place endpoints attrs top outer frames | continues place endpoints operators attrs top outer frames =>
    have alone : outer = [] := by simpa [Site.after, Narration.site, outline_cons frames] using scopes
    subst alone
    exact ⟨⟨_, _, _, rfl⟩, ⟨top, frames⟩, by simpa [Site.after, Narration.site, outline_cons frames] using closed⟩
  | joins | states | sets | assigns => exact absurd (List.map_eq_nil_iff.1 scopes) ‹_›

theorem Scanned.tell {narration after : Narration} {before : List Placed} {placed : Placed}
    (scanned : Scanned narration before) (held : Held narration) (plain : narration.roster.Plain)
    (graph : placed.statement.ofGraph = true)
    (known : ∀ target attrs, placed.statement = .attrStatement target attrs →
      target = "graph" ∨ target = "node" ∨ target = "edge")
    (told : narration.tell placed = .ok after) : Scanned after (before ++ [placed]) := by
  refine ⟨fun out => .inr (tell_out held plain graph told out).2.2, ?_⟩
  rintro (still | none) rest
  · rw [List.append_assoc, List.singleton_append, scanned.agrees (scanned.inside held plain graph told)]
    exact tell_scanned held plain graph known told still rest
  · simp at none

-- A document that is told ends with the brace of its root, whose attributes the search has found.
theorem tellAll_closes {statements : List Placed} {batching : Batching} {last : Narration}
    (graph : ∀ placed ∈ statements, placed.statement.ofGraph = true)
    (known : ∀ placed ∈ statements, ∀ target attrs, placed.statement = .attrStatement target attrs →
      target = "graph" ∨ target = "node" ∨ target = "edge")
    (some_ : statements ≠ []) (run : (opening ⟨.dot, statements⟩ batching).tellAll statements = .ok last)
    (out : last.nesting.frames = []) :
    ∃ before brace middle root, statements = before ++ [brace] ∧
      (∃ endpoints operators attrs, brace.statement = .scopeClose endpoints operators attrs) ∧
      (opening ⟨.dot, statements⟩ batching).tellAll before = .ok middle ∧ middle.nesting.frames = [root] ∧
      Hint.ofStatements statements = Hint.ofRoot root.attrs := by
  obtain ⟨before, brace, parts⟩ := (List.eq_nil_or_concat statements).resolve_left some_
  rw [List.concat_eq_append] at parts
  subst parts
  cases inner : (opening ⟨.dot, before ++ [brace]⟩ batching).tellAll before with
  | error failure => cases (tellAll_failed inner [brace]).symm.trans run
  | ok middle =>
    obtain ⟨tallied, scanned⟩ := tellAll_reaches (fun one before => Tallied one before ∧ Scanned one before)
      (fun placed member before one other kept told =>
        have graph := graph placed (List.mem_append_left _ member)
        have known := known placed (List.mem_append_left _ member)
        ⟨tell_tallied kept.1 graph told,
          kept.2.tell kept.1.held kept.1.plain graph known told⟩)
      ⟨opening_tallied _ batching, opening_scanned _ batching⟩ inner
    have ends : middle.tell brace = .ok last := (tellAll_concat inner brace).symm.trans run
    have outer : brace.statement.ofGraph = true := graph brace (by simp)
    obtain ⟨⟨endpoints, operators, attrs, closer⟩, ⟨root, frames⟩, -⟩ :=
      tell_out tallied.held tallied.plain outer ends out
    refine ⟨before, brace, middle, root, rfl, ⟨endpoints, operators, attrs, closer⟩, inner, frames, ?_⟩
    have agrees := scanned.agrees (.inl (by simp [frames])) [brace]
    unfold Hint.ofStatements
    rw [agrees]
    simp [Hint.rootAttrs, closer, Nesting.depth, frames, rootOf]

theorem account_layout_first {statements : List Placed} {nodes : List Node} {edges : List Edge}
    {earlier later : List Event} {layout : Layout} {direction : Direction} {attrs : Attrs}
    (parts : account statements nodes edges = earlier ++ .setLayout layout direction attrs :: later) :
    nodesOf earlier = [] ∧ edgesOf earlier = [] := by
  have back := hintsOf_heldBack nodes edges
  obtain ⟨noNodes, noEdges⟩ := preface_plain statements
  rw [account, List.append_assoc] at parts
  rcases List.append_eq_append_iff.1 parts with ⟨between, -, rest⟩ | ⟨between, rest, -⟩
  · rw [rest, hintsOf_append] at back
    simp [hintsOf] at back
  · rw [rest, nodesOf_append] at noNodes
    rw [rest, edgesOf_append] at noEdges
    exact ⟨(List.append_eq_nil_iff.1 noNodes).1, (List.append_eq_nil_iff.1 noEdges).1⟩

theorem ofDocument_layout {statements : List Placed} {batching : Batching} {narration : Narration}
    (graph : ∀ placed ∈ statements, placed.statement.ofGraph = true)
    (known : ∀ placed ∈ statements, ∀ target attrs, placed.statement = .attrStatement target attrs →
      target = "graph" ∨ target = "node" ∨ target = "edge")
    (some_ : statements ≠ []) (told : ofDocument ⟨.dot, statements⟩ batching = .ok narration) :
    ∃ before brace middle root, statements = before ++ [brace] ∧
      (∃ endpoints operators attrs, brace.statement = .scopeClose endpoints operators attrs) ∧
      (opening ⟨.dot, statements⟩ batching).tellAll before = .ok middle ∧ middle.nesting.frames = [root] ∧
      (("rankdir" ∈ root.attrs.keys ∨ "layout" ∈ root.attrs.keys) →
        ∃ hint, hintsOf narration.events = [hint] ∧ Hint.Follows root.attrs hint) ∧
      ("rankdir" ∉ root.attrs.keys → "layout" ∉ root.attrs.keys → hintsOf narration.events = []) ∧
      ∀ earlier layout direction attrs later,
        narration.events = earlier ++ .setLayout layout direction attrs :: later →
        nodesOf earlier = [] ∧ edgesOf earlier = [] := by
  obtain ⟨last, run, out, -⟩ := (ofDocument_ok_iff _ _ _).1 told
  obtain ⟨before, brace, middle, root, parts, closer, inner, frames, found⟩ := tellAll_closes graph known some_ run out
  obtain ⟨other, -, -, rfl⟩ := ofDocument_reaches graph
    (fun placed member _ _ _ tallied _ told => tell_tallied tallied (graph placed member) told)
    (opening_tallied _ batching) told
  refine ⟨before, brace, middle, root, parts, closer, inner, frames, ?_, ?_, ?_⟩
  · intro asks
    rcases Hint.ofRoot_cases root.attrs with ⟨rankdir, layout, -⟩ | ⟨-, hint, asked, follows⟩
    · exact absurd asks (not_or.2 ⟨rankdir, layout⟩)
    · refine ⟨hint, ?_, follows⟩
      rw [hintsOf_account, found, asked]
      rfl
  · intro rankdir layout
    rcases Hint.ofRoot_cases root.attrs with ⟨-, -, none⟩ | ⟨asks, -⟩
    · rw [hintsOf_account, found, none]
      rfl
    · exact absurd asks (not_or.2 ⟨rankdir, layout⟩)
  · exact fun earlier layout direction attrs later parts => account_layout_first parts

-- A subgraph that sets a direction of its own, and a layout that is asked for after it.
theorem ofDocument_layout_nested :
    let statements : List Placed :=
      [⟨⟨1, 1⟩, .graphOpen true false none⟩, ⟨⟨2, 1⟩, .assignment "rankdir" "lr"⟩, ⟨⟨3, 1⟩, .subgraphOpen none⟩,
       ⟨⟨4, 1⟩, .assignment "rankdir" "BT"⟩, ⟨⟨5, 1⟩, .nodeStatement ⟨"a", none⟩ Table.empty⟩,
       ⟨⟨6, 1⟩, .scopeClose [] [] Table.empty⟩,
       ⟨⟨7, 1⟩, .attrStatement "graph" (Table.ofList [("layout", "Neato"), ("nodesep", "1")])⟩,
       ⟨⟨8, 1⟩, .scopeClose [] [] Table.empty⟩]
    (∀ placed ∈ statements, placed.statement.ofGraph = true) ∧
    (∀ placed ∈ statements, ∀ target attrs, placed.statement = .attrStatement target attrs →
      target = "graph" ∨ target = "node" ∨ target = "edge") ∧ statements ≠ [] ∧
    ∃ narration, ofDocument ⟨.dot, statements⟩ .diagram = .ok narration ∧
      ∃ attrs, hintsOf narration.events = [(.force, .leftToRight, attrs)] ∧
        attrs.get? "engine" = some "Neato" ∧ attrs.get? "nodesep" = some "1" ∧ attrs.get? "layout" = none := by
  intro statements
  have graph : ∀ placed ∈ statements, placed.statement.ofGraph = true := by decide
  have known : ∀ placed ∈ statements, ∀ target attrs, placed.statement = .attrStatement target attrs →
      target = "graph" ∨ target = "node" ∨ target = "edge" := by
    intro placed member target attrs shape
    simp only [statements, List.mem_cons, List.not_mem_nil, or_false] at member
    rcases member with rfl | rfl | rfl | rfl | rfl | rfl | rfl | rfl <;> cases shape
    exact .inl rfl
  have fine : ((ofDocument ⟨.dot, statements⟩ .diagram).toOption.bind fun _ => some ()) = some () := by decide +kernel
  have rooted : ((opening ⟨.dot, statements⟩ .diagram).tellAll statements.dropLast).toOption.bind (fun middle =>
      some (middle.nesting.frames.map Frame.attrs)) =
        some [Table.ofList [("rankdir", "lr"), ("layout", "Neato"), ("nodesep", "1")]] := by decide +kernel
  obtain ⟨narration, told, -⟩ := ok_of_seen fine
  obtain ⟨before, brace, middle, root, parts, -, inner, frames, asked, -, -⟩ :=
    ofDocument_layout graph known (by simp [statements]) told
  have dropped : statements.dropLast = before := by rw [parts, List.dropLast_concat]
  obtain ⟨other, same, attrs⟩ := ok_of_seen rooted
  rw [dropped, inner] at same
  cases same
  have attrs : root.attrs = Table.ofList [("rankdir", "lr"), ("layout", "Neato"), ("nodesep", "1")] := by
    simpa [frames] using attrs
  rw [attrs] at asked
  obtain ⟨⟨layout, direction, attrs⟩, hints, follows⟩ := asked (by decide)
  have force : layout = .force := by
    rcases follows.layout with listed | ⟨-, unknown⟩
    · simpa [Hint.engines, show lower "Neato" = "neato" by decide +kernel] using listed
    · exact absurd (by decide +kernel) (unknown ("neato", .force) (by simp [Hint.engines]))
  have leftToRight : direction = .leftToRight := by
    rcases follows.direction with named | ⟨-, unknown⟩
    · have known : Direction.ofName? direction.name = Direction.ofName? (upper "lr") := congrArg _ named
      exact Option.some.inj ((Direction.ofName?_name direction).symm.trans (known.trans (by decide +kernel)))
    · exact absurd (by decide +kernel) (unknown .leftToRight)
  subst force leftToRight
  exact ⟨graph, known, by simp [statements], narration, told, attrs, hints, follows.attrs "engine",
    follows.attrs "nodesep", follows.attrs "layout"⟩

end Narration
end DiagramStream
