import DiagramStream.Proofs.Exchange.Acceptance
import DiagramStream.Proofs.Exchange.Branch
import DiagramStream.Proofs.Stream

/-!
The edges that the messages of a sequence diagram become. Main statement: there is one for each message, in
their order, and all that it carries is read off the document: its number, its ends, and the branch that the
message stands in.
-/

namespace DiagramStream

-- What a message carries of the branch it stands in.
def branchAttrs (before : List Placed) : List (String × String) :=
  match openBlocks before with
  | [] => []
  | block :: outer =>
    [("block", block.kind.name), ("block_id", toString (ordinal before block.opened)),
     ("branch", toString block.elses.length), ("depth", toString (outer.length + 1))]
      ++ ((Roster.given block.condition).map fun condition => ("condition", condition)).toList

-- The edge of a message after other statements.
def edgeAfter? (before : List Placed) (placed : Placed) : Option Edge :=
  match placed.statement with
  | .message source arrow target label _ =>
    (Arrow.ofText? arrow).map fun kind =>
      let roster := rosterOf (before ++ [placed])
      let ends := kind.ends (roster.idOf source) (roster.idOf target)
      ⟨"msg-" ++ toString (messages before + 1), ends.1, ends.2, some ((messages before + 1 : Nat) : Int), label,
        Table.ofList ([("direction", kind.kind.name), ("arrow", arrow)] ++ branchAttrs before)⟩
  | _ => none

-- A scope of a graph, opened by its name in a sequence diagram, is never closed there.
theorem foreign_stays {before : List Placed} {placed : Placed} (fine : offenceAfter? before placed = none)
    (foreign : ∃ block ∈ openBlocks before, block.kind.isBlock = false) :
    ∃ block ∈ openBlocks (before ++ [placed]), block.kind.isBlock = false := by
  obtain ⟨block, member, graph⟩ := foreign
  rw [openBlocks_concat]
  obtain ⟨position, statement⟩ := placed
  cases statement with
  | blockOpen kind condition =>
    cases known : ScopeKind.ofName? kind with
    | none => simp [offenceAfter?, offence?, known] at fine
    | some scope => exact ⟨block, by simp [nest, known, member], graph⟩
  | blockElse condition =>
    obtain ⟨top, outer, blocks, _⟩ := fits_of_fine fine
    rw [blocks] at member ⊢
    rcases List.mem_cons.1 member with rfl | older
    · exact ⟨_, List.mem_cons_self .., graph⟩
    · exact ⟨block, List.mem_cons_of_mem _ older, graph⟩
  | blockEnd =>
    obtain ⟨top, outer, blocks, closes⟩ := closes_of_fine fine
    rw [blocks] at member ⊢
    rcases List.mem_cons.1 member with rfl | older
    · rw [graph] at closes
      cases closes
    · exact ⟨block, older, graph⟩
  | _ => exact ⟨block, member, graph⟩

theorem foreign_persists {before rest : List Placed} (clean : Clean offenceAfter? (before ++ rest))
    (foreign : ∃ block ∈ openBlocks before, block.kind.isBlock = false) :
    ∃ block ∈ openBlocks (before ++ rest), block.kind.isBlock = false := by
  induction rest using List.reverseRecOn with
  | nil => simpa using foreign
  | append_singleton rest placed ih =>
    rw [← List.append_assoc] at clean ⊢
    obtain ⟨earlier, fine⟩ := clean_concat.1 clean
    exact foreign_stays fine (ih earlier)

theorem control_of_clean {statements : List Placed} (clean : Clean offenceAfter? statements)
    (closed : openBlocks statements = []) : ∀ placed ∈ statements, placed.statement.opensControl = true := by
  intro placed member
  obtain ⟨before, rest, rfl⟩ := List.append_of_mem member
  obtain ⟨position, statement⟩ := placed
  cases statement with
  | blockOpen kind condition =>
    have whole : before ++ [⟨position, .blockOpen kind condition⟩] ++ rest =
        before ++ ⟨position, .blockOpen kind condition⟩ :: rest := by simp
    have fine := clean before ⟨position, .blockOpen kind condition⟩ ⟨rest, whole⟩
    cases known : ScopeKind.ofName? kind with
    | none => simp [offenceAfter?, offence?, known] at fine
    | some scope =>
      cases graph : scope.isBlock with
      | true => simp [Statement.opensControl, known, graph]
      | false =>
        have foreign : ∃ block ∈ openBlocks (before ++ [⟨position, .blockOpen kind condition⟩]),
            block.kind.isBlock = false := by
          rw [openBlocks_concat]
          exact ⟨⟨scope, before.length, [], condition, position.line⟩, by simp [nest, known], graph⟩
        obtain ⟨block, left, _⟩ := foreign_persists (whole ▸ clean) foreign
        rw [whole, closed] at left
        cases left
  | _ => rfl

namespace Narration

theorem blockAttrs_eq {narration : Narration} {before : List Placed} (follows : Follows narration before)
    (blocks : ∀ block ∈ openBlocks before, block.kind.isBlock = true) :
    blockAttrs narration.nesting = branchAttrs before := by
  unfold blockAttrs branchAttrs
  cases open_ : openBlocks before with
  | nil =>
    have faces := follows.faces
    rw [open_] at faces
    simp [Nesting.innermost?, List.map_eq_nil_iff.1 faces]
  | cons block outer =>
    obtain ⟨top, rest, frames, face, faces⟩ := follows.innermost open_
    have fits := blocks block (by rw [open_]; exact List.mem_cons_self ..)
    have length : rest.length = outer.length := by simpa using congrArg List.length faces
    have kind : top.kind = block.kind := congrArg Face.kind face
    have number : top.block = ordinal before block.opened := congrArg Face.block face
    have branch : top.branch = block.elses.length := congrArg Face.branch face
    have condition : top.label = block.condition := congrArg Face.condition face
    simp [Nesting.innermost?, Nesting.depth, frames, kind, fits, number, branch, condition, length]

theorem edge?_eq {narration : Narration} {before : List Placed} (follows : Follows narration before)
    (blocks : ∀ block ∈ openBlocks before, block.kind.isBlock = true) (placed : Placed) :
    narration.edge? placed = edgeAfter? before placed := by
  obtain ⟨position, statement⟩ := placed
  cases statement with
  | message source arrow target label mark =>
    simp only [edge?, edgeAfter?, blockAttrs_eq follows blocks, follows.nextMessage, follows.roster, rosterOf_concat]
  | _ => rfl

theorem news_edges (roster : Roster) (placed : Placed) : edgesOf (roster.news placed) = [] := by
  refine edgesOf_nil_of ?_
  rintro event member edge rfl
  rcases Roster.mem_news member with ⟨_, same⟩ | ⟨_, _, same⟩ <;> cases same

-- Whatever else is told of a statement, an edge is told of nothing but a message.
theorem echo_edges (narration : Narration) (placed : Placed) :
    edgesOf (narration.echo placed) = (narration.edge? placed).toList := by
  have moves : edgesOf ((placed.statement.move? (narration.roster.hear placed)).toList.map fun move =>
      .updateNode move.id (narration.lifelines.change move)) = [] := by
    cases placed.statement.move? (narration.roster.hear placed) <;> rfl
  have noted : edgesOf (notes (narration.roster.hear placed) placed.statement) = [] := by
    refine edgesOf_nil_of ?_
    rintro event member edge rfl
    obtain ⟨_, _, _, _, _, _, same⟩ := mem_notes member
    cases same
  have marker : edgesOf (narration.marker? placed).toList = [] := by
    refine edgesOf_nil_of ?_
    rintro event member edge rfl
    rcases marker?_eq_some (Option.mem_toList.1 member) with same | same <;> cases same
  simp only [echo, edgesOf_append, news_edges, moves, noted, marker, edgesOf_addEdges, List.nil_append, List.append_nil]

-- The edges told so far are those of the messages told so far.
structure Recorded (events : List Event) (before : List Placed) : Prop where
  length : (edgesOf events).length = messages before
  edges : ∀ earlier placed, earlier ++ [placed] <+: before → ∀ edge, edgeAfter? earlier placed = some edge →
    (edgesOf events)[messages earlier]? = some edge

theorem Recorded.concat {events told : List Event} {before : List Placed} {placed : Placed}
    (recorded : Recorded events before) (new : edgesOf told = (edgeAfter? before placed).toList)
    (count : (edgeAfter? before placed).toList.length = if placed.statement.isMessage then 1 else 0) :
    Recorded (events ++ told) (before ++ [placed]) := by
  refine ⟨?_, ?_⟩
  · rw [edgesOf_append, List.length_append, recorded.length, new, count, messages_concat]
  · intro earlier other within edge made
    rw [edgesOf_append]
    rcases List.prefix_concat_iff.1 within with whole | begins
    · obtain ⟨rfl, rfl⟩ := List.append_singleton_inj.1 whole
      rw [new, made, List.getElem?_append_right (Nat.le_of_eq recorded.length), recorded.length]
      simp
    · have found := recorded.edges earlier other begins edge made
      rw [List.getElem?_append_left (List.getElem?_eq_some_iff.1 found).1]
      exact found

theorem messages_decide :
    Decides offenceAfter?
      (fun placed => placed.statement.ofSequence = true ∧ placed.statement.opensControl = true)
      (fun narration before => Follows narration before ∧ Recorded narration.events before ∧
        ∀ block ∈ openBlocks before, block.kind.isBlock = true) := by
  refine decides_of_advance (fun _ allowed => allowed.1) (fun _ _ reached => reached.1) ?_
  rintro narration before placed ⟨follows, recorded, blocks⟩ ⟨_, control⟩ fine
  have made := edge?_eq follows blocks placed
  have new : edgesOf (narration.echo placed) = (edgeAfter? before placed).toList := by rw [echo_edges, made]
  have count : (edgeAfter? before placed).toList.length = if placed.statement.isMessage then 1 else 0 := by
    rw [← made]
    exact edge?_length fine
  refine ⟨advance_follows follows fine, recorded.concat new count, ?_⟩
  rw [openBlocks_concat]
  exact nest_isBlock blocks control

theorem opening_recorded (statements : List Placed) (batching : Batching) :
    Recorded (opening ⟨.sequence, statements⟩ batching).events [] := by
  refine ⟨by cases batching <;> rfl, ?_⟩
  intro earlier placed within
  simp at within

-- The attributes that tell where a message stands, and nothing but them.
theorem branchAttrs_get? (before : List Placed) (direction arrow : String) :
    let attrs := Table.ofList ([("direction", direction), ("arrow", arrow)] ++ branchAttrs before)
    attrs.get? "block_id" = ((openBlocks before).head?.map fun block => ordinal before block.opened).map toString ∧
      attrs.get? "branch" = ((openBlocks before).head?.map fun block => block.elses.length).map toString := by
  unfold branchAttrs
  cases openBlocks before with
  | nil => simp [Table.ofList, Table.get?_set]
  | cons block outer => cases given : Roster.given block.condition <;> simp [given, Table.ofList, Table.get?_set]

-- Every message of a document that is told has its edge, with its number and all it carries.
theorem messages_recorded {statements : List Placed} {batching : Batching} {narration : Narration}
    (spoken : ∀ placed ∈ statements, placed.statement.ofSequence = true)
    (told : ofDocument ⟨.sequence, statements⟩ batching = .ok narration) :
    Clean offenceAfter? statements ∧ Recorded narration.events statements ∧
      narration.nextMessage = messages statements + 1 := by
  obtain ⟨last, run, closed, rfl⟩ := (ofDocument_ok_iff _ _ _).1 told
  obtain ⟨clean, follows⟩ := exchange_decides.clean_of_told (opening_follows statements batching) spoken run
  have control := control_of_clean clean (follows.closed closed)
  have start := opening_follows statements batching
  obtain ⟨_, _, recorded, _⟩ := messages_decide.clean_of_told
    ⟨start, opening_recorded statements batching, fun block member => nomatch member⟩
    (fun placed member => ⟨spoken placed member, control placed member⟩) run
  refine ⟨clean, ?_, follows.nextMessage⟩
  have nothing : last.heldBack = [] := by simp [heldBack, follows.format]
  have quiet : edgesOf (last.events ++ last.heldBack ++ if last.batching = .diagram then [.batchEnd] else []) =
      edgesOf last.events := by
    rw [nothing]
    split <;> simp [edgesOf]
  exact ⟨by rw [quiet]; exact recorded.length, by rw [quiet]; exact recorded.edges⟩

-- After a message its names are bound, and its edge runs between what they are bound to.
theorem message_bound {statements before : List Placed} {placed : Placed} (batching : Batching)
    (spoken : ∀ one ∈ before ++ [placed], one.statement.ofSequence = true)
    (clean : Clean offenceAfter? (before ++ [placed])) {source arrow target : String} {label mark : Option String}
    (shape : placed.statement = .message source arrow target label mark) :
    ∃ middle, (opening ⟨.sequence, statements⟩ batching).tellAll (before ++ [placed]) = .ok middle ∧
      middle.roster.id? source = some ((rosterOf (before ++ [placed])).idOf source) ∧
      middle.roster.id? target = some ((rosterOf (before ++ [placed])).idOf target) := by
  have start := opening_follows statements batching
  obtain ⟨earlier, fine⟩ := clean_concat.1 clean
  obtain ⟨_, _, follows⟩ := exchange_decides.tellAll_clean start
    (fun one member => spoken one (List.mem_append_left _ member)) earlier
  obtain ⟨middle, told, after⟩ := exchange_decides.tellAll_clean start spoken clean
  have sound : (rosterOf before).Sound := follows.roster ▸ follows.sound
  have bound : ∀ name ∈ placed.statement.uses,
      middle.roster.id? name = some ((rosterOf (before ++ [placed])).idOf name) := by
    intro name used
    rw [after.roster, rosterOf_concat]
    exact Roster.hear_id? sound used
  exact ⟨middle, told, bound source (by simp [shape, Statement.uses]), bound target (by simp [shape, Statement.uses])⟩

theorem message_edge {before : List Placed} {placed : Placed} (fine : offenceAfter? before placed = none)
    {source arrow target : String} {label mark : Option String}
    (shape : placed.statement = .message source arrow target label mark) :
    ∃ kind, Arrow.ofText? arrow = some kind ∧ edgeAfter? before placed =
      let roster := rosterOf (before ++ [placed])
      let ends := kind.ends (roster.idOf source) (roster.idOf target)
      some ⟨"msg-" ++ toString (messages before + 1), ends.1, ends.2, some ((messages before + 1 : Nat) : Int), label,
        Table.ofList ([("direction", kind.kind.name), ("arrow", arrow)] ++ branchAttrs before)⟩ := by
  obtain ⟨position, statement⟩ := placed
  cases shape
  cases known : Arrow.ofText? arrow with
  | none => simp [offenceAfter?, offence?, known] at fine
  | some kind => exact ⟨kind, rfl, by simp [edgeAfter?, known]⟩

-- The edge of a message tells the number of the block it stands in, and that of the branch.
theorem edge_branch {statements before : List Placed} {placed : Placed} {events : List Event} {edge : Edge}
    (clean : Clean offenceAfter? statements) (recorded : Recorded events statements)
    (within : before ++ [placed] <+: statements) (message : placed.statement.isMessage = true)
    (found : (edgesOf events)[messages before]? = some edge) :
    edge.attrs.get? "block_id" = ((openBlocks before).head?.map fun block => ordinal before block.opened).map toString ∧
      edge.attrs.get? "branch" = ((openBlocks before).head?.map fun block => block.elses.length).map toString := by
  obtain ⟨position, statement⟩ := placed
  cases statement with
  | message source arrow target label mark =>
    obtain ⟨kind, known, made⟩ := message_edge (clean before _ within) rfl
    cases (recorded.edges before _ within _ made).symm.trans found
    exact branchAttrs_get? before _ _
  | _ => cases message

theorem ofDocument_messages {statements : List Placed} {batching : Batching} {narration : Narration}
    (spoken : ∀ placed ∈ statements, placed.statement.ofSequence = true)
    (told : ofDocument ⟨.sequence, statements⟩ batching = .ok narration) :
    (edgesOf narration.events).length = messages statements ∧
    narration.nextMessage = messages statements + 1 ∧
    (∀ before placed source arrow target label mark, before ++ [placed] <+: statements →
      placed.statement = .message source arrow target label mark →
      ∃ kind middle first second, Arrow.ofText? arrow = some kind ∧
        (opening ⟨.sequence, statements⟩ batching).tellAll (before ++ [placed]) = .ok middle ∧
        middle.roster.id? source = some first ∧ middle.roster.id? target = some second ∧
        (edgesOf narration.events)[messages before]? = some
          ⟨"msg-" ++ toString (messages before + 1), (kind.ends first second).1, (kind.ends first second).2,
            some ((messages before + 1 : Nat) : Int), label,
            Table.ofList ([("direction", kind.kind.name), ("arrow", arrow)] ++ branchAttrs before)⟩) ∧
    (∀ left one right other edge line, left ++ [one] <+: statements → right ++ [other] <+: statements →
      one.statement.isMessage = true → other.statement.isMessage = true →
      (edgesOf narration.events)[messages left]? = some edge →
      (edgesOf narration.events)[messages right]? = some line →
      ((edge.attrs.get? "block_id" = line.attrs.get? "block_id" ∧
          edge.attrs.get? "branch" = line.attrs.get? "branch") ↔
        standing left = standing right)) := by
  obtain ⟨clean, recorded, next⟩ := messages_recorded spoken told
  refine ⟨recorded.length, next, ?_, ?_⟩
  · intro before placed source arrow target label mark within shape
    have earlier := clean.earlier within
    obtain ⟨kind, known, made⟩ := message_edge (clean_concat.1 earlier).2 shape
    obtain ⟨middle, run, first, second⟩ :=
      message_bound batching (fun one member => spoken one (within.subset member)) earlier shape
    exact ⟨kind, middle, _, _, known, run, first, second, recorded.edges before placed within _ made⟩
  · intro left one right other edge line begins goesOn first second atLeft atRight
    obtain ⟨block, branch⟩ := edge_branch clean recorded begins first atLeft
    obtain ⟨otherBlock, otherBranch⟩ := edge_branch clean recorded goesOn second atRight
    rw [block, branch, otherBlock, otherBranch, Option.map_inj_right fun _ _ => toString_injective,
      Option.map_inj_right fun _ _ => toString_injective]
    exact numbers_agree_iff ((List.prefix_append ..).trans begins) ((List.prefix_append ..).trans goesOn)

-- A message before a block, and a reversed one in its second branch.
theorem ofDocument_messages_par :
    let statements : List Placed :=
      [⟨⟨1, 1⟩, .message "a" "->" "b" none none⟩, ⟨⟨2, 1⟩, .blockOpen "par" (some "x")⟩,
       ⟨⟨3, 1⟩, .blockElse none⟩, ⟨⟨4, 1⟩, .message "b" "<-" "a" none none⟩, ⟨⟨5, 1⟩, .blockEnd⟩]
    ∃ narration, ofDocument ⟨.sequence, statements⟩ .block = .ok narration ∧
      (edgesOf narration.events).length = 2 ∧ narration.nextMessage = 3 := by
  intro statements
  have spoken : ∀ placed ∈ statements, placed.statement.ofSequence = true := by decide
  obtain ⟨narration, told⟩ : ∃ narration, ofDocument ⟨.sequence, statements⟩ .block = .ok narration := ⟨_, rfl⟩
  obtain ⟨length, next, _⟩ := ofDocument_messages spoken told
  have count : messages statements = 2 := by decide
  exact ⟨narration, told, length.trans count, by rw [next, count]⟩

end Narration
end DiagramStream
