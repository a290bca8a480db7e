import DiagramStream.Proofs.Exchange.Reading
import DiagramStream.Proofs.Run

/-!
The state that a sequence diagram is told in, against what is read off its statements. Main statement: the
two agree after every statement, as long as none is refused.
-/

namespace DiagramStream

-- What a message carries of a branch, and what an error says of it.
structure Face where
  kind : ScopeKind
  block : Nat
  branch : Nat
  condition : Option String
  line : Int
deriving DecidableEq

def Frame.face (frame : Frame) : Face := ⟨frame.kind, frame.block, frame.branch, frame.label, frame.line⟩

def Block.face (statements : List Placed) (block : Block) : Face :=
  ⟨block.kind, ordinal statements block.opened, block.elses.length, block.condition, block.line⟩

theorem faces_concat {blocks : List Block} {before : List Placed}
    (early : ∀ block ∈ blocks, block.opened < before.length) (placed : Placed) :
    blocks.map (Block.face (before ++ [placed])) = blocks.map (Block.face before) := by
  refine List.map_congr_left ?_
  intro block member
  simp [Block.face, ordinal_append (early block member)]

@[simp] theorem Frame.addMember_face (frame : Frame) (id : String) : (frame.addMember id).face = frame.face := by
  unfold addMember
  split <;> rfl

@[simp] theorem Frame.addMembers_face (frame : Frame) (ids : List String) :
    (frame.addMembers ids).face = frame.face := by
  unfold addMembers
  induction ids generalizing frame with
  | nil => rfl
  | cons id rest ih => simp [ih]

@[simp] theorem Nesting.carry_faces (ids : List String) (frames : List Frame) :
    (carry ids frames).map Frame.face = frames.map Frame.face := by
  cases frames <;> simp [carry]

namespace Lifelines

theorem set_depth (lifelines : Lifelines) (other id : String) (count : Nat) :
    (⟨lifelines.depths.set other count⟩ : Lifelines).depth id = if id = other then count else lifelines.depth id := by
  simp only [depth, Table.get?_set]
  split <;> rfl

theorem play_depth (lifelines : Lifelines) (move : Move) (id : String) :
    (lifelines.play move).depth id = move.depthAfter id (lifelines.depth id) := by
  by_cases same : id = move.id
  · subst same
    cases move <;> simp [play, activate, destroy, set_depth, Move.depthAfter, Move.id]
  · cases move <;> simp_all [play, activate, destroy, set_depth, Move.depthAfter, Move.id, eq_comm]

end Lifelines

namespace Narration

structure Follows (narration : Narration) (before : List Placed) : Prop where
  format : narration.format = .sequence
  roster : narration.roster = rosterOf before
  sound : narration.roster.Sound
  faces : narration.nesting.frames.map Frame.face = (openBlocks before).map (Block.face before)
  nextBlock : narration.nesting.nextBlock = opens before + 1
  depth : narration.lifelines.depth = activeDepth before
  nextMessage : narration.nextMessage = messages before + 1

theorem Follows.top? {narration : Narration} {before : List Placed} (follows : Follows narration before) :
    narration.nesting.top? = (openBlocks before).head?.map fun block => (block.kind, block.line) := by
  have faces := congrArg List.head? follows.faces
  rw [List.head?_map, List.head?_map] at faces
  unfold Nesting.top? Nesting.innermost?
  cases frames : narration.nesting.frames.head? <;> cases blocks : (openBlocks before).head? <;>
    simp_all [Frame.face, Block.face]

theorem Follows.tell {narration : Narration} {before : List Placed} (follows : Follows narration before)
    {placed : Placed} (spoken : placed.statement.ofSequence = true) :
    narration.tell placed =
      match offenceAfter? before placed with
      | some failure => .error failure
      | none => .ok (narration.advance placed) := by
  rw [tell_exchange narration follows.sound placed spoken, follows.roster, follows.depth, follows.top?]
  rfl

theorem Follows.innermost {narration : Narration} {before : List Placed} (follows : Follows narration before)
    {block : Block} {outer : List Block} (blocks : openBlocks before = block :: outer) :
    ∃ top rest, narration.nesting.frames = top :: rest ∧ top.face = block.face before ∧
      rest.map Frame.face = outer.map (Block.face before) := by
  have faces := follows.faces
  rw [blocks, List.map_cons] at faces
  cases frames : narration.nesting.frames with
  | nil => rw [frames] at faces; cases faces
  | cons top rest =>
    rw [frames, List.map_cons] at faces
    exact ⟨top, rest, rfl, (List.cons.inj faces).1, (List.cons.inj faces).2⟩

theorem Follows.closed {narration : Narration} {before : List Placed} (follows : Follows narration before)
    (frames : narration.nesting.frames = []) : openBlocks before = [] := by
  have faces := follows.faces
  rw [frames] at faces
  exact List.map_eq_nil_iff.1 faces.symm

theorem enter_faces (nesting : Nesting) (kind : ScopeKind) (condition : Option String) (line : Int) :
    (nesting.enter kind condition line).1.frames.map Frame.face =
      ⟨kind, nesting.nextBlock, 0, condition, line⟩ :: nesting.frames.map Frame.face := by
  unfold Nesting.enter
  cases nesting.frames <;> rfl

-- The blocks of the document and the frames of the narration open, branch and close together.
theorem hear_faces {narration : Narration} {before : List Placed} (follows : Follows narration before)
    {placed : Placed} (fine : offenceAfter? before placed = none) :
    (narration.nesting.hear placed).frames.map Frame.face =
      (openBlocks (before ++ [placed])).map (Block.face (before ++ [placed])) := by
  have later := faces_concat (openBlocks_early before) placed
  rw [openBlocks_concat]
  obtain ⟨position, statement⟩ := placed
  cases statement with
  | blockOpen kind condition =>
    cases known : ScopeKind.ofName? kind with
    | none => simp [offenceAfter?, offence?, known] at fine
    | some scope =>
      have number : ordinal (before ++ [⟨position, .blockOpen kind condition⟩]) before.length = opens before + 1 := by
        simp [ordinal_last, Statement.opensBlock]
      simp only [Nesting.hear, nest, known, enter_faces, List.map_cons, follows.faces, later, follows.nextBlock]
      simp [Block.face, number]
  | blockElse condition =>
    obtain ⟨block, outer, blocks, fits⟩ := fits_of_fine fine
    obtain ⟨top, rest, frames, face, faces⟩ := follows.innermost blocks
    have kind : top.kind = block.kind := congrArg Face.kind face
    have branch : top.branch = block.elses.length := congrArg Face.branch face
    rw [blocks, List.map_cons] at later
    obtain ⟨same, others⟩ := List.cons.inj later
    have number : top.block = ordinal (before ++ [⟨position, .blockElse condition⟩]) block.opened :=
      congrArg Face.block (face.trans same.symm)
    simp only [Nesting.hear, Nesting.branch, Nesting.split, frames, kind, fits, if_true, nest, blocks,
      List.map_cons, faces, others]
    simp [Frame.face, Block.face, branch, number]
  | blockEnd =>
    obtain ⟨block, outer, blocks, fits⟩ := closes_of_fine fine
    obtain ⟨top, rest, frames, face, faces⟩ := follows.innermost blocks
    have kind : top.kind = block.kind := congrArg Face.kind face
    rw [blocks, List.map_cons] at later
    simp only [Nesting.hear, Nesting.leave, Nesting.split, frames, kind, fits, if_true, nest, blocks,
      Nesting.carry_faces, faces]
    exact (List.cons.inj later).2.symm
  | _ => exact follows.faces.trans later.symm

theorem hear_nextBlock {before : List Placed} {placed : Placed} (fine : offenceAfter? before placed = none)
    (nesting : Nesting) :
    (nesting.hear placed).nextBlock = nesting.nextBlock + if placed.statement.opensBlock then 1 else 0 := by
  obtain ⟨position, statement⟩ := placed
  cases statement with
  | blockOpen kind condition =>
    cases known : ScopeKind.ofName? kind with
    | none => simp [offenceAfter?, offence?, known] at fine
    | some scope => simp [Nesting.hear, known, Nesting.enter, Statement.opensBlock]
  | blockElse condition =>
    unfold Nesting.hear Nesting.branch
    cases nesting.split "else" ScopeKind.isBranching position.line <;> rfl
  | blockEnd =>
    unfold Nesting.hear Nesting.leave
    cases nesting.split "end" ScopeKind.isBlock position.line <;> rfl
  | _ => rfl

-- An accepted message is told as one edge, and nothing else is.
theorem edge?_length {narration : Narration} {before : List Placed} {placed : Placed}
    (fine : offenceAfter? before placed = none) :
    (narration.edge? placed).toList.length = if placed.statement.isMessage then 1 else 0 := by
  obtain ⟨position, statement⟩ := placed
  cases statement with
  | message source arrow target label mark =>
    cases known : Arrow.ofText? arrow with
    | none => simp [offenceAfter?, offence?, known] at fine
    | some kind => simp [edge?, known, Statement.isMessage]
  | _ => rfl

theorem advance_follows {narration : Narration} {before : List Placed} (follows : Follows narration before)
    {placed : Placed} (fine : offenceAfter? before placed = none) :
    Follows (narration.advance placed) (before ++ [placed]) := by
  have roster : (narration.advance placed).roster = rosterOf (before ++ [placed]) := by
    rw [rosterOf_concat, ← follows.roster]
    rfl
  refine ⟨follows.format, roster, Roster.hear_sound follows.sound placed, hear_faces follows fine, ?_, ?_, ?_⟩
  · simp only [advance, hear_nextBlock fine, follows.nextBlock, opens_concat]
    omega
  · funext id
    rw [activeDepth_concat, ← roster, ← follows.depth]
    simp only [advance]
    cases placed.statement.move? (narration.roster.hear placed) with
    | none => rfl
    | some move => exact narration.lifelines.play_depth move id
  · simp only [advance, edge?_length fine, follows.nextMessage, messages_concat]
    omega

-- Whatever follows the statements is decided by them, so that only the steps remain to be looked at.
theorem decides_of_advance {allowed : Placed → Prop} {reached : Narration → List Placed → Prop}
    (spoken : ∀ placed, allowed placed → placed.statement.ofSequence = true)
    (follows : ∀ narration before, reached narration before → Follows narration before)
    (step : ∀ narration before placed, reached narration before → allowed placed →
      offenceAfter? before placed = none → reached (narration.advance placed) (before ++ [placed])) :
    Decides offenceAfter? allowed reached := by
  refine ⟨?_, ?_⟩
  · intro narration before placed here allows fine
    refine ⟨narration.advance placed, ?_, step narration before placed here allows fine⟩
    rw [(follows narration before here).tell (spoken placed allows), fine]
  · intro narration before placed failure here allows offence
    rw [(follows narration before here).tell (spoken placed allows), offence]

theorem exchange_decides :
    Decides offenceAfter? (fun placed => placed.statement.ofSequence = true) Follows :=
  decides_of_advance (fun _ spoken => spoken) (fun _ _ follows => follows)
    fun _ _ _ follows _ fine => advance_follows follows fine

theorem opening_follows (statements : List Placed) (batching : Batching) :
    Follows (opening ⟨.sequence, statements⟩ batching) [] :=
  ⟨rfl, rfl, Roster.empty_sound _, rfl, rfl, rfl, rfl⟩

end Narration
end DiagramStream
