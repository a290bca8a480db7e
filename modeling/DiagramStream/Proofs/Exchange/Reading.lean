import Mathlib.Data.List.Induction
import DiagramStream.Proofs.Exchange.Step

/-!
A sequence diagram read off its statements alone: who is known by which name, which blocks are open, how
deeply everyone is active, and how the messages count.
-/

namespace DiagramStream

-- A block that is open, with the places of its statements in the document. `elses` are those so far; the
-- condition and the line are those of the latest of its statements.
structure Block where
  kind : ScopeKind
  opened : Nat
  elses : List Nat
  condition : Option String
  line : Int
deriving DecidableEq

-- Where the current branch begins.
def Block.start (block : Block) : Nat := block.elses.getLast?.getD block.opened

-- What a statement at a place does to the open blocks, innermost first.
def nest (place : Nat) (blocks : List Block) (placed : Placed) : List Block :=
  match placed.statement, blocks with
  | .blockOpen kind condition, blocks =>
    match ScopeKind.ofName? kind with
    | none => blocks
    | some kind => ⟨kind, place, [], condition, placed.position.line⟩ :: blocks
  | .blockElse condition, block :: outer =>
    { block with elses := block.elses ++ [place], condition := condition, line := placed.position.line } :: outer
  | .blockEnd, _ :: outer => outer
  | _, blocks => blocks

def openBlocks (statements : List Placed) : List Block :=
  statements.zipIdx.foldl (fun blocks entry => nest entry.2 blocks entry.1) []

@[simp] theorem openBlocks_nil : openBlocks [] = [] := rfl

@[simp] theorem openBlocks_concat (before : List Placed) (placed : Placed) :
    openBlocks (before ++ [placed]) = nest before.length (openBlocks before) placed := by
  simp [openBlocks, List.zipIdx_append]

-- An open block was open before, or goes on with its next branch, or has just been opened.
theorem mem_nest {place : Nat} {blocks : List Block} {placed : Placed} {block : Block}
    (member : block ∈ nest place blocks placed) :
    block ∈ blocks ∨
      (∃ older ∈ blocks, block.kind = older.kind ∧ block.opened = older.opened ∧
        block.elses = older.elses ++ [place]) ∨
      ∃ kind condition, placed.statement = .blockOpen kind condition ∧ ScopeKind.ofName? kind = some block.kind ∧
        block.opened = place ∧ block.elses = [] := by
  unfold nest at member
  split at member
  · rename_i kind condition shape
    split at member
    · exact .inl member
    · rename_i known
      rcases List.mem_cons.1 member with rfl | old
      · exact .inr (.inr ⟨kind, condition, shape, known, rfl, rfl⟩)
      · exact .inl old
  · rename_i condition top outer shape
    rcases List.mem_cons.1 member with rfl | old
    · exact .inr (.inl ⟨top, List.mem_cons_self .., rfl, rfl, rfl⟩)
    · exact .inl (List.mem_cons_of_mem _ old)
  · exact .inl (List.mem_cons_of_mem _ member)
  · exact .inl member

-- Blocks are opened where the statements so far stand.
theorem openBlocks_early (statements : List Placed) :
    ∀ block ∈ openBlocks statements, block.opened < statements.length := by
  induction statements using List.reverseRecOn with
  | nil => intro block member; cases member
  | append_singleton before placed ih =>
    intro block member
    rw [openBlocks_concat] at member
    rw [List.length_append, List.length_singleton]
    rcases mem_nest member with old | ⟨older, old, _, same, _⟩ | ⟨kind, condition, _, _, place, _⟩
    · have bound := ih block old
      omega
    · have bound := ih older old
      omega
    · omega

def Statement.opensBlock : Statement → Bool
  | .blockOpen .. => true
  | _ => false

def Statement.isMessage : Statement → Bool
  | .message .. => true
  | _ => false

def opens (statements : List Placed) : Nat := statements.countP (·.statement.opensBlock)

def messages (statements : List Placed) : Nat := statements.countP (·.statement.isMessage)

@[simp] theorem opens_concat (before : List Placed) (placed : Placed) :
    opens (before ++ [placed]) = opens before + if placed.statement.opensBlock then 1 else 0 := by
  simp [opens, List.countP_append, List.countP_singleton]

@[simp] theorem messages_concat (before : List Placed) (placed : Placed) :
    messages (before ++ [placed]) = messages before + if placed.statement.isMessage then 1 else 0 := by
  simp [messages, List.countP_append, List.countP_singleton]

-- Which opener of a block the one at a place is, counted from one.
def ordinal (statements : List Placed) (place : Nat) : Nat := opens (statements.take (place + 1))

theorem ordinal_append {before : List Placed} {place : Nat} (early : place < before.length) (rest : List Placed) :
    ordinal (before ++ rest) place = ordinal before place := by
  unfold ordinal
  rw [List.take_append_of_le_length early]

theorem ordinal_last (before : List Placed) (placed : Placed) :
    ordinal (before ++ [placed]) before.length = opens (before ++ [placed]) := by
  unfold ordinal
  rw [List.take_of_length_le (by simp)]

-- Names

def rosterOf (statements : List Placed) : Roster := statements.foldl Roster.hear (Roster.empty genericKind)

@[simp] theorem rosterOf_concat (before : List Placed) (placed : Placed) :
    rosterOf (before ++ [placed]) = (rosterOf before).hear placed := by
  simp [rosterOf]

-- Activation

-- What the statements do to the lifelines, under the names as they stand right after each.
def movesFrom (roster : Roster) : List Placed → List Lifelines.Move
  | [] => []
  | placed :: rest =>
    (placed.statement.move? (roster.hear placed)).toList ++ movesFrom (roster.hear placed) rest

def movesOf (statements : List Placed) : List Lifelines.Move := movesFrom (Roster.empty genericKind) statements

theorem movesFrom_concat (roster : Roster) (before : List Placed) (placed : Placed) :
    movesFrom roster (before ++ [placed]) =
      movesFrom roster before ++
        (placed.statement.move? ((before.foldl Roster.hear roster).hear placed)).toList := by
  induction before generalizing roster with
  | nil => simp [movesFrom]
  | cons first rest ih => simp [movesFrom, ih]

@[simp] theorem movesOf_concat (before : List Placed) (placed : Placed) :
    movesOf (before ++ [placed]) =
      movesOf before ++ (placed.statement.move? (rosterOf (before ++ [placed]))).toList := by
  rw [rosterOf_concat]
  exact movesFrom_concat _ before placed

-- How deeply a node is active after a move.
def Lifelines.Move.depthAfter (id : String) (depth : Nat) : Lifelines.Move → Nat
  | .raise other _ => if other = id then depth + 1 else depth
  | .lower other => if other = id then depth - 1 else depth
  | .clear other => if other = id then 0 else depth

def activeDepth (statements : List Placed) (id : String) : Nat :=
  (movesOf statements).foldl (Lifelines.Move.depthAfter id) 0

theorem activeDepth_concat (before : List Placed) (placed : Placed) (id : String) :
    activeDepth (before ++ [placed]) id =
      (placed.statement.move? (rosterOf (before ++ [placed]))).elim (activeDepth before id)
        (Lifelines.Move.depthAfter id (activeDepth before id)) := by
  unfold activeDepth
  rw [movesOf_concat, List.foldl_append]
  cases placed.statement.move? (rosterOf (before ++ [placed])) <;> rfl

-- What is wrong with a statement after others.
def offenceAfter? (before : List Placed) (placed : Placed) : Option Failure :=
  offence? (rosterOf before) (activeDepth before)
    ((openBlocks before).head?.map fun block => (block.kind, block.line)) placed

-- An `else` or an `end` that is accepted finds a block that it fits.
theorem fits_of_fine {before : List Placed} {position : Text.Position} {condition : Option String}
    (fine : offenceAfter? before ⟨position, .blockElse condition⟩ = none) :
    ∃ block outer, openBlocks before = block :: outer ∧ block.kind.isBranching = true := by
  cases blocks : openBlocks before with
  | nil => simp [offenceAfter?, offence?, blocks] at fine
  | cons block outer => exact ⟨block, outer, rfl, by simpa [offenceAfter?, offence?, blocks] using fine⟩

theorem closes_of_fine {before : List Placed} {position : Text.Position}
    (fine : offenceAfter? before ⟨position, .blockEnd⟩ = none) :
    ∃ block outer, openBlocks before = block :: outer ∧ block.kind.isBlock = true := by
  cases blocks : openBlocks before with
  | nil => simp [offenceAfter?, offence?, blocks] at fine
  | cons block outer => exact ⟨block, outer, rfl, by simpa [offenceAfter?, offence?, blocks] using fine⟩

end DiagramStream
