import DiagramStream.Proofs.Nesting
import DiagramStream.Proofs.Graph.Tally

/-!
The scopes of a graph as calls that its statements make. Main statement: where a graph is told, its scopes stand as
these calls leave them, so that what they give can be read off the statements layer by layer.
-/

namespace DiagramStream

-- What a graph calls the table that a statement sets.
def Slot.ofTarget (target : String) : Slot :=
  if target = "node" then .nodeDefaults else if target = "edge" then .edgeDefaults else .attrs

-- A brace is left before the chain behind it refers to anything.
def Placed.calls (placed : Placed) : List Nesting.Call :=
  match placed.statement with
  | .graphOpen _ _ name => [.enter "graph" name placed.position.line]
  | .subgraphOpen name => [.enter "subgraph" name placed.position.line]
  | .scopeClose .. => .leave "\x7d" ScopeKind.isGraph placed.position.line :: placed.statement.refs.map .refer
  | .attrStatement target attrs => [.write (Slot.ofTarget target) attrs]
  | .assignment key value => [.write .attrs (Table.ofList [(key, value)])]
  | statement => statement.refs.map .refer

def callsOf (statements : List Placed) : List Nesting.Call := statements.flatMap Placed.calls

@[simp] theorem callsOf_concat (before : List Placed) (placed : Placed) :
    callsOf (before ++ [placed]) = callsOf before ++ placed.calls := by simp [callsOf]

-- The layers that the statements leave open, innermost first.
def layersOf (statements : List Placed) : List Layer := Layer.attemptAll [] (callsOf statements)

namespace Nesting

theorem attemptAll_append (nesting : Nesting) (earlier later : List Call) :
    nesting.attemptAll (earlier ++ later) = (nesting.attemptAll earlier).attemptAll later := List.foldl_append

end Nesting

namespace Narration

theorem graphNode_nesting (narration : Narration) (name : String) :
    (narration.graphNode name).2.nesting = narration.nesting.addMember (narration.graphNode name).1 := by
  rw [graphNode_eq]
  unfold received
  split <;> rfl

theorem mentionAll_nesting {narration : Narration} (held : Held narration) (plain : narration.roster.Plain)
    (names : List String) :
    (narration.mentionAll names).nesting = narration.nesting.attemptAll (names.map .refer) := by
  induction names generalizing narration with
  | nil => rfl
  | cons name rest ih =>
    obtain ⟨id, first⟩ := graphNode_referred held plain name
    have nesting := graphNode_nesting narration name
    rw [id] at nesting
    have later := ih first.refers.held first.plain
    rw [nesting] at later
    exact later

theorem declared_nesting {narration after : Narration} {said : Roster.Declared}
    (told : narration.declared said = .ok after) : after.nesting = narration.nesting.addMember said.id := by
  unfold declared at told
  split at told
  · cases told
    rfl
  · split at told
    · cases told
      rfl
    · dsimp only at told
      split at told
      · cases told
      · cases told
        rfl

theorem left_nesting {narration : Narration} (held : Held narration) {top : Frame} {outer : List Frame}
    (frames : narration.nesting.frames = top :: outer) (line : Int) :
    (narration.left top outer).nesting = narration.nesting.attempt (.leave "\x7d" ScopeKind.isGraph line) := by
  simp [Nesting.attempt, Nesting.perform, leave_eq held frames, Except.map, left]

theorem setDefaults_nesting (narration : Narration) (target : String) (attrs : Attrs) :
    (narration.setDefaults target attrs).nesting = narration.nesting.attempt (.write (Slot.ofTarget target) attrs) := by
  have same : ∀ frame : Frame, (if target = "node" then { frame with nodeDefaults := frame.nodeDefaults.merge attrs }
      else if target = "edge" then { frame with edgeDefaults := frame.edgeDefaults.merge attrs }
      else { frame with attrs := frame.attrs.merge attrs }) = frame.write attrs (Slot.ofTarget target) := by
    intro frame
    unfold Slot.ofTarget
    split
    · rfl
    · split <;> rfl
  simp [setDefaults, same, Nesting.attempt, Nesting.perform]

theorem tell_nesting {narration after : Narration} {placed : Placed} (held : Held narration)
    (plain : narration.roster.Plain) (graph : placed.statement.ofGraph = true)
    (told : narration.tell placed = .ok after) : after.nesting = narration.nesting.attemptAll placed.calls := by
  cases tell_goes held plain graph told with
  | begins | enters => rfl
  | ends place endpoints attrs top frames => exact left_nesting held frames place.line
  | leaves place endpoints attrs top outer frames => exact left_nesting held frames place.line
  | continues place endpoints operators attrs top outer frames some_ =>
    have outside : Held (narration.left top outer) := (leave_held held frames).1
    have mentioned := mentionAll_nesting outside plain (endpoints.flatten.map NodeRef.name)
    rw [left_nesting held frames place.line] at mentioned
    have refs : (Statement.scopeClose endpoints operators attrs).refs = endpoints.flatten.map NodeRef.name := by
      simp [Statement.refs, some_]
    simp only [Placed.calls, refs]
    exact mentioned
  | joins place endpoints operators attrs body => exact mentionAll_nesting held plain _
  | states place node attrs own after body readable told =>
    have id : (narration.roster.declare (narration.stated node attrs own place.line)).id = node.name :=
      (Roster.Plain.declare held.sound plain rfl).1
    rw [declared_nesting told, id]
    rfl
  | sets place target attrs body => exact setDefaults_nesting narration target attrs
  | assigns place key value body => rfl

-- Where the scopes of a graph stand.
def Layered (narration : Narration) (before : List Placed) : Prop :=
  narration.nesting = Nesting.empty.attemptAll (callsOf before)

namespace Layered
variable {narration after : Narration} {before : List Placed} {placed : Placed}

theorem tell (layered : Layered narration before) (held : Held narration) (plain : narration.roster.Plain)
    (graph : placed.statement.ofGraph = true) (told : narration.tell placed = .ok after) :
    Layered after (before ++ [placed]) := by
  unfold Layered at layered ⊢
  rw [tell_nesting held plain graph told, layered, callsOf_concat, Nesting.attemptAll_append]

theorem represents (layered : Layered narration before) : Represents narration.nesting.frames (layersOf before) := by
  rw [show narration.nesting = _ from layered]
  exact Represents.outside.attemptAll (callsOf before)

theorem nodeAttrs (layered : Layered narration before) (key : String) :
    narration.nesting.nodeAttrs.get? key = Layer.nodeAttr? (layersOf before) key := layered.represents.nodeAttrs key

theorem depth (layered : Layered narration before) : narration.nesting.depth = (layersOf before).length := by
  have shapes := congrArg List.length layered.represents.shapes
  simpa [Nesting.depth] using shapes

end Layered

end Narration
end DiagramStream
