import DiagramStream.Proofs.Canvas
import DiagramStream.Proofs.Exchange.Acceptance
import DiagramStream.Proofs.Exchange.Stream

/-!
How deeply the participants are active. Main statement: what the events say of it, what is drawn of it in the end
and what the lifelines hold is all one count, of activations less deactivations since a participant was last
destroyed, and that count is never negative.
-/

namespace DiagramStream

-- Counting

namespace Lifelines.Move

def raises (id : String) : Move → Bool
  | .raise other _ => other = id
  | _ => false

def lowers (id : String) : Move → Bool
  | .lower other => other = id
  | _ => false

def clears (id : String) : Move → Bool
  | .clear other => other = id
  | _ => false

-- A first activation, or a destruction of somebody who never was active, puts a lifeline in its place.
def begins : Move → Bool
  | .lower _ => false
  | _ => true

end Lifelines.Move

open Lifelines (Move)

-- Activations of a node less its deactivations, since it was last destroyed.
def balance (id : String) (moves : List Move) : Int :=
  let since := moves.reverse.takeWhile fun move => !move.clears id
  since.countP (·.raises id) - since.countP (·.lowers id)

theorem balance_concat (id : String) (moves : List Move) (move : Move) :
    balance id (moves ++ [move]) =
      if move.clears id then 0
      else balance id moves + (if move.raises id then 1 else 0) - (if move.lowers id then 1 else 0) := by
  unfold balance
  rw [List.reverse_append, List.reverse_singleton, List.singleton_append]
  by_cases cleared : move.clears id = true
  · simp [cleared]
  · simp only [List.takeWhile_cons, cleared, Bool.not_false, if_true, List.countP_cons, Bool.false_eq_true, if_false]
    split <;> split <;> push_cast <;> omega

theorem balance_other {id : String} {move : Move} (other : move.id ≠ id) (moves : List Move) :
    balance id (moves ++ [move]) = balance id moves := by
  rw [balance_concat]
  cases move <;> simp_all [Move.clears, Move.raises, Move.lowers, Move.id]

-- Who was ever activated or destroyed, each in the place of the first time.
def begun (moves : List Move) : List String := ((moves.filter Move.begins).map Move.id).eraseDups

theorem mem_begun {id : String} {moves : List Move} :
    id ∈ begun moves ↔ ∃ move ∈ moves, move.begins = true ∧ move.id = id := by
  simp [begun, and_assoc]

theorem begun_concat (moves : List Move) (move : Move) :
    begun (moves ++ [move]) =
      if move.begins = true ∧ move.id ∉ begun moves then begun moves ++ [move.id] else begun moves := by
  unfold begun
  rw [List.filter_append, List.map_append, List.eraseDups_append]
  by_cases begins : move.begins = true
  · by_cases known : move.id ∈ (moves.filter Move.begins).map Move.id
    · simp [begins, List.removeAll, known]
    · simp [begins, List.removeAll, known, List.eraseDups_cons]
  · simp [begins]

-- Only who is active is deactivated.
theorem lowers_active {before : List Placed} {placed : Placed} (fine : offenceAfter? before placed = none)
    {id : String} (lowered : placed.statement.move? (rosterOf (before ++ [placed])) = some (.lower id)) :
    0 < activeDepth before id := by
  obtain ⟨position, statement⟩ := placed
  cases statement with
  | message source arrow target label mark =>
    cases known : Arrow.ofText? arrow with
    | none => simp [Statement.move?, known] at lowered
    | some kind => exact ((fits_message known).1 fine).lowers id lowered
  | deactivation name => exact (fits_deactivation.1 fine).lowers id lowered
  | _ => cases lowered

theorem depthAfter_balance {id : String} {move : Move} {moves : List Move} {depth : Nat}
    (level : (depth : Int) = balance id moves) (active : move = .lower id → 0 < depth) :
    (move.depthAfter id depth : Int) = balance id (moves ++ [move]) := by
  by_cases same : move.id = id
  · subst same
    rw [balance_concat, ← level]
    cases move with
    | raise id attrs => simp [Move.depthAfter, Move.id, Move.clears, Move.raises, Move.lowers]
    | lower id =>
      have some_ := active rfl
      simp only [Move.depthAfter, Move.id, Move.clears, Move.raises, Move.lowers, if_true, decide_true]
      simp only [Bool.false_eq_true, if_false]
      omega
    | clear id => simp [Move.depthAfter, Move.id, Move.clears]
  · rw [balance_other same, ← level]
    cases move <;> simp_all [Move.depthAfter, Move.id]

theorem activeDepth_balance {statements : List Placed} (clean : Clean offenceAfter? statements) (id : String) :
    (activeDepth statements id : Int) = balance id (movesOf statements) := by
  induction statements using List.reverseRecOn with
  | nil => rfl
  | append_singleton before placed ih =>
    obtain ⟨earlier, fine⟩ := clean_concat.1 clean
    rw [activeDepth_concat, movesOf_concat]
    cases made : placed.statement.move? (rosterOf (before ++ [placed])) with
    | none => simpa using ih earlier
    | some move =>
      refine depthAfter_balance (ih earlier) ?_
      rintro rfl
      exact lowers_active fine made

-- Lifelines

namespace Lifelines

theorem depth_pos {lifelines : Lifelines} {id : String} (active : 0 < lifelines.depth id) :
    id ∈ lifelines.depths.keys := by
  unfold depth at active
  cases held : lifelines.depths.get? id with
  | none => simp [held] at active
  | some depth => exact Table.mem_keys_of_get? held

theorem get?_eq (lifelines : Lifelines) (id : String) :
    lifelines.depths.get? id = if id ∈ lifelines.depths.keys then some (lifelines.depth id) else none := by
  unfold depth
  cases held : lifelines.depths.get? id with
  | none => rw [if_neg ((Table.get?_eq_none_iff _ _).1 held)]
  | some depth => rw [if_pos (Table.mem_keys_of_get? held)]; rfl

theorem active_eq (lifelines : Lifelines) :
    lifelines.active = lifelines.depths.keys.filter fun id => 0 < lifelines.depth id := by
  unfold active Table.keys Table.keysOf
  rw [List.filter_map]
  refine congrArg (List.map Prod.fst) (List.filter_congr ?_)
  intro entry listed
  have held : lifelines.depths.get? entry.1 = some entry.2 := (Table.get?_eq_some_iff _ _ _).2 listed
  simp [depth, held]

theorem play_keys {lifelines : Lifelines} {move : Move} (active : ∀ id, move = .lower id → 0 < lifelines.depth id) :
    (lifelines.play move).depths.keys =
      if move.begins = true ∧ move.id ∉ lifelines.depths.keys then lifelines.depths.keys ++ [move.id]
      else lifelines.depths.keys := by
  have written (id : String) (depth : Nat) : (lifelines.depths.set id depth).keys =
      if id ∉ lifelines.depths.keys then lifelines.depths.keys ++ [id] else lifelines.depths.keys := by
    rw [Table.keys_set]
    split <;> simp_all
  cases move with
  | raise id attrs => simp [play, activate, written, Move.begins, Move.id]
  | lower id => simp [play, written, Move.begins, depth_pos (active id rfl)]
  | clear id => simp [play, destroy, written, Move.begins, Move.id]

theorem change_level (lifelines : Lifelines) (move : Move) :
    (lifelines.change move).get? "activation" = some (toString ((lifelines.play move).depth move.id)) := by
  cases move with
  | raise id attrs => simp [change, play, activate, Move.id, set_depth]
  | lower id => simp [change, play, Move.id, set_depth, Table.ofList]
  | clear id =>
    simp only [change, play, destroy, Move.id, set_depth, if_true, Table.ofList, List.foldl_cons, List.foldl_nil,
      Table.get?_set_self]
    rfl

end Lifelines

-- What is told

-- An event that says nothing under a key.
def Event.Silent (key : String) : Event → Prop
  | .addNode node => key ∉ node.attrs.keys
  | .updateNode _ change => key ∉ change.keys
  | _ => True

theorem silent_nodesOf {key : String} {events : List Event} (silent : ∀ event ∈ events, event.Silent key) :
    ∀ node ∈ nodesOf events, key ∉ node.attrs.keys := by
  intro node member
  obtain ⟨event, listed, adds⟩ := List.mem_filterMap.1 member
  have quiet := silent event listed
  cases event <;> cases adds
  exact quiet

theorem silent_writtenTo {key : String} {events : List Event} (silent : ∀ event ∈ events, event.Silent key) :
    writtenTo key events = [] := by
  refine List.filterMap_eq_nil_iff.2 ?_
  intro event listed
  have quiet := silent event listed
  cases event with
  | updateNode id change => simp [Event.written?, (Table.get?_eq_none_iff _ _).2 quiet]
  | _ => rfl

namespace Roster
variable {roster : Roster} {key : String}

theorem arrivals_attrs {names : List String} :
    ∀ member ∈ roster.arrivals names, member.node.attrs = Table.empty := by
  induction names generalizing roster with
  | nil => intro member listed; cases listed
  | cons name rest ih =>
    intro member listed
    rcases List.mem_append.1 listed with new | later
    · have created := Option.mem_toList.1 new
      unfold mention at created
      split at created <;> cases created
      rfl
    · exact ih member later

theorem declare_attrs {said : Declaration} {member : Member} (created : (roster.declare said).created = some member) :
    member.node.attrs = said.attrs := by
  unfold declare at created
  split at created <;> cases created
  rfl

theorem declare_keys {said : Declaration} (changed : key ∈ (roster.declare said).change.keys) :
    key = "kind" ∨ key = "label" ∨ key ∈ said.attrs.keys := by
  unfold declare at changed
  split at changed
  · cases changed
  · exact revise_keys changed

theorem introduction_silent {member : Member} (order : key ≠ "order") (plain : key ∉ member.node.attrs.keys) :
    (Narration.introduction member).Silent key := by
  intro listed
  rcases (Table.mem_keys_set _ _ _ _).1 listed with same | own
  · exact order same
  · exact plain own

-- The news of a roster say of an attribute only what a declaration says of it.
theorem news_silent {placed : Placed} (order : key ≠ "order") (kind : key ≠ "kind") (label : key ≠ "label")
    (unsaid : ∀ said, placed.said? = some said → key ∉ said.attrs.keys) :
    ∀ event ∈ roster.news placed, event.Silent key := by
  intro event member
  unfold news at member
  split at member
  · rename_i said shape
    unfold Declared.news at member
    split at member
    · rename_i arrival created
      cases List.mem_singleton.1 member
      exact introduction_silent order (declare_attrs created ▸ unsaid said shape)
    · split at member
      · cases member
      · cases List.mem_singleton.1 member
        intro listed
        rcases declare_keys listed with same | same | own
        · exact kind same
        · exact label same
        · exact unsaid said shape own
  · obtain ⟨arrival, listed, rfl⟩ := List.mem_map.1 member
    refine introduction_silent order ?_
    rw [arrivals_attrs arrival listed]
    simp

end Roster

-- A declaration that leaves the activation alone.
def Statement.Unlevelled : Statement → Prop
  | .declaration _ _ _ _ attrs => "activation" ∉ attrs.keys
  | _ => True

theorem said_unlevelled {placed : Placed} (unlevelled : placed.statement.Unlevelled) {said : Roster.Declaration}
    (shape : placed.said? = some said) : "activation" ∉ said.attrs.keys := by
  obtain ⟨position, statement⟩ := placed
  cases statement with
  | declaration kind name otherName label attrs =>
    cases shape
    dsimp only
    split
    · exact unlevelled
    · rw [Table.mem_keys_set]
      rintro (same | listed)
      · exact absurd same (by decide)
      · exact unlevelled listed
  | _ => cases shape

-- How deeply the node is active that a statement activates, deactivates or destroys, with that statement.
def levelAfter? (before : List Placed) (placed : Placed) : Option (String × String) :=
  (placed.statement.move? (rosterOf (before ++ [placed]))).map fun move =>
    (move.id, toString (balance move.id (movesOf (before ++ [placed]))))

def levels (statements : List Placed) : List (String × String) :=
  gather (fun before placed => (levelAfter? before placed).toList) statements

@[simp] theorem levels_concat (before : List Placed) (placed : Placed) :
    levels (before ++ [placed]) = levels before ++ (levelAfter? before placed).toList := gather_concat ..

-- The last that was said of a node holds until the end.
theorem find?_levels (statements : List Placed) (id : String) :
    Table.find? id (levels statements).reverse =
      if id ∈ (movesOf statements).map Move.id then some (toString (balance id (movesOf statements))) else none := by
  induction statements using List.reverseRecOn with
  | nil => rfl
  | append_singleton before placed ih =>
    rw [levels_concat, movesOf_concat, List.reverse_append, levelAfter?, movesOf_concat]
    cases made : placed.statement.move? (rosterOf (before ++ [placed])) with
    | none => simpa using ih
    | some move =>
      by_cases same : move.id = id
      · subst same
        simp [Table.find?]
      · simp [Table.find?, same, ih, balance_other same, Ne.symm same]

namespace Narration

theorem echo_silent (narration : Narration) {placed : Placed} (unlevelled : placed.statement.Unlevelled) :
    ∃ earlier later, narration.echo placed = earlier
        ++ (placed.statement.move? (narration.roster.hear placed)).toList.map (fun move =>
          .updateNode move.id (narration.lifelines.change move)) ++ later ∧
      ∀ event ∈ earlier ++ later, event.Silent "activation" := by
  refine ⟨_, _, by simp only [echo, List.append_assoc]; rw [← List.append_assoc], ?_⟩
  intro event member
  simp only [List.mem_append] at member
  rcases member with (news | edge) | note | marker
  · exact Roster.news_silent (by decide) (by decide) (by decide) (fun said shape => said_unlevelled unlevelled shape)
      event news
  · obtain ⟨made, -, rfl⟩ := List.mem_map.1 edge
    trivial
  · obtain ⟨targets, side, text, name, -, -, rfl⟩ := mem_notes note
    have keys : (Table.ofList [("note", text), ("note_position", side)] : Attrs).keys = ["note", "note_position"] := rfl
    rw [Event.Silent, keys]
    decide
  · rcases marker?_eq_some (Option.mem_toList.1 marker) with rfl | rfl <;> trivial

structure Levelled (narration : Narration) (before : List Placed) : Prop where
  follows : Follows narration before
  clean : Clean offenceAfter? before
  keys : narration.lifelines.depths.keys = begun (movesOf before)
  moved : ∀ move ∈ movesOf before, move.id ∈ begun (movesOf before)
  plain : ∀ node ∈ nodesOf narration.events, "activation" ∉ node.attrs.keys
  written : writtenTo "activation" narration.events = levels before

theorem Levelled.depth {narration : Narration} {before : List Placed} (levelled : Levelled narration before)
    (id : String) : (narration.lifelines.depth id : Int) = balance id (movesOf before) := by
  rw [levelled.follows.depth]
  exact activeDepth_balance levelled.clean id

theorem Levelled.lowers {narration : Narration} {before : List Placed} (levelled : Levelled narration before)
    {placed : Placed} (fine : offenceAfter? before placed = none) {move : Move}
    (made : placed.statement.move? (rosterOf (before ++ [placed])) = some move) :
    ∀ id, move = .lower id → 0 < narration.lifelines.depth id := by
  rintro id rfl
  rw [levelled.follows.depth]
  exact lowers_active fine made

theorem advance_moved {narration : Narration} {before : List Placed} (levelled : Levelled narration before)
    {placed : Placed} (fine : offenceAfter? before placed = none) :
    (narration.advance placed).lifelines.depths.keys = begun (movesOf (before ++ [placed])) ∧
      ∀ move ∈ movesOf (before ++ [placed]), move.id ∈ begun (movesOf (before ++ [placed])) := by
  have roster : narration.roster.hear placed = rosterOf (before ++ [placed]) :=
    (advance_follows levelled.follows fine).roster
  rw [movesOf_concat]
  simp only [advance, roster]
  cases made : placed.statement.move? (rosterOf (before ++ [placed])) with
  | none => simpa using ⟨levelled.keys, levelled.moved⟩
  | some move =>
    have active := levelled.lowers fine made
    have keys := Lifelines.play_keys active
    rw [levelled.keys, ← begun_concat] at keys
    refine ⟨keys, ?_⟩
    intro other listed
    rw [Option.toList_some, ← keys, Lifelines.play_keys active, levelled.keys]
    rcases List.mem_append.1 listed with old | new
    · have known := levelled.moved other old
      split
      · exact List.mem_append_left _ known
      · exact known
    · cases List.mem_singleton.1 new
      split
      · simp
      · rename_i known
        cases move with
        | lower id => exact levelled.keys ▸ Lifelines.depth_pos (active id rfl)
        | _ => simpa [Move.begins] using known

theorem advance_written {narration : Narration} {before : List Placed} (levelled : Levelled narration before)
    {placed : Placed} (unlevelled : placed.statement.Unlevelled) (fine : offenceAfter? before placed = none) :
    (∀ node ∈ nodesOf (narration.echo placed), "activation" ∉ node.attrs.keys) ∧
      writtenTo "activation" (narration.echo placed) = (levelAfter? before placed).toList := by
  obtain ⟨earlier, later, echo, silent⟩ := echo_silent narration unlevelled
  have first : ∀ event ∈ earlier, event.Silent "activation" := fun event member => silent event (by simp [member])
  have last : ∀ event ∈ later, event.Silent "activation" := fun event member => silent event (by simp [member])
  have follows := advance_follows levelled.follows fine
  have level := activeDepth_balance (clean_concat.2 ⟨levelled.clean, fine⟩)
  have roster : narration.roster.hear placed = rosterOf (before ++ [placed]) := follows.roster
  have depth := follows.depth
  rw [echo, levelAfter?]
  simp only [advance, roster] at depth ⊢
  refine ⟨?_, ?_⟩
  · intro node member
    rw [nodesOf_append, nodesOf_append] at member
    simp only [List.mem_append] at member
    rcases member with (news | update) | rest
    · exact silent_nodesOf first node news
    · simp [nodesOf] at update
    · exact silent_nodesOf last node rest
  · rw [writtenTo_append, writtenTo_append, silent_writtenTo first, silent_writtenTo last]
    cases made : placed.statement.move? (rosterOf (before ++ [placed])) with
    | none => rfl
    | some move =>
      rw [made] at depth
      have now : ((narration.lifelines.play move).depth move.id : Int) =
          balance move.id (movesOf (before ++ [placed])) := by
        rw [← level, ← depth]
        rfl
      have told : writtenTo "activation" [.updateNode move.id (narration.lifelines.change move)] =
          [(move.id, toString ((narration.lifelines.play move).depth move.id))] := by
        simp [writtenTo, Event.written?, Lifelines.change_level]
      simp only [Option.toList_some, List.map_singleton, told, Option.map_some, ← now]
      rfl

theorem advance_levelled {narration : Narration} {before : List Placed} (levelled : Levelled narration before)
    {placed : Placed} (unlevelled : placed.statement.Unlevelled) (fine : offenceAfter? before placed = none) :
    Levelled (narration.advance placed) (before ++ [placed]) := by
  obtain ⟨keys, moved⟩ := advance_moved levelled fine
  obtain ⟨plain, written⟩ := advance_written levelled unlevelled fine
  have events : (narration.advance placed).events = narration.events ++ narration.echo placed := rfl
  refine ⟨advance_follows levelled.follows fine, clean_concat.2 ⟨levelled.clean, fine⟩, keys, moved, ?_, ?_⟩
  · intro node member
    rw [events, nodesOf_append] at member
    rcases List.mem_append.1 member with old | new
    · exact levelled.plain node old
    · exact plain node new
  · rw [events, writtenTo_append, levelled.written, written, levels_concat]

theorem opening_levelled (statements : List Placed) (batching : Batching) :
    Levelled (opening ⟨.sequence, statements⟩ batching) [] := by
  refine ⟨opening_follows statements batching, clean_nil, rfl, ?_, ?_, ?_⟩
  · intro move listed
    cases listed
  · intro node member
    cases batching <;> cases member
  · cases batching <;> rfl

theorem ofDocument_activation {statements : List Placed} {batching : Batching} {narration : Narration}
    (spoken : ∀ placed ∈ statements, placed.statement.ofSequence = true)
    (unlevelled : ∀ placed ∈ statements, placed.statement.Unlevelled)
    (told : ofDocument ⟨.sequence, statements⟩ batching = .ok narration) (name : String) (format : Option String) :
    writtenTo "activation" narration.events = levels statements ∧
    (∀ before, before <+: statements → ∀ id, 0 ≤ balance id (movesOf before)) ∧
    (∀ node ∈ (Diagram.ofEvents narration.events name format).nodes, node.attrs.get? "activation" =
      if node.id ∈ begun (movesOf statements) then some (toString (narration.lifelines.depth node.id)) else none) ∧
    (∀ id, (narration.lifelines.depth id : Int) = balance id (movesOf statements)) ∧
    narration.lifelines.active = (begun (movesOf statements)).filter fun id => 0 < balance id (movesOf statements) := by
  have whole := told
  obtain ⟨last, run, closed, rfl⟩ := (ofDocument_ok_iff _ _ _).1 told
  have decides : Decides offenceAfter?
      (fun placed => placed.statement.ofSequence = true ∧ placed.statement.Unlevelled) Levelled :=
    decides_of_advance (fun _ allowed => allowed.1) (fun _ _ levelled => levelled.follows)
      fun _ _ _ levelled allowed fine => advance_levelled levelled allowed.2 fine
  obtain ⟨clean, levelled⟩ := decides.clean_of_told (opening_levelled statements batching)
    (fun placed member => ⟨spoken placed member, unlevelled placed member⟩) run
  have nothing : last.heldBack = [] := by simp [heldBack, levelled.follows.format]
  have written : writtenTo "activation"
      (last.events ++ last.heldBack ++ if last.batching = .diagram then [.batchEnd] else []) = levels statements := by
    rw [nothing, List.append_nil, writtenTo_append, levelled.written]
    split <;> exact List.append_nil _
  have plain : ∀ node ∈ nodesOf (last.events ++ last.heldBack
      ++ if last.batching = .diagram then [.batchEnd] else []), "activation" ∉ node.attrs.keys := by
    rw [nothing, List.append_nil, nodesOf_append]
    split <;> simpa [nodesOf] using levelled.plain
  refine ⟨written, ?_, ?_, levelled.depth, ?_⟩
  · intro before begins id
    rw [← activeDepth_balance (clean.earlier begins)]
    exact Int.natCast_nonneg _
  · intro node drawn
    obtain ⟨intake, reads, -⟩ := ofDocument_announced rfl spoken whole
    have moved : node.id ∈ (movesOf statements).map Move.id ↔ node.id ∈ begun (movesOf statements) := by
      constructor
      · rintro listed
        obtain ⟨move, made, same⟩ := List.mem_map.1 listed
        exact same ▸ levelled.moved move made
      · rintro listed
        obtain ⟨move, made, -, same⟩ := mem_begun.1 listed
        exact List.mem_map.2 ⟨move, made, same⟩
    rw [registered_get? (by decide) (by decide) reads plain (mem_ofEvents_nodes.1 drawn), written, find?_levels,
      if_congr moved (congrArg (fun level => some (toString level)) (levelled.depth node.id).symm) rfl]
    rfl
  · rw [Lifelines.active_eq, levelled.keys]
    refine List.filter_congr ?_
    intro id _
    simp [← levelled.depth id]

-- A participant is activated under two names, once by a reversed arrow, and destroyed; another one stays active.
theorem ofDocument_activation_destroyed :
    let statements : List Placed :=
      [⟨⟨1, 1⟩, .declaration "actor" "a" (some "b") none Table.empty⟩,
       ⟨⟨2, 1⟩, .message "c" "->" "a" none (some "++")⟩,
       ⟨⟨3, 1⟩, .message "b" "<-" "c" none (some "++")⟩,
       ⟨⟨4, 1⟩, .deactivation "b"⟩,
       ⟨⟨5, 1⟩, .destruction "a"⟩,
       ⟨⟨6, 1⟩, .activation "c" Table.empty⟩]
    (∀ placed ∈ statements, placed.statement.ofSequence = true) ∧
    (∀ placed ∈ statements, placed.statement.Unlevelled) ∧
    ∃ narration, ofDocument ⟨.sequence, statements⟩ .diagram = .ok narration ∧
      writtenTo "activation" narration.events = [("a", "1"), ("a", "2"), ("a", "1"), ("a", "0"), ("c", "1")] ∧
      narration.lifelines.active = ["c"] := by
  intro statements
  have spoken : ∀ placed ∈ statements, placed.statement.ofSequence = true := by decide
  have unlevelled : ∀ placed ∈ statements, placed.statement.Unlevelled := by
    simp only [statements, List.mem_cons, List.not_mem_nil, or_false, forall_eq_or_imp, forall_eq]
    exact ⟨by simp [Statement.Unlevelled], trivial, trivial, trivial, trivial, trivial⟩
  have taken : (ofDocument ⟨.sequence, statements⟩ .diagram).toOption.bind (fun _ => some ()) = some () := by
    decide +kernel
  have counted : levels statements = [("a", "1"), ("a", "2"), ("a", "1"), ("a", "0"), ("c", "1")] := by
    decide +kernel
  have left : ((begun (movesOf statements)).filter fun id => 0 < balance id (movesOf statements)) = ["c"] := by
    decide +kernel
  obtain ⟨narration, told, -⟩ := ok_of_seen taken
  obtain ⟨written, -, -, -, active⟩ := ofDocument_activation spoken unlevelled told "" none
  exact ⟨spoken, unlevelled, narration, told, written.trans counted, active.trans left⟩

end Narration
end DiagramStream
