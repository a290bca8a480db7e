import DiagramStream.Proofs.Nesting
import DiagramStream.Narration.Document
import DiagramStream.Proofs.Roster
import DiagramStream.Proofs.Statement

/-!
One statement of a sequence diagram, part by part: what it does to the roster, to the lifelines and to the
open blocks, what it tells, and what can be wrong with it. Main statement: telling it is nothing else.
-/

namespace DiagramStream

-- Names

-- In the order in which the statement uses them. A declaration uses its names in a way of its own.
def Statement.uses : Statement → List String
  | .message source _ target _ _ => [source, target]
  | .activation name _ => [name]
  | .deactivation name => [name]
  | .destruction name => [name]
  | .note targets _ _ => targets
  | _ => []

def Placed.said? (placed : Placed) : Option Roster.Declaration :=
  match placed.statement with
  | .declaration kind name otherName label attrs =>
    some ⟨name, some kind, label, otherName,
      match Roster.given otherName with
        | none => attrs
        | some other => attrs.set "alias" other,
      placed.position.line⟩
  | _ => none

namespace Roster
variable {roster : Roster} {name id : String}

def mentions (roster : Roster) : List String → Roster
  | [] => roster
  | name :: rest => (roster.mention name Table.empty).roster.mentions rest

-- Those among the names that the roster did not know.
def arrivals (roster : Roster) : List String → List Member
  | [] => []
  | name :: rest =>
    (roster.mention name Table.empty).created.toList ++ (roster.mention name Table.empty).roster.arrivals rest

-- What a name stands for; one that was just mentioned always stands for something.
def idOf (roster : Roster) (name : String) : String := (roster.id? name).getD name

def hear (roster : Roster) (placed : Placed) : Roster :=
  match placed.said? with
  | some said => (roster.declare said).roster
  | none => roster.mentions placed.statement.uses

def Declared.news (said : Declared) : Option Event :=
  match said.created with
  | some member => some (Narration.introduction member)
  | none => if said.change.isEmpty then none else some (.updateNode said.id said.change)

-- What there is to tell about the roster.
def news (roster : Roster) (placed : Placed) : List Event :=
  match placed.said? with
  | some said => (roster.declare said).news.toList
  | none => (roster.arrivals placed.statement.uses).map Narration.introduction

-- Nodes and changes of nodes are all that there is to tell about a roster.
theorem mem_news {placed : Placed} {event : Event} (member : event ∈ roster.news placed) :
    (∃ node, event = .addNode node) ∨ ∃ id change, event = .updateNode id change := by
  unfold news at member
  split at member
  · unfold Declared.news at member
    split at member
    · exact .inl ⟨_, List.mem_singleton.1 member⟩
    · split at member
      · cases member
      · exact .inr ⟨_, _, List.mem_singleton.1 member⟩
  · obtain ⟨arrival, -, rfl⟩ := List.mem_map.1 member
    exact .inl ⟨_, rfl⟩

theorem mentions_sound (sound : roster.Sound) (names : List String) : (roster.mentions names).Sound := by
  induction names generalizing roster with
  | nil => exact sound
  | cons name rest ih => exact ih (mention_grows sound name _).sound

theorem mentions_keeps (sound : roster.Sound) (bound : roster.id? name = some id) (names : List String) :
    (roster.mentions names).id? name = some id := by
  induction names generalizing roster with
  | nil => exact bound
  | cons other rest ih => exact ih (mention_grows sound other _).sound (mention_keeps sound bound other _)

theorem mentions_id? (sound : roster.Sound) {names : List String} (used : name ∈ names) :
    ∃ id, (roster.mentions names).id? name = some id := by
  induction names generalizing roster with
  | nil => cases used
  | cons other rest ih =>
    have next := (mention_grows sound other Table.empty).sound
    rcases List.mem_cons.1 used with rfl | later
    · exact ⟨_, mentions_keeps next (mention_id? sound name Table.empty) rest⟩
    · exact ih next later

theorem hear_sound (sound : roster.Sound) (placed : Placed) : (roster.hear placed).Sound := by
  unfold hear
  split
  · exact (declare_grows sound _).sound
  · exact mentions_sound sound _

theorem idOf_eq (bound : roster.id? name = some id) : roster.idOf name = id := by simp [idOf, bound]

-- Every name that a statement uses is bound once it was heard.
theorem hear_id? (sound : roster.Sound) {placed : Placed} (used : name ∈ placed.statement.uses) :
    (roster.hear placed).id? name = some ((roster.hear placed).idOf name) := by
  have quiet : placed.said? = none := by
    unfold Placed.said?
    cases shape : placed.statement <;> simp_all [Statement.uses]
  obtain ⟨id, bound⟩ := mentions_id? sound used
  simp [hear, quiet, idOf, bound]

end Roster

-- Lifelines

def Arrow.ends (arrow : Arrow) (first second : String) : String × String :=
  if arrow.reversed then (second, first) else (first, second)

namespace Lifelines

inductive Move where
  | raise (id : String) (attrs : Attrs)
  | lower (id : String)
  | clear (id : String)

def play (lifelines : Lifelines) : Move → Lifelines
  | .raise id attrs => (lifelines.activate id attrs).1
  | .lower id => ⟨lifelines.depths.set id (lifelines.depth id - 1)⟩
  | .clear id => (lifelines.destroy id).1

def Move.id : Move → String
  | .raise id _ => id
  | .lower id => id
  | .clear id => id

-- What a move changes in the node.
def change (lifelines : Lifelines) : Move → Attrs
  | .raise id attrs => (lifelines.activate id attrs).2
  | .lower id => Table.ofList [("activation", toString (lifelines.depth id - 1))]
  | .clear id => (lifelines.destroy id).2

end Lifelines

-- The mark `++` raises the end that the arrow points to, `--` lowers the one it comes from.
def Statement.move? (roster : Roster) : Statement → Option Lifelines.Move
  | .message source arrow target _ mark =>
    (Arrow.ofText? arrow).bind fun kind =>
      let ends := kind.ends (roster.idOf source) (roster.idOf target)
      if mark = some "++" then some (.raise ends.2 Table.empty)
      else if mark = some "--" then some (.lower ends.1)
      else none
  | .activation name attrs => some (.raise (roster.idOf name) attrs)
  | .deactivation name => some (.lower (roster.idOf name))
  | .destruction name => some (.clear (roster.idOf name))
  | _ => none

-- Blocks

def Nesting.top? (nesting : Nesting) : Option (ScopeKind × Int) :=
  nesting.innermost?.map fun frame => (frame.kind, frame.line)

-- A statement that is refused opens and closes nothing.
def Nesting.hear (nesting : Nesting) (placed : Placed) : Nesting :=
  match placed.statement with
  | .blockOpen kind condition =>
    match ScopeKind.ofName? kind with
    | none => nesting
    | some kind => (nesting.enter kind condition placed.position.line).1
  | .blockElse condition =>
    match nesting.branch condition ScopeKind.isBranching placed.position.line with
    | .error _ => nesting
    | .ok (nesting, _) => nesting
  | .blockEnd =>
    match nesting.leave "end" ScopeKind.isBlock placed.position.line with
    | .error _ => nesting
    | .ok (nesting, _) => nesting
  | _ => nesting

-- What can be wrong with a statement: `depth` tells how deeply a node is active, `top?` which block is
-- innermost and where its branch begins. The arrow of a message comes before its mark.
def offence? (roster : Roster) (depth : String → Nat) (top? : Option (ScopeKind × Int)) (placed : Placed) :
    Option Failure :=
  let line := placed.position.line
  let idle (id : String) : Option Failure := if depth id = 0 then some (.notActive id line) else none
  let unfit (closer : String) (accepts : ScopeKind → Bool) : Option Failure :=
    match top? with
    | none => some (.nothingToClose closer line)
    | some (kind, opened) => if accepts kind then none else some (.wrongCloser closer line kind opened)
  match placed.statement with
  | .message source arrow target _ mark =>
    match Arrow.ofText? arrow with
    | none => some (.unknownArrow arrow line)
    | some kind =>
      if mark = some "--" then
        idle (kind.ends ((roster.hear placed).idOf source) ((roster.hear placed).idOf target)).1
      else none
  | .deactivation name => idle ((roster.hear placed).idOf name)
  | .blockOpen kind _ => if ScopeKind.ofName? kind = none then some (.unknownScopeKind kind) else none
  | .blockElse _ => unfit "else" ScopeKind.isBranching
  | .blockEnd => unfit "end" ScopeKind.isBlock
  | _ => none

-- Events

namespace Narration

-- The edge that a message becomes.
def edge? (narration : Narration) (placed : Placed) : Option Edge :=
  let roster := narration.roster.hear placed
  match placed.statement with
  | .message source arrow target label _ =>
    (Arrow.ofText? arrow).map fun kind =>
      let ends := kind.ends (roster.idOf source) (roster.idOf target)
      ⟨"msg-" ++ toString narration.nextMessage, ends.1, ends.2, some narration.nextMessage, label,
        Table.ofList ([("direction", kind.kind.name), ("arrow", arrow)] ++ blockAttrs narration.nesting)⟩
  | _ => none

theorem edge?_eq_some {narration : Narration} {placed : Placed} {edge : Edge}
    (made : narration.edge? placed = some edge) :
    ∃ source arrow target label mark kind, placed.statement = .message source arrow target label mark ∧
      Arrow.ofText? arrow = some kind ∧
      edge = ⟨"msg-" ++ toString narration.nextMessage,
        (kind.ends ((narration.roster.hear placed).idOf source) ((narration.roster.hear placed).idOf target)).1,
        (kind.ends ((narration.roster.hear placed).idOf source) ((narration.roster.hear placed).idOf target)).2,
        some narration.nextMessage, label,
        Table.ofList ([("direction", kind.kind.name), ("arrow", arrow)] ++ blockAttrs narration.nesting)⟩ := by
  unfold edge? at made
  split at made
  · rename_i source arrow target label mark shape
    obtain ⟨kind, known, rfl⟩ := Option.map_eq_some_iff.1 made
    exact ⟨source, arrow, target, label, mark, kind, shape, known, rfl⟩
  · cases made

def notes (roster : Roster) : Statement → List Event
  | .note targets side text => targets.map fun name =>
      .updateNode (roster.idOf name) (Table.ofList [("note", text), ("note_position", side)])
  | _ => []

theorem mem_notes {roster : Roster} {statement : Statement} {event : Event} (member : event ∈ notes roster statement) :
    ∃ targets side text name, statement = .note targets side text ∧ name ∈ targets ∧
      event = .updateNode (roster.idOf name) (Table.ofList [("note", text), ("note_position", side)]) := by
  cases statement with
  | note targets side text =>
    obtain ⟨name, target, rfl⟩ := List.mem_map.1 member
    exact ⟨targets, side, text, name, rfl, target, rfl⟩
  | _ => cases member

def marker? (narration : Narration) (placed : Placed) : Option Event :=
  match placed.statement with
  | .blockOpen .. => if narration.atBatchEdge then some .batchStart else none
  | .blockEnd =>
    if narration.batching = .block && (narration.nesting.hear placed).depth = 0 then some .batchEnd else none
  | _ => none

theorem marker?_eq_some {narration : Narration} {placed : Placed} {event : Event}
    (marker : narration.marker? placed = some event) : event = .batchStart ∨ event = .batchEnd := by
  unfold marker? at marker
  split at marker
  · split at marker <;> cases marker
    exact .inl rfl
  · split at marker <;> cases marker
    exact .inr rfl
  · cases marker

-- No statement has all of these parts; those that it has come in this order.
def echo (narration : Narration) (placed : Placed) : List Event :=
  let roster := narration.roster.hear placed
  narration.roster.news placed ++ (narration.edge? placed).toList.map .addEdge
    ++ (placed.statement.move? roster).toList.map (fun move =>
      .updateNode move.id (narration.lifelines.change move))
    ++ notes roster placed.statement ++ (narration.marker? placed).toList

def advance (narration : Narration) (placed : Placed) : Narration :=
  { narration with
    roster := narration.roster.hear placed
    nesting := narration.nesting.hear placed
    lifelines := (placed.statement.move? (narration.roster.hear placed)).elim narration.lifelines
      narration.lifelines.play
    events := narration.events ++ narration.echo placed
    nextMessage := narration.nextMessage + (narration.edge? placed).toList.length }

theorem participant_eq (narration : Narration) (name : String) :
    let said := narration.roster.mention name Table.empty
    narration.participant name = (said.id, { narration with
      roster := said.roster, events := narration.events ++ said.created.toList.map introduction }) := by
  unfold participant
  cases created : (narration.roster.mention name Table.empty).created with
  | none => simp [created]
  | some member => simp [created, emit]

-- The ids are read off the roster as it is after all the names; none of them is rebound meanwhile.
theorem participants_eq (narration : Narration) (sound : narration.roster.Sound) (names : List String) :
    narration.participants names =
      (names.map (narration.roster.mentions names).idOf, { narration with
        roster := narration.roster.mentions names
        events := narration.events ++ (narration.roster.arrivals names).map introduction }) := by
  induction names generalizing narration with
  | nil => simp [participants, Roster.mentions, Roster.arrivals]
  | cons name rest ih =>
    have next := (Roster.mention_grows sound name Table.empty).sound
    have bound := Roster.mentions_keeps next (Roster.mention_id? sound name Table.empty) rest
    simp only [participants, participant_eq]
    rw [ih _ next]
    simp [Roster.mentions, Roster.arrivals, Roster.idOf_eq bound, List.append_assoc]

theorem declared_eq (narration : Narration) (said : Roster.Declared) :
    (match said.created with
      | some member => { narration with roster := said.roster }.emit (introduction member)
      | none =>
        if said.change.isEmpty then { narration with roster := said.roster }
        else { narration with roster := said.roster }.emit (.updateNode said.id said.change)) =
      { narration with roster := said.roster, events := narration.events ++ said.news.toList } := by
  unfold Roster.Declared.news
  cases said.created with
  | some member => simp [emit]
  | none => by_cases quiet : said.change.isEmpty = true <;> simp [quiet, emit]

theorem declaration_eq (narration : Narration) (kind name : String) (otherName label : Option String)
    (attrs : Attrs) (position : Text.Position) :
    let placed : Placed := ⟨position, .declaration kind name otherName label attrs⟩
    narration.declaration kind name otherName label attrs position.line = { narration with
      roster := narration.roster.hear placed
      events := narration.events ++ narration.roster.news placed } := by
  simp only [Roster.hear, Roster.news, Placed.said?]
  unfold declaration
  cases Roster.given otherName with
  | none => exact declared_eq narration _
  | some other => exact declared_eq narration _

def moved (narration : Narration) (move : Lifelines.Move) : Narration :=
  { narration with
    lifelines := narration.lifelines.play move
    events := narration.events ++ [.updateNode move.id (narration.lifelines.change move)] }

theorem activate_eq (narration : Narration) (id : String) (attrs : Attrs) :
    narration.activate id attrs = narration.moved (.raise id attrs) := rfl

theorem destroy_eq (narration : Narration) (id : String) :
    narration.destroy id = narration.moved (.clear id) := rfl

theorem deactivate_eq (narration : Narration) (id : String) (line : Int) :
    narration.deactivate id line =
      if narration.lifelines.depth id = 0 then .error (.notActive id line)
      else .ok (narration.moved (.lower id)) := by
  unfold deactivate Lifelines.deactivate
  cases active : narration.lifelines.depth id with
  | zero => simp
  | succ depth => simp [moved, Lifelines.play, Lifelines.change, Lifelines.Move.id, active, emit]

theorem foldl_emit {α : Type} (tell : α → Event) (items : List α) (narration : Narration) :
    items.foldl (fun narration item => narration.emit (tell item)) narration =
      { narration with events := narration.events ++ items.map tell } := by
  induction items generalizing narration with
  | nil => simp
  | cons item rest ih => rw [List.foldl_cons, ih]; simp [emit]

theorem note_eq (narration : Narration) (sound : narration.roster.Sound) (targets : List String)
    (side text : String) :
    narration.note targets side text = { narration with
      roster := narration.roster.mentions targets
      events := narration.events ++ (narration.roster.arrivals targets).map introduction
        ++ notes (narration.roster.mentions targets) (.note targets side text) } := by
  simp only [note, participants_eq narration sound, foldl_emit]
  simp [notes, Function.comp_def]

-- A statement that uses names, before anything else is done about it.
def heard (narration : Narration) (placed : Placed) : Narration :=
  { narration with
    roster := narration.roster.hear placed
    events := narration.events ++ narration.roster.news placed }

theorem participant_heard (narration : Narration) (sound : narration.roster.Sound) (placed : Placed)
    (name : String) (uses : placed.statement.uses = [name]) (quiet : placed.said? = none) :
    narration.participant name = ((narration.roster.hear placed).idOf name, narration.heard placed) := by
  have bound := Roster.mention_id? sound name Table.empty
  simp [participant_eq, heard, Roster.hear, Roster.news, quiet, uses, Roster.mentions, Roster.arrivals,
    Roster.idOf_eq bound]

theorem message_heard (narration : Narration) (sound : narration.roster.Sound) (position : Text.Position)
    (source arrow target : String) (label mark : Option String) (kind : Arrow)
    (known : Arrow.ofText? arrow = some kind) :
    let placed : Placed := ⟨position, .message source arrow target label mark⟩
    let roster := narration.roster.hear placed
    let ends := kind.ends (roster.idOf source) (roster.idOf target)
    narration.message source arrow target label mark position.line =
      ((narration.heard placed).send kind arrow ends.1 ends.2 label).applyMark mark ends.1 ends.2
        position.line := by
  intro placed roster ends
  have next := (Roster.mention_grows sound source Table.empty).sound
  have first : roster.idOf source = _ := Roster.idOf_eq
    (Roster.mention_keeps next (Roster.mention_id? sound source Table.empty) target Table.empty)
  have second : roster.idOf target = _ := Roster.idOf_eq (Roster.mention_id? next target Table.empty)
  have news : narration.roster.news placed = _ := List.map_append
  simp only [message, Arrow.classify, known, participant_eq, ends, first, second]
  simp [heard, news, Roster.arrivals, List.append_assoc]
  rfl

theorem message_eq (narration : Narration) (sound : narration.roster.Sound) (position : Text.Position)
    (source arrow target : String) (label mark : Option String) :
    let placed : Placed := ⟨position, .message source arrow target label mark⟩
    narration.message source arrow target label mark position.line =
      match offence? narration.roster narration.lifelines.depth narration.nesting.top? placed with
      | some failure => .error failure
      | none => .ok (narration.advance placed) := by
  intro placed
  cases known : Arrow.ofText? arrow with
  | none => simp [placed, message, Arrow.classify, offence?, known]
  | some kind =>
    rw [message_heard narration sound position source arrow target label mark kind known]
    by_cases raised : mark = some "++"
    · subst raised
      simp [placed, offence?, known, advance, echo, edge?, notes, marker?, Statement.move?, Nesting.hear, heard,
        send, applyMark, activate_eq, emit, moved]
    · by_cases lowered : mark = some "--"
      · subst lowered
        simp [placed, offence?, known, advance, echo, edge?, notes, marker?, Statement.move?, Nesting.hear, heard,
          send, applyMark, deactivate_eq, emit, moved]
        split <;> rfl
      · simp [placed, offence?, known, advance, echo, edge?, notes, marker?, Statement.move?, Nesting.hear, heard,
          send, applyMark, emit, raised, lowered]

-- Statements that name nobody: blocks, dividers and comments.
theorem advance_silent (narration : Narration) (placed : Placed) (uses : placed.statement.uses = [])
    (said : placed.said? = none) (edge : narration.edge? placed = none)
    (move : ∀ roster, placed.statement.move? roster = none)
    (noted : ∀ roster, notes roster placed.statement = []) :
    narration.advance placed = { narration with
      nesting := narration.nesting.hear placed
      events := narration.events ++ (narration.marker? placed).toList } := by
  simp [advance, echo, edge, move, noted, Roster.hear, Roster.news, said, uses, Roster.mentions,
    Roster.arrivals]

theorem blockOpen_eq (narration : Narration) (position : Text.Position) (kind : String)
    (condition : Option String) :
    let placed : Placed := ⟨position, .blockOpen kind condition⟩
    narration.blockOpen kind condition position.line =
      match offence? narration.roster narration.lifelines.depth narration.nesting.top? placed with
      | some failure => .error failure
      | none => .ok (narration.advance placed) := by
  intro placed
  rw [advance_silent narration placed rfl rfl rfl (fun _ => rfl) (fun _ => rfl)]
  unfold blockOpen
  cases known : ScopeKind.ofName? kind with
  | none => simp [placed, offence?, known]
  | some scope =>
    by_cases edge : narration.atBatchEdge = true <;>
      simp [placed, offence?, known, marker?, edge, Nesting.hear, emit]

theorem blockElse_eq (narration : Narration) (position : Text.Position) (condition : Option String) :
    let placed : Placed := ⟨position, .blockElse condition⟩
    narration.blockElse condition position.line =
      match offence? narration.roster narration.lifelines.depth narration.nesting.top? placed with
      | some failure => .error failure
      | none => .ok (narration.advance placed) := by
  intro placed
  rw [advance_silent narration placed rfl rfl rfl (fun _ => rfl) (fun _ => rfl)]
  unfold blockElse
  cases frames : narration.nesting.frames with
  | nil =>
    simp [placed, offence?, Nesting.branch, Nesting.split, Nesting.top?, Nesting.innermost?, frames]
  | cons top outer =>
    by_cases fits : top.kind.isBranching = true <;>
      simp [placed, offence?, Nesting.branch, Nesting.split, Nesting.top?, Nesting.innermost?, frames, fits,
        marker?, Nesting.hear]

theorem blockEnd_eq (narration : Narration) (position : Text.Position) :
    let placed : Placed := ⟨position, .blockEnd⟩
    narration.blockEnd position.line =
      match offence? narration.roster narration.lifelines.depth narration.nesting.top? placed with
      | some failure => .error failure
      | none => .ok (narration.advance placed) := by
  intro placed
  rw [advance_silent narration placed rfl rfl rfl (fun _ => rfl) (fun _ => rfl)]
  unfold blockEnd
  cases frames : narration.nesting.frames with
  | nil => simp [placed, offence?, Nesting.leave, Nesting.split, Nesting.top?, Nesting.innermost?, frames]
  | cons top outer =>
    by_cases fits : top.kind.isBlock = true
    · by_cases last : narration.batching = .block ∧ outer = [] <;>
        simp [placed, offence?, Nesting.leave, Nesting.split, Nesting.top?, Nesting.innermost?, frames, fits,
          marker?, Nesting.hear, atBatchEdge, Nesting.depth, last, emit]
    · simp [placed, offence?, Nesting.leave, Nesting.split, Nesting.top?, Nesting.innermost?, frames, fits]

theorem tell_exchange (narration : Narration) (sound : narration.roster.Sound) (placed : Placed)
    (spoken : placed.statement.ofSequence = true) :
    narration.tell placed =
      match offence? narration.roster narration.lifelines.depth narration.nesting.top? placed with
      | some failure => .error failure
      | none => .ok (narration.advance placed) := by
  obtain ⟨position, statement⟩ := placed
  cases statement with
  | declaration kind name otherName label attrs =>
    simp only [tell, declaration_eq]
    simp [offence?, advance, echo, edge?, notes, marker?, Statement.move?, Nesting.hear]
  | message source arrow target label mark => exact message_eq narration sound position _ _ _ _ _
  | activation name attrs =>
    simp only [tell, participant_heard narration sound ⟨position, .activation name attrs⟩ name rfl rfl]
    simp [offence?, advance, echo, edge?, notes, marker?, Statement.move?, Nesting.hear, heard,
      activate_eq, moved]
  | deactivation name =>
    simp only [tell, participant_heard narration sound ⟨position, .deactivation name⟩ name rfl rfl,
      deactivate_eq]
    simp [offence?, advance, echo, edge?, notes, marker?, Statement.move?, Nesting.hear, heard, moved]
    split <;> rfl
  | destruction name =>
    simp only [tell, participant_heard narration sound ⟨position, .destruction name⟩ name rfl rfl]
    simp [offence?, advance, echo, edge?, notes, marker?, Statement.move?, Nesting.hear, heard,
      destroy_eq, moved]
  | note targets side text =>
    simp only [tell, note_eq narration sound]
    simp [offence?, advance, echo, edge?, notes, marker?, Statement.move?, Nesting.hear, Roster.hear,
      Roster.news, Placed.said?, Statement.uses]
  | divider style text =>
    rw [advance_silent narration _ rfl rfl rfl (fun _ => rfl) (fun _ => rfl)]
    simp [tell, offence?, marker?, Nesting.hear]
  | comment text =>
    rw [advance_silent narration _ rfl rfl rfl (fun _ => rfl) (fun _ => rfl)]
    simp [tell, offence?, marker?, Nesting.hear]
  | blockOpen kind condition => exact blockOpen_eq narration position kind condition
  | blockElse condition => exact blockElse_eq narration position condition
  | blockEnd => exact blockEnd_eq narration position
  | _ => cases spoken

end Narration
end DiagramStream
