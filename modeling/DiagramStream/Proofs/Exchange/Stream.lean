import DiagramStream.Proofs.Exchange.Step
import DiagramStream.Proofs.Run
import DiagramStream.Proofs.Stream

/-!
What a sequence diagram tells, seen from the consumer. Main statement: whatever the statements, the events
told so far can be taken one by one, and they add exactly the members of the roster.
-/

namespace DiagramStream

namespace Roster

theorem arrivals_reads {roster : Roster} {events : List Event} {intake : Intake} (sound : roster.Sound)
    (reads : Reads events { intake with nodes := roster.members.keys }) (names : List String) :
    Reads (events ++ (roster.arrivals names).map Narration.introduction)
      { intake with nodes := (roster.mentions names).members.keys } := by
  induction names generalizing roster events with
  | nil => simpa [arrivals, mentions] using reads
  | cons name rest ih =>
    have grows := mention_grows sound name Table.empty
    have next : Reads (events ++ (roster.mention name Table.empty).created.toList.map Narration.introduction)
        { intake with nodes := (roster.mention name Table.empty).roster.members.keys } := by
      cases created : (roster.mention name Table.empty).created with
      | none => simpa [grows.keys, created] using reads
      | some member =>
        obtain ⟨own, fresh⟩ := grows.fresh member created
        have keys := grows.keys
        rw [created] at keys
        rw [keys]
        exact reads.snoc (.addNode _ (own ▸ fresh))
    simpa [arrivals, mentions, List.append_assoc] using ih grows.sound next

theorem news_reads {roster : Roster} {events : List Event} (intake : Intake) (sound : roster.Sound)
    (reads : Reads events { intake with nodes := roster.members.keys }) (placed : Placed) :
    Reads (events ++ roster.news placed) { intake with nodes := (roster.hear placed).members.keys } := by
  unfold news hear
  cases placed.said? with
  | none => exact arrivals_reads sound reads _
  | some said =>
    have grows := declare_grows sound said
    have keys := grows.keys
    dsimp only
    unfold Declared.news
    cases created : (roster.declare said).created with
    | some member =>
      obtain ⟨own, fresh⟩ := grows.fresh member created
      rw [created] at keys
      rw [keys]
      exact reads.snoc (.addNode _ (own ▸ fresh))
    | none =>
      rw [created] at keys
      have listed : (roster.declare said).id ∈ roster.members.keys := by simpa [keys] using grows.listed
      rw [keys]
      cases quiet : (roster.declare said).change.isEmpty with
      | true => simpa [quiet] using reads
      | false => simpa [quiet, Intake.after] using reads.snoc (.updateNode _ _ listed)

end Roster

namespace Nesting

@[simp] theorem enter_depth (nesting : Nesting) (kind : ScopeKind) (label : Option String) (line : Int) :
    (nesting.enter kind label line).1.depth = nesting.depth + 1 := rfl

theorem hear_depth_else (nesting : Nesting) (position : Text.Position) (condition : Option String) :
    (nesting.hear ⟨position, .blockElse condition⟩).depth = nesting.depth := by
  unfold hear branch split
  cases frames : nesting.frames with
  | nil => rfl
  | cons top outer => by_cases fits : top.kind.isBranching = true <;> simp [fits, depth, frames]

theorem hear_depth_end {nesting : Nesting} {kind : ScopeKind} {opened : Int}
    (innermost : nesting.top? = some (kind, opened)) (block : kind.isBlock = true)
    (position : Text.Position) : (nesting.hear ⟨position, .blockEnd⟩).depth + 1 = nesting.depth := by
  unfold top? innermost? at innermost
  cases frames : nesting.frames with
  | nil => simp [frames] at innermost
  | cons top outer =>
    simp only [frames, List.head?_cons, Option.map_some, Option.some.injEq, Prod.mk.injEq] at innermost
    simp [hear, leave, split, frames, innermost.1, block, depth]

end Nesting

namespace Narration

-- A batch stands open around the whole diagram, or around the outermost block.
def batchOpenAt (batching : Batching) (depth : Nat) : Bool := batching = .diagram || depth ≠ 0

def batchOpen (narration : Narration) : Bool := batchOpenAt narration.batching narration.nesting.depth

def taken (narration : Narration) (messages : Nat) : Intake :=
  ⟨narration.roster.members.keys, numberedIds "msg-" messages, narration.batchOpen, messages⟩

structure Announced (narration : Narration) (messages : Nat) : Prop where
  format : narration.format = .sequence
  sound : narration.roster.Sound
  next : narration.nextMessage = messages + 1
  reads : Reads narration.events (narration.taken messages)

theorem idOf_listed {narration : Narration} (sound : narration.roster.Sound) {placed : Placed} {name : String}
    (used : name ∈ placed.statement.uses) :
    (narration.roster.hear placed).idOf name ∈ (narration.roster.hear placed).members.keys :=
  (Roster.hear_sound sound placed).leads _ _ (Roster.hear_id? sound used)

theorem ends_listed {names : List String} {first second : String} (arrow : Arrow) (one : first ∈ names)
    (other : second ∈ names) :
    (arrow.ends first second).1 ∈ names ∧ (arrow.ends first second).2 ∈ names := by
  unfold Arrow.ends
  split
  · exact ⟨other, one⟩
  · exact ⟨one, other⟩

theorem edge_reads {narration : Narration} {placed : Placed} {events : List Event} {messages : Nat} {batch : Bool}
    (sound : narration.roster.Sound) (next : narration.nextMessage = messages + 1)
    (reads : Reads events
      ⟨(narration.roster.hear placed).members.keys, numberedIds "msg-" messages, batch, messages⟩) :
    let count := messages + (narration.edge? placed).toList.length
    Reads (events ++ (narration.edge? placed).toList.map .addEdge)
      ⟨(narration.roster.hear placed).members.keys, numberedIds "msg-" count, batch, count⟩ := by
  intro count
  cases edge : narration.edge? placed with
  | none => simpa [count, edge] using reads
  | some made =>
    obtain ⟨source, arrow, target, label, mark, kind, shape, known, form⟩ := edge?_eq_some edge
    have leaves : source ∈ placed.statement.uses := by simp [shape, Statement.uses]
    have reaches : target ∈ placed.statement.uses := by simp [shape, Statement.uses]
    have ends := ends_listed kind (idOf_listed sound leaves) (idOf_listed sound reaches)
    have number : made.sequence = some ((messages + 1 : Nat) : Int) := by rw [form, next]
    have fresh : made.id ∉ numberedIds "msg-" messages := by
      rw [form, next]
      exact numberedIds_fresh "msg-" messages
    have taken := reads.snoc (.addEdge made (by rw [form]; exact ends.1) (by rw [form]; exact ends.2) fresh
      (fun other same => by rw [number] at same; simpa using same.symm))
    simpa [count, edge, Intake.after, numberedIds_succ, number, form, next] using taken

theorem move_listed {narration : Narration} {placed : Placed} {move : Lifelines.Move}
    (sound : narration.roster.Sound)
    (made : placed.statement.move? (narration.roster.hear placed) = some move) :
    move.id ∈ (narration.roster.hear placed).members.keys := by
  have listed : ∀ name ∈ placed.statement.uses,
      (narration.roster.hear placed).idOf name ∈ (narration.roster.hear placed).members.keys :=
    fun _ used => idOf_listed sound used
  cases shape : placed.statement with
  | message source arrow target label mark =>
    rw [shape] at made listed
    obtain ⟨kind, known, made⟩ := Option.bind_eq_some_iff.1 made
    have ends := ends_listed kind (listed source (by simp [Statement.uses]))
      (listed target (by simp [Statement.uses]))
    dsimp only at made
    split at made
    · cases Option.some.inj made; exact ends.2
    · split at made
      · cases Option.some.inj made; exact ends.1
      · cases made
  | activation name attrs =>
    rw [shape] at made listed
    cases Option.some.inj made
    exact listed name (by simp [Statement.uses])
  | deactivation name =>
    rw [shape] at made listed
    cases Option.some.inj made
    exact listed name (by simp [Statement.uses])
  | destruction name =>
    rw [shape] at made listed
    cases Option.some.inj made
    exact listed name (by simp [Statement.uses])
  | _ => rw [shape] at made; cases made

theorem updates_read {narration : Narration} {placed : Placed} {events : List Event} {intake : Intake}
    (sound : narration.roster.Sound) (nodes : intake.nodes = (narration.roster.hear placed).members.keys)
    (reads : Reads events intake) :
    Reads (events
      ++ (placed.statement.move? (narration.roster.hear placed)).toList.map (fun move =>
        .updateNode move.id (narration.lifelines.change move))
      ++ notes (narration.roster.hear placed) placed.statement) intake := by
  refine (reads.updates ?_).updates ?_
  · intro event member
    obtain ⟨move, made, rfl⟩ := List.mem_map.1 member
    exact ⟨_, _, rfl, nodes ▸ move_listed sound (Option.mem_toList.1 made)⟩
  · intro event member
    obtain ⟨targets, side, text, name, shape, target, rfl⟩ := mem_notes member
    exact ⟨_, _, rfl, nodes ▸ idOf_listed sound (by simpa [shape, Statement.uses] using target)⟩

section
variable {narration : Narration} {position : Text.Position} {events : List Event} {nodes edges : List String}
  {messages : Nat}

-- Between its markers a batch stays open: the outermost block is entered at depth zero and left for it.
theorem opener_reads {kind : String} {condition : Option String} {scope : ScopeKind}
    (known : ScopeKind.ofName? kind = some scope)
    (reads : Reads events ⟨nodes, edges, narration.batchOpen, messages⟩) :
    Reads (events ++ (narration.marker? ⟨position, .blockOpen kind condition⟩).toList)
      ⟨nodes, edges, (narration.advance ⟨position, .blockOpen kind condition⟩).batchOpen, messages⟩ := by
  have inside : (narration.advance ⟨position, .blockOpen kind condition⟩).batchOpen = true := by
    simp [batchOpen, batchOpenAt, advance, Nesting.hear, known]
  rw [inside]
  by_cases edge : narration.atBatchEdge = true
  · have shut : narration.batchOpen = false := by
      simp [atBatchEdge] at edge
      simp [batchOpen, batchOpenAt, edge]
    rw [shut] at reads
    simpa [marker?, edge, Intake.after] using reads.snoc (.batchStart rfl)
  · have opened : narration.batchOpen = true := by
      simp [atBatchEdge] at edge
      cases mode : narration.batching <;> simp_all [batchOpen, batchOpenAt]
    simpa [marker?, edge, opened] using reads

theorem closer_reads {kind : ScopeKind} {opened : Int} (innermost : narration.nesting.top? = some (kind, opened))
    (block : kind.isBlock = true) (reads : Reads events ⟨nodes, edges, narration.batchOpen, messages⟩) :
    Reads (events ++ (narration.marker? ⟨position, .blockEnd⟩).toList)
      ⟨nodes, edges, (narration.advance ⟨position, .blockEnd⟩).batchOpen, messages⟩ := by
  have depth := Nesting.hear_depth_end innermost block position
  have inside : narration.batchOpen = true := by
    simp only [batchOpen, batchOpenAt, ← depth]
    simp
  rw [inside] at reads
  by_cases last : narration.batching = .block ∧ (narration.nesting.hear ⟨position, .blockEnd⟩).depth = 0
  · have shut : (narration.advance ⟨position, .blockEnd⟩).batchOpen = false := by
      simp [batchOpen, batchOpenAt, advance, last]
    simpa [marker?, last, shut, Intake.after] using reads.snoc (.batchEnd rfl)
  · have still : (narration.advance ⟨position, .blockEnd⟩).batchOpen = true := by
      cases mode : narration.batching <;> simp_all [batchOpen, batchOpenAt, advance]
    simpa [marker?, last, still] using reads

theorem marker_reads {placed : Placed}
    (fine : offence? narration.roster narration.lifelines.depth narration.nesting.top? placed = none)
    (reads : Reads events ⟨nodes, edges, narration.batchOpen, messages⟩) :
    Reads (events ++ (narration.marker? placed).toList)
      ⟨nodes, edges, (narration.advance placed).batchOpen, messages⟩ := by
  have quiet : Reads (events ++ []) ⟨nodes, edges, narration.batchOpen, messages⟩ := by simpa using reads
  obtain ⟨position, statement⟩ := placed
  cases statement with
  | blockOpen kind condition =>
    cases known : ScopeKind.ofName? kind with
    | none => simp [offence?, known] at fine
    | some scope => exact opener_reads known reads
  | blockEnd =>
    cases top : narration.nesting.top? with
    | none => simp [offence?, top] at fine
    | some scope => exact closer_reads top (by simpa [offence?, top] using fine) reads
  | blockElse condition =>
    have same : (narration.advance ⟨position, .blockElse condition⟩).batchOpen = narration.batchOpen :=
      congrArg (batchOpenAt _) (Nesting.hear_depth_else narration.nesting position condition)
    rw [same]
    exact quiet
  | _ => exact quiet

end

theorem advance_announced {narration : Narration} {messages : Nat} (announced : Announced narration messages)
    {placed : Placed}
    (fine : offence? narration.roster narration.lifelines.depth narration.nesting.top? placed = none) :
    Announced (narration.advance placed) (messages + (narration.edge? placed).toList.length) := by
  have sound := announced.sound
  refine ⟨announced.format, Roster.hear_sound sound placed, ?_, ?_⟩
  · simp only [advance, announced.next]
    omega
  · have news := Roster.news_reads (narration.taken messages) sound announced.reads placed
    have edge := edge_reads sound announced.next news
    have updates := updates_read sound rfl edge
    have marker := marker_reads fine updates
    simpa [advance, echo, taken, List.append_assoc] using marker

theorem tell_announced {narration next : Narration} {messages : Nat} (announced : Announced narration messages)
    {placed : Placed} (spoken : placed.statement.ofSequence = true) (told : narration.tell placed = .ok next) :
    ∃ messages, Announced next messages := by
  rw [tell_exchange narration announced.sound placed spoken] at told
  split at told
  · cases told
  · rename_i fine
    cases told
    exact ⟨_, advance_announced announced fine⟩

theorem opening_announced (document : Document) (batching : Batching) (sequence : document.format = .sequence) :
    Announced (opening document batching) 0 := by
  obtain ⟨format, statements⟩ := document
  cases sequence
  refine ⟨rfl, Roster.empty_sound _, rfl, ?_⟩
  cases batching with
  | diagram => exact (Reads.nil.snoc (.batchStart rfl)).snoc (.setLayout _ _ _ rfl)
  | block => exact Reads.nil.snoc (.setLayout _ _ _ rfl)

theorem ofDocument_announced {document : Document} {batching : Batching} {narration : Narration}
    (sequence : document.format = .sequence)
    (spoken : ∀ placed ∈ document.statements, placed.statement.ofSequence = true)
    (told : ofDocument document batching = .ok narration) :
    ∃ intake, Reads narration.events intake ∧ intake.inBatch = false := by
  obtain ⟨last, run, closed, rfl⟩ := (ofDocument_ok_iff _ _ _).1 told
  obtain ⟨messages, announced⟩ : ∃ messages, Announced last messages :=
    tellAll_preserves (fun narration => ∃ messages, Announced narration messages)
      (fun placed member before after kept one => kept.elim fun _ announced =>
        tell_announced announced (spoken placed member) one)
      ⟨0, opening_announced document batching sequence⟩ run
  have reads := announced.reads
  have depth : last.nesting.depth = 0 := by simp [Nesting.depth, closed]
  have nothing : last.heldBack = [] := by simp [heldBack, announced.format]
  by_cases whole : last.batching = .diagram
  · have opened : last.batchOpen = true := by simp [batchOpen, batchOpenAt, whole]
    simp only [taken, opened] at reads
    exact ⟨_, by simpa [nothing, whole] using reads.snoc (.batchEnd rfl), rfl⟩
  · have shut : last.batchOpen = false := by simp [batchOpen, batchOpenAt, whole, depth]
    exact ⟨_, by simpa [nothing, whole] using reads, shut⟩

end Narration
end DiagramStream
