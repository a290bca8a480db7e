import DiagramStream.Proofs.Exchange.Follow
import DiagramStream.Proofs.Portrait

/-!
Participants as they are drawn. Main statement: the diagram that the events build shows the roster's members, each
with its place in the order of appearance and with its attributes, except under the keys that something else was
written to.
-/

namespace DiagramStream

-- Attributes that leave the fields of a participant alone.
def Statement.Unreserved : Statement → Prop
  | .declaration _ _ _ _ attrs => attrs.Unreserved
  | .activation _ attrs => attrs.Unreserved
  | _ => True

-- Under which keys a move writes.
def Lifelines.Move.keys : Move → List String
  | .raise _ attrs => "activation" :: attrs.keys
  | .lower _ => ["activation"]
  | .clear _ => ["destroyed", "activation"]

def Statement.noted (roster : Roster) : Statement → List (String × String)
  | .note targets _ _ =>
    targets.flatMap fun name => [(roster.idOf name, "note"), (roster.idOf name, "note_position")]
  | _ => []

-- A declaration that changes the attribute `order` of a node takes away the one that it was drawn with.
def reordered (roster : Roster) (placed : Placed) : List (String × String) :=
  match placed.said? with
  | none => []
  | some said =>
    let declared := roster.declare said
    if "order" ∈ declared.change.keys then [(declared.id, "order")] else []

def overwrittenAfter (before : List Placed) (placed : Placed) : List (String × String) :=
  let roster := rosterOf (before ++ [placed])
  (placed.statement.move? roster).toList.flatMap (fun move => move.keys.map fun key => (move.id, key))
    ++ placed.statement.noted roster ++ reordered (rosterOf before) placed

-- Ids with the keys under which something is written beside the roster.
def overwritten (statements : List Placed) : List (String × String) := gather overwrittenAfter statements

@[simp] theorem overwritten_concat (before : List Placed) (placed : Placed) :
    overwritten (before ++ [placed]) = overwritten before ++ overwrittenAfter before placed := gather_concat ..

-- What is drawn of a roster.
structure Drawn (written : List (String × String)) (nodes : Table Node) (roster : Roster) : Prop where
  shown : Shows written nodes roster.members
  ranked : Ranked roster.members

namespace Drawn
variable {written : List (String × String)} {nodes : Table Node} {roster : Roster}

theorem mention (drawn : Drawn written nodes roster) (sound : roster.Sound) (name : String) :
    let said := roster.mention name Table.empty
    Drawn written ((said.created.toList.map Narration.introduction).foldl register nodes) said.roster := by
  intro said
  have members := roster.mention_members name Table.empty
  have grows := Roster.mention_grows sound name Table.empty
  cases created : said.created with
  | none =>
    simp only [show (roster.mention name Table.empty).created = none from created] at members
    rw [show said.roster = roster from members]
    exact drawn
  | some member =>
    simp only [show (roster.mention name Table.empty).created = some member from created] at members
    obtain ⟨newcomer, members⟩ := members
    obtain ⟨same, new⟩ := grows.fresh member created
    have fresh : member.node.id ∉ roster.members.keys := same ▸ new
    refine ⟨?_, ?_⟩
    · rw [show said.roster.members = _ from members]
      exact drawn.shown.enroll newcomer fresh
    · rw [show said.roster.members = _ from members]
      exact drawn.ranked.enroll newcomer fresh

theorem mentions (drawn : Drawn written nodes roster) (sound : roster.Sound) (names : List String) :
    Drawn written (((roster.arrivals names).map Narration.introduction).foldl register nodes)
      (roster.mentions names) := by
  induction names generalizing roster nodes with
  | nil => exact drawn
  | cons name rest ih =>
    have first := drawn.mention sound name
    have later := ih first (Roster.mention_grows sound name Table.empty).sound
    rw [Roster.arrivals, List.map_append, List.foldl_append]
    exact later

theorem declare (drawn : Drawn written nodes roster) (sound : roster.Sound) {said : Roster.Declaration}
    (unreserved : said.attrs.Unreserved)
    (free : "order" ∈ (roster.declare said).change.keys → ((roster.declare said).id, "order") ∈ written) :
    Drawn written ((roster.declare said).news.toList.foldl register nodes) (roster.declare said).roster := by
  unfold Roster.Declared.news
  rcases Roster.declare_members sound said with
    ⟨member, newcomer, created, id, members⟩ | ⟨member, listed, created, id, change, members⟩
  · have fresh : member.node.id ∉ roster.members.keys := by
      rw [← id]
      exact ((Roster.declare_grows sound said).fresh member created).2
    refine ⟨?_, ?_⟩
    · rw [members, created]
      exact drawn.shown.enroll newcomer fresh
    · rw [members]
      exact drawn.ranked.enroll newcomer fresh
  · have whole := Roster.merge_revise unreserved member.node
    refine ⟨?_, ?_⟩
    · rw [members, created, id, change, ← whole]
      refine drawn.shown.revise listed rfl ?_ true
      rwa [id, change] at free
    · rw [members]
      exact drawn.ranked.revise listed rfl

theorem said_unreserved {placed : Placed} (unreserved : placed.statement.Unreserved) {said : Roster.Declaration}
    (shape : placed.said? = some said) : said.attrs.Unreserved := by
  obtain ⟨position, statement⟩ := placed
  cases statement with
  | declaration kind name otherName label attrs =>
    cases shape
    dsimp only
    split
    · exact unreserved
    · exact Table.Unreserved.set unreserved _ (by decide) (by decide)
  | _ => cases shape

theorem hear (drawn : Drawn written nodes roster) (sound : roster.Sound) {placed : Placed}
    (unreserved : placed.statement.Unreserved) (covered : ∀ pair ∈ reordered roster placed, pair ∈ written) :
    Drawn written ((roster.news placed).foldl register nodes) (roster.hear placed) := by
  unfold Roster.news Roster.hear
  unfold reordered at covered
  cases shape : placed.said? with
  | none => exact drawn.mentions sound _
  | some said =>
    refine drawn.declare sound (said_unreserved unreserved shape) ?_
    intro stated
    simp only [shape, stated, if_true] at covered
    exact covered _ (List.mem_singleton.2 rfl)

end Drawn

namespace Narration

theorem move_within {written : List (String × String)} (lifelines : Lifelines) (move : Lifelines.Move)
    (unreserved : ∀ id attrs, move = .raise id attrs → attrs.Unreserved)
    (covered : ∀ key ∈ move.keys, (move.id, key) ∈ written) :
    (Event.updateNode move.id (lifelines.change move)).Within written := by
  cases move with
  | raise id attrs =>
    refine ⟨(unreserved id attrs rfl).set _ (by decide) (by decide), ?_⟩
    intro key listed
    refine covered key ?_
    rcases (Table.mem_keys_set _ _ _ _).1 listed with rfl | own
    · exact List.mem_cons_self ..
    · exact List.mem_cons_of_mem _ own
  | lower id =>
    have keys : (lifelines.change (.lower id)).keys = ["activation"] := rfl
    exact ⟨⟨by rw [keys]; decide, by rw [keys]; decide⟩, fun key listed => covered key listed⟩
  | clear id =>
    have keys : (lifelines.change (.clear id)).keys = ["destroyed", "activation"] := rfl
    exact ⟨⟨by rw [keys]; decide, by rw [keys]; decide⟩, fun key listed => covered key listed⟩

theorem move_unreserved {roster : Roster} {statement : Statement} (unreserved : statement.Unreserved) {id : String}
    {attrs : Attrs} (moves : statement.move? roster = some (.raise id attrs)) : attrs.Unreserved := by
  cases statement with
  | message source arrow target label mark =>
    obtain ⟨kind, -, raised⟩ := Option.bind_eq_some_iff.1 moves
    dsimp only at raised
    split at raised
    · cases raised
      exact Table.empty_unreserved
    · split at raised <;> cases raised
  | activation name attrs =>
    cases moves
    exact unreserved
  | _ => cases moves

theorem notes_within {written : List (String × String)} {roster : Roster} {statement : Statement}
    (covered : ∀ pair ∈ statement.noted roster, pair ∈ written) :
    ∀ event ∈ notes roster statement, event.Within written := by
  intro event member
  obtain ⟨targets, side, text, name, rfl, listed, rfl⟩ := mem_notes member
  have keys : (Table.ofList [("note", text), ("note_position", side)] : Attrs).keys = ["note", "note_position"] := rfl
  refine ⟨⟨by rw [keys]; decide, by rw [keys]; decide⟩, ?_⟩
  intro key stated
  refine covered _ (List.mem_flatMap.2 ⟨name, listed, ?_⟩)
  rw [keys] at stated
  simpa using stated

-- After the news of the roster, a statement writes to nothing but what it lists.
theorem echo_within {narration : Narration} {placed : Placed} (unreserved : placed.statement.Unreserved)
    {written : List (String × String)}
    (moved : ∀ move, placed.statement.move? (narration.roster.hear placed) = some move →
      ∀ key ∈ move.keys, (move.id, key) ∈ written)
    (noted : ∀ pair ∈ placed.statement.noted (narration.roster.hear placed), pair ∈ written) :
    ∃ rest, narration.echo placed = narration.roster.news placed ++ rest ∧ ∀ event ∈ rest, event.Within written := by
  refine ⟨_, by simp only [echo, List.append_assoc]; rfl, ?_⟩
  intro event member
  simp only [List.mem_append, List.mem_map, Option.mem_toList] at member
  rcases member with ⟨edge, -, rfl⟩ | ⟨move, moves, rfl⟩ | told | mark
  · trivial
  · exact move_within _ move (fun id attrs raised => move_unreserved unreserved (raised ▸ moves)) (moved move moves)
  · exact notes_within noted event told
  · rcases marker?_eq_some mark with rfl | rfl <;> trivial

structure Portrayed (narration : Narration) (before : List Placed) : Prop where
  follows : Follows narration before
  drawn : Drawn (overwritten before) (registered narration.events) narration.roster

theorem advance_portrayed {narration : Narration} {before : List Placed} (portrayed : Portrayed narration before)
    {placed : Placed} (unreserved : placed.statement.Unreserved) (fine : offenceAfter? before placed = none) :
    Portrayed (narration.advance placed) (before ++ [placed]) := by
  have follows := advance_follows portrayed.follows fine
  have sound := portrayed.follows.sound
  have roster : rosterOf (before ++ [placed]) = narration.roster.hear placed := follows.roster.symm
  have more : ∀ pair ∈ overwrittenAfter before placed, pair ∈ overwritten (before ++ [placed]) := by
    intro pair member
    rw [overwritten_concat]
    exact List.mem_append_right _ member
  have drawn : Drawn (overwritten (before ++ [placed])) (registered narration.events) narration.roster := by
    refine ⟨portrayed.drawn.shown.weaken ?_, portrayed.drawn.ranked⟩
    intro pair member
    rw [overwritten_concat]
    exact List.mem_append_left _ member
  have heard := drawn.hear sound unreserved (by
    intro pair member
    refine more pair (List.mem_append_right _ ?_)
    rwa [← portrayed.follows.roster])
  have moved : ∀ move, placed.statement.move? (narration.roster.hear placed) = some move →
      ∀ key ∈ move.keys, (move.id, key) ∈ overwritten (before ++ [placed]) := by
    intro move moves key listed
    refine more _ (List.mem_append_left _ (List.mem_append_left _ ?_))
    rw [roster, moves]
    simpa using listed
  have noted : ∀ pair ∈ placed.statement.noted (narration.roster.hear placed),
      pair ∈ overwritten (before ++ [placed]) := by
    intro pair member
    refine more _ (List.mem_append_left _ (List.mem_append_right _ ?_))
    rwa [roster]
  obtain ⟨rest, echo, within⟩ := echo_within unreserved moved noted
  have events : registered (narration.advance placed).events =
      rest.foldl register ((narration.roster.news placed).foldl register (registered narration.events)) := by
    rw [show (narration.advance placed).events = narration.events ++ narration.echo placed from rfl, echo,
      registered_append, List.foldl_append]
  refine ⟨follows, ?_, heard.ranked⟩
  rw [events]
  exact heard.shown.applyAll follows.sound.own within

theorem opening_portrayed (statements : List Placed) (batching : Batching) :
    Portrayed (opening ⟨.sequence, statements⟩ batching) [] := by
  have blank : registered (opening ⟨.sequence, statements⟩ batching).events = Table.empty := by
    cases batching <;> rfl
  refine ⟨opening_follows statements batching, ⟨?_, ?_⟩, rfl⟩
  · rw [blank]
    rfl
  · intro id node member drawn
    rw [blank] at drawn
    cases drawn

theorem ofDocument_participants {statements : List Placed} {batching : Batching} {narration : Narration}
    (spoken : ∀ placed ∈ statements, placed.statement.ofSequence = true)
    (unreserved : ∀ placed ∈ statements, placed.statement.Unreserved)
    (told : ofDocument ⟨.sequence, statements⟩ batching = .ok narration) (name : String) (format : Option String) :
    let nodes := (Diagram.ofEvents narration.events name format).nodes
    let members := narration.roster.members.values
    nodes.length = members.length ∧
    ∀ (index : Nat) (node : Node) (member : Member), nodes[index]? = some node → members[index]? = some member →
      node.id = member.node.id ∧ node.kind = member.node.kind ∧ node.label = member.node.label ∧
      ((node.id, "order") ∉ overwritten statements → node.attrs.get? "order" = some (toString index)) ∧
      ∀ key, key ≠ "order" → (node.id, key) ∉ overwritten statements →
        node.attrs.get? key = member.node.attrs.get? key := by
  obtain ⟨last, run, closed, rfl⟩ := (ofDocument_ok_iff _ _ _).1 told
  have decides : Decides offenceAfter?
      (fun placed => placed.statement.ofSequence = true ∧ placed.statement.Unreserved) Portrayed :=
    decides_of_advance (fun _ allowed => allowed.1) (fun _ _ portrayed => portrayed.follows)
      fun _ _ _ portrayed allowed fine => advance_portrayed portrayed allowed.2 fine
  obtain ⟨-, follows, shown, ranked⟩ := decides.clean_of_told (opening_portrayed statements batching)
    (fun placed member => ⟨spoken placed member, unreserved placed member⟩) run
  have closing : registered (last.events ++ last.heldBack ++ (if last.batching = .diagram then [.batchEnd] else [])) =
      registered last.events := by
    simp only [heldBack, follows.format, List.append_nil, registered_append]
    split <;> rfl
  dsimp only
  rw [ofEvents_nodes, closing]
  refine ⟨?_, ?_⟩
  · have same := congrArg List.length shown.keys
    simpa [Table.keys, Table.keysOf, Table.values] using same
  · intro index node member drawn listed
    obtain ⟨id, here, found⟩ := Table.get?_of_values drawn
    obtain ⟨other, there, held⟩ := Table.get?_of_values listed
    rw [shown.keys] at here
    cases here.symm.trans there
    obtain ⟨id, kind, label, order, attrs⟩ := shown.depicts _ node member found held
    have place : some member.order = some index := by
      have numbered := congrArg (fun orders : List Nat => orders[index]?) ranked
      simp only [List.getElem?_map, listed, Option.map_some] at numbered
      rw [numbered]
      refine List.getElem?_range ?_
      have within := (List.getElem?_eq_some_iff.1 listed).1
      simpa [Table.values, Table.size] using within
    cases Option.some.inj place
    exact ⟨id, kind, label, order, attrs⟩

-- A participant that is mentioned, declared under another name, activated and noted.
theorem ofDocument_participants_renamed :
    let statements : List Placed :=
      [⟨⟨1, 1⟩, .message "db" "->" "web" none none⟩,
       ⟨⟨2, 1⟩, .declaration "database" "store" (some "db") (some "Store") (Table.ofList [("color", "red")])⟩,
       ⟨⟨3, 1⟩, .activation "store" Table.empty⟩,
       ⟨⟨4, 1⟩, .note ["web"] "left" "busy"⟩,
       ⟨⟨5, 1⟩, .deactivation "db"⟩]
    (∀ placed ∈ statements, placed.statement.ofSequence = true) ∧
    (∀ placed ∈ statements, placed.statement.Unreserved) ∧
    ∃ narration node, ofDocument ⟨.sequence, statements⟩ .diagram = .ok narration ∧
      (Diagram.ofEvents narration.events "" none).nodes[0]? = some node ∧
      node.id = "db" ∧ node.kind = "database" ∧ node.label = "Store" ∧ node.attrs.get? "order" = some "0" ∧
      node.attrs.get? "color" = some "red" := by
  intro statements
  have spoken : ∀ placed ∈ statements, placed.statement.ofSequence = true := by decide
  have unreserved : ∀ placed ∈ statements, placed.statement.Unreserved := by
    simp only [statements, List.mem_cons, List.not_mem_nil, or_false, forall_eq_or_imp, forall_eq]
    have own : (Table.ofList [("color", "red")] : Attrs).Unreserved := ⟨by decide, by decide⟩
    exact ⟨trivial, own, Table.empty_unreserved, trivial, trivial⟩
  have written : overwritten statements = [("db", "activation"), ("web", "note"), ("web", "note_position"),
      ("db", "activation")] := by decide +kernel
  have first : (ofDocument ⟨.sequence, statements⟩ .diagram).toOption.bind (fun narration =>
      (narration.roster.members.values[0]?).map fun member =>
        (member.node.id, member.node.kind, member.node.label, member.node.attrs.get? "color")) =
      some ("db", "database", "Store", some "red") := by decide +kernel
  obtain ⟨narration, told, known⟩ := ok_of_seen first
  obtain ⟨member, listed, fields⟩ := Option.map_eq_some_iff.1 known
  simp only [Prod.mk.injEq] at fields
  obtain ⟨id, kind, label, color⟩ := fields
  obtain ⟨length, shown⟩ := ofDocument_participants spoken unreserved told "" none
  obtain ⟨node, drawn⟩ : ∃ node, (Diagram.ofEvents narration.events "" none).nodes[0]? = some node := by
    refine ⟨_, List.getElem?_eq_getElem ?_⟩
    rw [length]
    exact (List.getElem?_eq_some_iff.1 listed).1
  obtain ⟨same, kinds, labels, order, attrs⟩ := shown 0 node member drawn listed
  have named : node.id = "db" := same.trans id
  refine ⟨spoken, unreserved, narration, node, told, drawn, named, kinds.trans kind, labels.trans label, ?_, ?_⟩
  · exact order (by rw [written, named]; decide)
  · exact (attrs "color" (by decide) (by rw [written, named]; decide)).trans color

-- An attribute of that name comes in the place of the order that a participant was drawn with.
theorem ofDocument_reordered :
    let statements : List Placed :=
      [⟨⟨1, 1⟩, .message "a" "->" "b" none none⟩,
       ⟨⟨2, 1⟩, .declaration "actor" "a" none none (Table.ofList [("order", "7")])⟩]
    (∀ placed ∈ statements, placed.statement.ofSequence = true) ∧
    (∀ placed ∈ statements, placed.statement.Unreserved) ∧
    ∃ narration node, ofDocument ⟨.sequence, statements⟩ .diagram = .ok narration ∧
      (Diagram.ofEvents narration.events "" none).nodes[0]? = some node ∧
      node.attrs.get? "order" ≠ some (toString 0) := by
  refine ⟨by decide, ?_, _, _, rfl, rfl, by decide⟩
  have own : (Table.ofList [("order", "7")] : Attrs).Unreserved := ⟨by decide, by decide⟩
  simp only [List.mem_cons, List.not_mem_nil, or_false, forall_eq_or_imp, forall_eq]
  exact ⟨trivial, own⟩

end Narration
end DiagramStream
