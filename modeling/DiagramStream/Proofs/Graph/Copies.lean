import DiagramStream.Proofs.Graph.Layers
import DiagramStream.Proofs.Graph.Nodes

/-!
What becomes of a single node of a graph. Main statement: a statement leaves it alone, adds it or states it again, on the
roster and where it is held back at the same time.
-/

namespace DiagramStream
open Roster

-- A node as the roster lists it, and as it is held back.
structure Copies where
  listed : Node
  held : Node

namespace Copies

def new (node : Node) : Copies := ⟨node, node⟩

def restated (copies : Copies) (said : Declaration) : Copies :=
  let revision := revise copies.listed said
  ⟨revision.node, copies.held.merge revision.change⟩

-- Copies that agree under a key agree under it once the node is stated again.
theorem restated_get? {copies : Copies} {key : String} (same : copies.held.attrs.get? key = copies.listed.attrs.get? key)
    (kind : key ≠ "kind") (label : key ≠ "label") (said : Declaration) :
    (copies.restated said).listed.attrs.get? key = (said.attrs.get? key).or (copies.listed.attrs.get? key) ∧
      (copies.restated said).held.attrs.get? key = (said.attrs.get? key).or (copies.listed.attrs.get? key) := by
  refine ⟨revise_get? .., ?_⟩
  simp only [restated, Node.merge_get?, revise_change, kind, label, or_self, if_false, Option.or_none, same]
  cases said.attrs.get? key with
  | none => rfl
  | some value =>
    by_cases old : copies.listed.attrs.get? key = some value <;> simp [Option.filter_some, old]

-- The kind that is held follows the changes, and so whatever goes by its name among the attributes.
theorem restated_fields {copies : Copies} (same : copies.held.label = copies.listed.label) (said : Declaration)
    (label : said.attrs.get? "label" = none) :
    let after := copies.restated said
    after.listed.kind = (given said.kind).getD copies.listed.kind ∧
      after.held.kind = (((said.attrs.get? "kind").filter (copies.listed.attrs.get? "kind" ≠ some ·)).or
        ((given said.kind).filter (· ≠ copies.listed.kind))).getD copies.held.kind ∧
      after.listed.label = (given said.label).getD copies.listed.label ∧ after.held.label = after.listed.label := by
  refine ⟨revise_kind .., ?_, revise_label .., ?_⟩
  · simp [restated, Node.merge_kind, revise_change]
  · simp only [restated, Node.merge_label, revise_change, revise_label, label, same]
    cases given said.label with
    | none => rfl
    | some other =>
      by_cases old : other = copies.listed.label <;> simp [Option.filter_some, old]

end Copies

-- What scopes give does not depend on who was referred to in them.
theorem Nesting.nodeAttrs_carry {nesting after : Nesting} {ids : List String}
    (carried : after.frames = carry ids nesting.frames) : after.nodeAttrs = nesting.nodeAttrs := by
  cases frames : nesting.frames with
  | nil =>
    rw [frames] at carried
    simp [nodeAttrs, frames, show after.frames = [] from carried]
  | cons top outer =>
    rw [frames, carry, addMembers_eq] at carried
    simp [nodeAttrs, rank?, groups, frames, carried, List.findSome?_cons, List.filterMap_cons]

theorem Nesting.depth_carry {nesting after : Nesting} {ids : List String}
    (carried : after.frames = carry ids nesting.frames) : after.depth = nesting.depth := by
  rw [depth, depth, carried]
  cases nesting.frames <;> rfl

namespace Narration

def copies? (narration : Narration) (id : String) : Option Copies :=
  match narration.roster.member? id, narration.graph.nodes.get? id with
  | some member, some held => some ⟨member.node, held⟩
  | _, _ => none

theorem copies?_eq_none_iff {narration : Narration} (held : Held narration) (id : String) :
    narration.copies? id = none ↔ id ∉ narration.roster.members.keys := by
  have keys : narration.graph.nodes.get? id = none ↔ id ∉ narration.roster.members.keys := by
    rw [Table.get?_eq_none_iff, held.keys]
  rw [← Table.get?_eq_none_iff] at keys ⊢
  unfold copies? member?
  cases listed : narration.roster.members.get? id with
  | none => simp
  | some member =>
    cases copy : narration.graph.nodes.get? id with
    | none => simp [listed, copy] at keys
    | some node => simp

theorem copies?_of_listed {narration : Narration} (held : Held narration) {node : Node}
    (listed : node ∈ narration.graph.nodes.values) :
    ∃ member, narration.roster.member? node.id = some member ∧ narration.copies? node.id = some ⟨member.node, node⟩ := by
  obtain ⟨entry, inside, rfl⟩ := List.mem_map.1 listed
  have copy : narration.graph.nodes.get? entry.1 = some entry.2 := (Table.get?_eq_some_iff ..).2 inside
  rw [held.own _ _ copy]
  obtain ⟨member, found⟩ := (Table.mem_keys_iff _ _).1 (held.keys ▸ Table.mem_keys_of_get? copy)
  exact ⟨member, found, by simp [copies?, member?, found, copy]⟩

theorem Tallied.copies? {narration : Narration} {before : List Placed} (tallied : Tallied narration before) (id : String) :
    narration.copies? id = none ↔ id ∉ refsOf before := by
  rw [copies?_eq_none_iff tallied.held, tallied.keys, List.mem_eraseDups]

theorem Tallied.seen {narration : Narration} {before : List Placed} (tallied : Tallied narration before) {id : String}
    (seen : narration.copies? id ≠ none) : id ∈ refsOf before := not_not.1 (mt (tallied.copies? id).2 seen)

-- The roster has the names of those that are there, and of no others.
theorem copies?_knows {narration : Narration} (held : Held narration) (plain : narration.roster.Plain) (name : String) :
    (narration.copies? name).isSome = (narration.roster.id? name).isSome := by
  cases bound : narration.roster.id? name with
  | none => rw [(copies?_eq_none_iff held name).2 (held.sound.fresh bound)]; rfl
  | some id =>
    obtain rfl := plain name id bound
    have there : narration.copies? id ≠ none := by
      rw [ne_eq, copies?_eq_none_iff held, not_not]
      exact held.sound.leads id id bound
    exact Option.isSome_iff_ne_none.2 there

-- Mentions

theorem graphNode_defaultKind (narration : Narration) (name : String) :
    (narration.graphNode name).2.roster.defaultKind = narration.roster.defaultKind := by
  rw [graphNode_eq]
  unfold received
  split <;> exact narration.roster.mention_defaultKind name _

theorem graphNode_copies? {narration : Narration} (held : Held narration) (plain : narration.roster.Plain)
    (name id : String) :
    (narration.graphNode name).2.copies? id = (narration.copies? id).or
      (if id = name then some (.new ⟨id, narration.roster.defaultKind, id, narration.nesting.nodeAttrs⟩) else none) := by
  rw [graphNode_eq]
  cases bound : narration.roster.id? name with
  | none =>
    rw [mention_new bound]
    by_cases same : id = name
    · subst same
      have unseen : narration.copies? id = none := by simpa [bound] using copies?_knows held plain id
      rw [unseen]
      simp [copies?, received, hold, Narration.addMember, enroll, member?, given, Copies.new]
    · simp [copies?, received, hold, Narration.addMember, enroll, member?, Table.get?_set, same]
  | some other =>
    rw [mention_known held.sound bound]
    by_cases same : id = name
    · subst same
      have seen : (narration.copies? id).isSome = true := by simpa [bound] using copies?_knows held plain id
      obtain ⟨copies, there⟩ := Option.isSome_iff_exists.1 seen
      rw [there]
      exact there
    · rw [if_neg same, Option.or_none]
      rfl

theorem mentionAll_defaultKind (narration : Narration) (names : List String) :
    (narration.mentionAll names).roster.defaultKind = narration.roster.defaultKind := by
  induction names generalizing narration with
  | nil => rfl
  | cons name rest ih => exact (ih _).trans (graphNode_defaultKind narration name)

theorem mentionAll_copies? {narration : Narration} (held : Held narration) (plain : narration.roster.Plain)
    (names : List String) (id : String) :
    (narration.mentionAll names).copies? id = (narration.copies? id).or (if id ∈ names then
      some (.new ⟨id, narration.roster.defaultKind, id, narration.nesting.nodeAttrs⟩) else none) := by
  induction names generalizing narration with
  | nil => simp [mentionAll]
  | cons name rest ih =>
    obtain ⟨-, first⟩ := graphNode_referred held plain name
    have later := ih first.refers.held first.plain
    rw [graphNode_copies? held plain, graphNode_defaultKind, Nesting.nodeAttrs_carry first.frames, Option.or_assoc] at later
    refine later.trans (congrArg _ ?_)
    by_cases here : id = name <;> simp [here]

-- Declarations

theorem declared_copies? {narration after : Narration} (held : Held narration) (plain : narration.roster.Plain)
    {said : Declaration} (single : said.otherName = none)
    (told : narration.declared (narration.roster.declare said) = .ok after) (id : String) :
    after.copies? id =
      if id = said.name then some (match narration.copies? id with
        | none => .new ⟨id, (given said.kind).getD narration.roster.defaultKind, (given said.label).getD id, said.attrs⟩
        | some copies => copies.restated said)
      else narration.copies? id := by
  cases bound : narration.roster.id? said.name with
  | none =>
    have nobody : narration.roster.subject? said = none := by simp [subject?, bound, single, given]
    unfold declared Roster.declare at told
    simp only [nobody, single] at told
    cases told
    by_cases same : id = said.name
    · subst same
      have unseen : narration.copies? said.name = none := by simpa [bound] using copies?_knows held plain said.name
      rw [unseen]
      simp [copies?, hold, Narration.addMember, enroll, member?, Copies.new]
    · simp [copies?, hold, Narration.addMember, enroll, member?, Table.get?_set, same]
  | some other =>
    obtain rfl : other = said.name := plain said.name other bound
    obtain ⟨member, found, same⟩ := held.sound.member bound
    have subject : narration.roster.subject? said = some member := by simp [subject?, bound, found]
    have listed : said.name ∈ narration.graph.nodes.keys := held.keys ▸ held.sound.leads _ _ bound
    obtain ⟨node, copy⟩ := (Table.mem_keys_iff _ _).1 listed
    have copy : narration.graph.nodes.get? said.name = some node := copy
    have copies : narration.copies? said.name = some ⟨member.node, node⟩ := by simp [copies?, found, copy]
    have named : node.id = said.name := held.own _ _ copy
    unfold declared Roster.declare at told
    simp only [subject, single, same, copy] at told
    by_cases here : id = said.name
    · subst here
      rw [if_pos rfl, copies]
      split at told <;> rename_i unchanged <;> cases told
      · have still : (revise member.node said).change = Table.empty := Table.ext (List.isEmpty_iff.1 unchanged)
        simp [copies?, member?, Narration.addMember, Copies.restated, still, copy]
      · simp [copies?, member?, Narration.addMember, hold, Copies.restated, named]
    · rw [if_neg here]
      split at told <;> cases told <;>
        simp [copies?, member?, Narration.addMember, hold, Table.get?_set, named, here]

-- Statements

theorem tell_defaultKind {narration after : Narration} {placed : Placed} (held : Held narration)
    (plain : narration.roster.Plain) (graph : placed.statement.ofGraph = true)
    (told : narration.tell placed = .ok after) : after.roster.defaultKind = narration.roster.defaultKind := by
  cases tell_goes held plain graph told with
  | continues place endpoints operators attrs top outer frames => exact mentionAll_defaultKind ..
  | joins place endpoints operators attrs body => exact mentionAll_defaultKind ..
  | states place node attrs own after body readable told =>
    rw [(declared_same told).1]
    exact declare_defaultKind ..
  | _ => rfl

theorem draw_copies? (narration : Narration) (groups : List (List NodeRef)) (attrs : Attrs) (id : String) :
    (narration.draw groups attrs).copies? id = narration.copies? id := by
  unfold copies?
  rw [draw_nodes]
  rfl

-- What an accepted statement makes of one node.
inductive Fate (narration after : Narration) (id : String) : Placed → Prop where
  | still {placed : Placed} (other : placed.statement.states id = false)
      (known : id ∈ placed.statement.refs → narration.copies? id ≠ none)
      (same : after.copies? id = narration.copies? id) : Fate narration after id placed
  | mentioned {placed : Placed} (other : placed.statement.states id = false) (listed : id ∈ placed.statement.refs)
      (unseen : narration.copies? id = none)
      (new : after.copies? id =
        some (.new ⟨id, narration.roster.defaultKind, id, after.nesting.nodeAttrs⟩)) : Fate narration after id placed
  | stated {place : Text.Position} {node : NodeRef} {attrs own : Attrs} (named : node.name = id)
      (readable : ownAttrs attrs = .ok own) (unseen : narration.copies? id = none)
      (new : after.copies? id = some (.new ⟨id, (given (attrs.get? "type")).getD narration.roster.defaultKind,
        (given (attrs.get? "label")).getD id, after.nesting.nodeAttrs.merge own⟩)) :
      Fate narration after id ⟨place, .nodeStatement node attrs⟩
  | restated {place : Text.Position} {node : NodeRef} {attrs own : Attrs} {copies : Copies} (named : node.name = id)
      (readable : ownAttrs attrs = .ok own) (seen : narration.copies? id = some copies)
      (revised : after.copies? id = some (copies.restated ⟨id, attrs.get? "type", attrs.get? "label", none,
        if 1 < after.nesting.depth then after.nesting.nodeAttrs.merge own else own, place.line⟩)) :
      Fate narration after id ⟨place, .nodeStatement node attrs⟩

theorem Fate.of_mentions {narration after : Narration} {placed : Placed} {id : String}
    (other : placed.statement.states id = false)
    (mentions : after.copies? id = (narration.copies? id).or (if id ∈ placed.statement.refs then
      some (.new ⟨id, narration.roster.defaultKind, id, after.nesting.nodeAttrs⟩) else none)) :
    Fate narration after id placed := by
  cases seen : narration.copies? id with
  | some copies => exact .still other (fun _ => by simp [seen]) (by simp [mentions, seen])
  | none =>
    by_cases listed : id ∈ placed.statement.refs
    · exact .mentioned other listed seen (by simp [mentions, seen, listed])
    · exact .still other (fun named => absurd named listed) (by simp [mentions, seen, listed])

theorem declared_fate {narration after : Narration} (held : Held narration) (plain : narration.roster.Plain)
    {place : Text.Position} {node : NodeRef} {attrs own : Attrs} (readable : ownAttrs attrs = .ok own)
    (told : narration.declared (narration.roster.declare (narration.stated node attrs own place.line)) = .ok after)
    (id : String) : Fate narration after id ⟨place, .nodeStatement node attrs⟩ := by
  have carried := (declared_same told).2
  have becomes := declared_copies? held plain rfl told id
  have knows : narration.roster.knows node.name = (narration.copies? node.name).isSome :=
    (copies?_knows held plain node.name).symm
  by_cases named : node.name = id
  · subst named
    cases seen : narration.copies? node.name with
    | none =>
      refine .stated rfl readable seen ?_
      rw [Nesting.nodeAttrs_carry carried]
      simpa [stated, knows, seen] using becomes
    | some copies =>
      refine .restated rfl readable seen ?_
      rw [Nesting.nodeAttrs_carry carried, Nesting.depth_carry carried]
      simpa [stated, knows, seen] using becomes
  · refine .still (by simpa [Statement.states] using named) ?_ (becomes.trans (if_neg (Ne.symm named)))
    intro listed
    exact absurd (List.mem_singleton.1 listed).symm named

theorem tell_fate {narration after : Narration} {placed : Placed} (held : Held narration)
    (plain : narration.roster.Plain) (graph : placed.statement.ofGraph = true)
    (told : narration.tell placed = .ok after) (id : String) : Fate narration after id placed := by
  cases tell_goes held plain graph told with
  | continues place endpoints operators attrs top outer frames some_ =>
    have outside := (leave_held held frames).1
    have referred := mentionAll_referred outside plain (endpoints.flatten.map NodeRef.name)
    have refs : (Statement.scopeClose endpoints operators attrs).refs = endpoints.flatten.map NodeRef.name := by
      simp [Statement.refs, some_]
    have given : ((narration.left top outer).mentionAll (endpoints.flatten.map NodeRef.name)).nesting.nodeAttrs = _ :=
      Nesting.nodeAttrs_carry referred.frames
    refine .of_mentions rfl ?_
    rw [draw_copies?, refs]
    refine (mentionAll_copies? outside plain _ id).trans ?_
    simp only [← given]
    rfl
  | joins place endpoints operators attrs body =>
    have referred := mentionAll_referred held plain (endpoints.flatten.map NodeRef.name)
    refine .of_mentions rfl ?_
    rw [draw_copies?, mentionAll_copies? held plain, ← Nesting.nodeAttrs_carry referred.frames]
    rfl
  | states place node attrs own after body readable told => exact declared_fate held plain readable told id
  | _ => exact .of_mentions rfl (Option.or_none ..).symm

end Narration
end DiagramStream
