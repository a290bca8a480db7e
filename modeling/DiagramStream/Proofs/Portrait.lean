import DiagramStream.Narration.Exchange
import DiagramStream.Proofs.Canvas

/-!
Drawn nodes against the members of a roster. Main statement: they agree field by field, however often a member is
declared again, except under the keys that something else was written to.
-/

namespace DiagramStream

-- `written` lists ids with a key that was written beside the roster. The order is drawn from the member's own.
structure Depicts (written : List (String × String)) (node : Node) (member : Member) : Prop where
  id : node.id = member.node.id
  kind : node.kind = member.node.kind
  label : node.label = member.node.label
  order : (node.id, "order") ∉ written → node.attrs.get? "order" = some (toString member.order)
  attrs : ∀ key, key ≠ "order" → (node.id, key) ∉ written → node.attrs.get? key = member.node.attrs.get? key

namespace Depicts
variable {written : List (String × String)} {node : Node} {member : Member} {change : Attrs}

theorem weaken (depicts : Depicts written node member) {more : List (String × String)}
    (keeps : ∀ pair ∈ written, pair ∈ more) : Depicts more node member := by
  refine ⟨depicts.id, depicts.kind, depicts.label, ?_, ?_⟩
  · exact fun free => depicts.order fun listed => free (keeps _ listed)
  · exact fun key other free => depicts.attrs key other fun listed => free (keeps _ listed)

-- The same change on both sides. The order is an attribute of the drawn node alone.
theorem revise (depicts : Depicts written node member) (free : "order" ∈ change.keys → (node.id, "order") ∈ written)
    (explicit : Bool) :
    Depicts written (node.merge change) ⟨member.node.merge change, explicit, member.order⟩ := by
  refine ⟨?_, ?_, ?_, ?_, ?_⟩
  · simpa using depicts.id
  · simp only [Node.merge_kind, depicts.kind]
  · simp only [Node.merge_label, depicts.label]
  · intro fresh
    rw [Node.merge_id] at fresh
    have silent : change.get? "order" = none := (Table.get?_eq_none_iff _ _).2 fun listed => fresh (free listed)
    simpa [Node.merge_get?, silent] using depicts.order fresh
  · intro key other fresh
    rw [Node.merge_id] at fresh
    simp only [Node.merge_get?, depicts.attrs key other fresh]

-- A change to the drawn node alone.
theorem update (depicts : Depicts written node member) (unreserved : change.Unreserved)
    (covered : ∀ key ∈ change.keys, (node.id, key) ∈ written) : Depicts written (node.merge change) member := by
  have kind : change.get? "kind" = none := (Table.get?_eq_none_iff _ _).2 unreserved.kind
  have label : change.get? "label" = none := (Table.get?_eq_none_iff _ _).2 unreserved.label
  have silent : ∀ key, (node.id, key) ∉ written → (node.merge change).attrs.get? key = node.attrs.get? key := by
    intro key fresh
    have unsaid : change.get? key = none := (Table.get?_eq_none_iff _ _).2 fun listed => fresh (covered key listed)
    simp [Node.merge_get?, unsaid]
  refine ⟨?_, ?_, ?_, ?_, ?_⟩
  · simpa using depicts.id
  · simpa [Node.merge_kind, kind] using depicts.kind
  · simpa [Node.merge_label, label] using depicts.label
  · intro fresh
    rw [Node.merge_id] at fresh
    exact (silent _ fresh).trans (depicts.order fresh)
  · intro key other fresh
    rw [Node.merge_id] at fresh
    exact (silent _ fresh).trans (depicts.attrs key other fresh)

end Depicts

-- Members are told as they are enrolled.
theorem introduction_depicts (written : List (String × String)) (member : Member) :
    Depicts written { member.node with attrs := member.node.attrs.set "order" (toString member.order) } member := by
  refine ⟨rfl, rfl, rfl, fun _ => Table.get?_set_self .., ?_⟩
  intro key other _
  rw [Table.get?_set, if_neg other]

structure Shows (written : List (String × String)) (nodes : Table Node) (members : Table Member) : Prop where
  keys : nodes.keys = members.keys
  depicts : ∀ id node member, nodes.get? id = some node → members.get? id = some member →
    Depicts written node member

namespace Shows
variable {written : List (String × String)} {nodes : Table Node} {members : Table Member}

theorem weaken (shown : Shows written nodes members) {more : List (String × String)}
    (keeps : ∀ pair ∈ written, pair ∈ more) : Shows more nodes members :=
  ⟨shown.keys, fun id node member drawn listed => (shown.depicts id node member drawn listed).weaken keeps⟩

theorem drawn (shown : Shows written nodes members) {id : String} {member : Member}
    (listed : members.get? id = some member) : ∃ node, nodes.get? id = some node ∧ Depicts written node member := by
  have known := Table.mem_keys_of_get? listed
  rw [← shown.keys] at known
  obtain ⟨node, found⟩ := (Table.mem_keys_iff _ _).1 known
  exact ⟨node, found, shown.depicts id node member found listed⟩

-- What becomes of one entry on both sides.
theorem set (shown : Shows written nodes members) {id : String} {node : Node} {member : Member}
    (depicts : Depicts written node member) : Shows written (nodes.set id node) (members.set id member) := by
  refine ⟨by rw [Table.keys_set, Table.keys_set, shown.keys], ?_⟩
  intro other drawn_ listed_ drawn listed
  rw [Table.get?_set] at drawn listed
  by_cases same : other = id
  · rw [if_pos same] at drawn listed
    cases Option.some.inj drawn
    cases Option.some.inj listed
    exact depicts
  · rw [if_neg same] at drawn listed
    exact shown.depicts other drawn_ listed_ drawn listed

theorem enroll (shown : Shows written nodes members) {roster : Roster} {member : Member}
    (newcomer : Roster.Newcomer roster member) (fresh : member.node.id ∉ members.keys) :
    Shows written (register nodes (Narration.introduction member)) (members.set member.node.id member) := by
  have new := register_new (show ({ member.node with
      attrs := member.node.attrs.set "order" (toString member.order) } : Node).id ∉ nodes.keys by
    rw [shown.keys]; exact fresh) newcomer.label
  rw [Narration.introduction, new]
  exact shown.set (introduction_depicts written member)

-- A change that is told only if there is one.
theorem revise (shown : Shows written nodes members) {id : String} {member : Member} {change : Attrs}
    (listed : members.get? id = some member) (own : member.node.id = id)
    (free : "order" ∈ change.keys → (id, "order") ∈ written) (explicit : Bool) :
    Shows written
      ((if change.isEmpty then none else some (Event.updateNode id change)).toList.foldl register nodes)
      (members.set id ⟨member.node.merge change, explicit, member.order⟩) := by
  obtain ⟨node, found, depicts⟩ := shown.drawn listed
  have revised := depicts.revise (by rw [depicts.id, own]; exact free) explicit
  have after : Shows written (nodes.set id _) (members.set id _) := shown.set revised
  by_cases unchanged : change.isEmpty = true
  · have none : change = Table.empty := Table.ext (List.isEmpty_iff.1 unchanged)
    subst none
    have still : nodes.set id node = nodes := Table.ext (Table.write_of_find? found)
    rw [Node.merge_empty, still] at after
    exact after
  · simpa [unchanged, register_known found] using after

end Shows

-- Events that write to nothing but what is listed.
def Event.Within (written : List (String × String)) : Event → Prop
  | .addNode _ => False
  | .updateNode id change => change.Unreserved ∧ ∀ key ∈ change.keys, (id, key) ∈ written
  | _ => True

namespace Shows
variable {written : List (String × String)} {nodes : Table Node} {members : Table Member}

theorem apply (shown : Shows written nodes members)
    (own : ∀ id member, members.get? id = some member → member.node.id = id) {event : Event}
    (within : event.Within written) : Shows written (register nodes event) members := by
  cases event with
  | addNode node => cases within
  | updateNode id change =>
    obtain ⟨unreserved, covered⟩ := within
    cases found : nodes.get? id with
    | none => simpa only [register, found] using shown
    | some node =>
      have known := Table.mem_keys_of_get? found
      rw [shown.keys] at known
      obtain ⟨member, listed⟩ := (Table.mem_keys_iff _ _).1 known
      have depicts := shown.depicts id node member found listed
      have same : node.id = id := depicts.id.trans (own id member listed)
      have updated := depicts.update unreserved (by rw [same]; exact covered)
      have after : Shows written (nodes.set id _) (members.set id _) := shown.set updated
      have still : members.set id member = members := Table.ext (Table.write_of_find? listed)
      rw [still] at after
      rwa [register_known found]
  | _ => exact shown

theorem applyAll (shown : Shows written nodes members)
    (own : ∀ id member, members.get? id = some member → member.node.id = id) {events : List Event}
    (within : ∀ event ∈ events, event.Within written) : Shows written (events.foldl register nodes) members := by
  induction events generalizing nodes with
  | nil => exact shown
  | cons event rest ih =>
    exact ih (shown.apply own (within event (List.mem_cons_self ..)))
      fun other member => within other (List.mem_cons_of_mem _ member)

end Shows
end DiagramStream
