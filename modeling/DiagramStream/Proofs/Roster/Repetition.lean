import DiagramStream.Proofs.Change
import DiagramStream.Proofs.Roster.Bindings

/-!
Declarations that are made again. Main statement: on a roster that already holds all that a declaration says, it
answers with the same node and changes nothing; and every declaration leaves such a roster behind, whichever way it
found its node. What it answers with is all that it changed, and no more.
-/

namespace DiagramStream.Roster

-- Everything that is said is known of this member, and both names lead to it.
structure Holds (roster : Roster) (said : Declaration) (member : Member) : Prop where
  listed : roster.member? member.node.id = some member
  name : roster.id? said.name = some member.node.id
  otherName : ∀ other, given said.otherName = some other → roster.id? other = some member.node.id
  explicit : member.explicit = true
  kind : ∀ kind, given said.kind = some kind → member.node.kind = kind
  label : ∀ label, given said.label = some label → member.node.label = label
  attrs : ∀ key value, said.attrs.get? key = some value → member.node.attrs.get? key = some value

variable {roster : Roster} {said : Declaration} {member : Member} {name id : String}

-- Saying what is known

theorem bind_known (bound : roster.id? name = some id) : roster.bind name id = roster := by
  have names : roster.names.set name id = roster.names := Table.ext (Table.write_of_find? bound)
  unfold bind
  rw [bound, names]
  simp

theorem bindGiven_known {other : Option String}
    (bound : ∀ name, given other = some name → roster.id? name = some id) : roster.bindGiven other id = roster := by
  unfold bindGiven
  split
  · rfl
  · exact bind_known (bound _ ‹_›)

theorem Revision.attrs_known {node : Node} {entries : List (String × String)}
    (known : ∀ entry ∈ entries, node.attrs.get? entry.1 = some entry.2) :
    entries.foldl Revision.attr ⟨node, Table.empty⟩ = ⟨node, Table.empty⟩ := by
  induction entries with
  | nil => rfl
  | cons entry rest ih =>
    obtain ⟨here, later⟩ := List.forall_mem_cons.1 known
    rw [List.foldl_cons, Revision.attr, if_pos here]
    exact ih later

theorem Holds.revise (holds : Holds roster said member) :
    Roster.revise member.node said = ⟨member.node, Table.empty⟩ := by
  have kind : (⟨member.node, Table.empty⟩ : Revision).kind said.kind = ⟨member.node, Table.empty⟩ := by
    unfold Revision.kind
    split
    · rfl
    · exact if_pos (holds.kind _ ‹_›).symm
  have label : (⟨member.node, Table.empty⟩ : Revision).label said.label = ⟨member.node, Table.empty⟩ := by
    unfold Revision.label
    split
    · rfl
    · exact if_pos (holds.label _ ‹_›).symm
  rw [Roster.revise, kind, label]
  refine Revision.attrs_known ?_
  intro entry listed
  exact holds.attrs entry.1 entry.2 ((Table.get?_eq_some_iff ..).2 listed)

theorem Holds.conflict? (holds : Holds roster said member) : conflict? member said = none := by
  unfold Roster.conflict?
  split
  · rfl
  · rename_i kind stated
    simp [holds.kind kind stated]

theorem Holds.subject? (holds : Holds roster said member) : roster.subject? said = some member := by
  rw [Roster.subject?, holds.name]
  exact holds.listed

theorem Holds.declare (holds : Holds roster said member) :
    roster.declare said = ⟨member.node.id, none, Table.empty, roster⟩ := by
  have members : roster.members.set member.node.id { member with node := member.node, explicit := true } =
      roster.members := by
    rw [← holds.explicit]
    exact Table.ext (Table.write_of_find? holds.listed)
  rw [Roster.declare, holds.subject?]
  simp only [holds.revise, holds.conflict?, members, Option.map_none, Option.toList_none, List.append_nil]
  rw [bind_known holds.name, bindGiven_known holds.otherName]

-- What a declaration leaves behind

-- Whatever it had to do for that, a declaration leads both its names to the node that it answers with.
theorem declare_names_known (sound : roster.Sound) (said : Declaration) :
    (roster.declare said).roster.id? said.name = some (roster.declare said).id ∧
      ∀ other, given said.otherName = some other →
        (roster.declare said).roster.id? other = some (roster.declare said).id :=
  have binds := perform_binds sound (.declare said)
  ⟨binds.name, binds.otherName⟩

theorem revised_holds (sound : roster.Sound) (found : roster.subject? said = some member) :
    Holds (roster.declare said).roster said { member with node := (revise member.node said).node, explicit := true } := by
  have names := declare_names_known sound said
  have answer : (roster.declare said).id = member.node.id ∧ (roster.declare said).roster.members =
      roster.members.set member.node.id { member with node := (revise member.node said).node, explicit := true } := by
    rw [declare, found]
    exact ⟨rfl, bindGiven_members ..⟩
  rw [answer.1] at names
  refine ⟨?_, ?_, ?_, rfl, ?_, ?_, ?_⟩
  · rw [revise_id, member?, answer.2, Table.get?_set_self]
  · rw [revise_id]
    exact names.1
  · rw [revise_id]
    exact names.2
  · intro kind stated
    rw [revise_kind, stated, Option.getD_some]
  · intro label stated
    rw [revise_label, stated, Option.getD_some]
  · intro key value stated
    rw [revise_get?, stated, Option.some_or]

theorem enrolled_holds (sound : roster.Sound) (nobody : roster.subject? said = none) :
    ∃ member, Holds (roster.declare said).roster said member ∧ (roster.declare said).id = member.node.id := by
  have names := declare_names_known sound said
  have answer : (roster.declare said).id = said.name ∧ (roster.declare said).roster.members =
      roster.members.set said.name ⟨⟨said.name, (given said.kind).getD roster.defaultKind,
        (given said.label).getD said.name, said.attrs⟩, true, roster.size⟩ := by
    rw [declare, nobody]
    exact ⟨rfl, bindGiven_members ..⟩
  rw [answer.1] at names
  refine ⟨⟨⟨said.name, (given said.kind).getD roster.defaultKind, (given said.label).getD said.name, said.attrs⟩, true,
    roster.size⟩, ⟨?_, names.1, names.2, rfl, ?_, ?_, fun _ _ stated => stated⟩, answer.1⟩
  · rw [member?, answer.2, Table.get?_set_self]
  · intro kind stated
    simp [stated]
  · intro label stated
    simp [stated]

theorem declare_holds (sound : roster.Sound) (said : Declaration) :
    ∃ member, Holds (roster.declare said).roster said member ∧ (roster.declare said).id = member.node.id := by
  cases found : roster.subject? said with
  | none => exact enrolled_holds sound found
  | some member =>
    refine ⟨_, revised_holds sound found, ?_⟩
    rw [declare, found]
    exact (revise_id _ _).symm

theorem declare_twice (sound : roster.Sound) (said : Declaration) :
    (roster.declare said).roster.declare said =
      ⟨(roster.declare said).id, none, Table.empty, (roster.declare said).roster⟩ := by
  obtain ⟨member, holds, answer⟩ := declare_holds sound said
  rw [holds.declare, answer]

-- What a change tells

-- What a change says of a key: an attribute of the declaration, its kind or its label, and not what was there.
def Alters (said : Declaration) (before after : Node) (key value : String) : Prop :=
  (said.attrs.get? key = some value ∧ before.attrs.get? key ≠ some value ∧ after.attrs.get? key = some value) ∨
    (key = "kind" ∧ before.kind ≠ value ∧ after.kind = value) ∨
      (key = "label" ∧ before.label ≠ value ∧ after.label = value)

theorem revise_alters {node : Node} {key value : String}
    (changed : (revise node said).change.get? key = some value) :
    Alters said node (revise node said).node key value := by
  rw [revise_change, Option.or_eq_some_iff, Option.or_eq_some_iff] at changed
  rcases changed with attr | ⟨-, label | ⟨-, kind⟩⟩
  · obtain ⟨stated, differs⟩ := Option.filter_eq_some_iff.1 attr
    refine .inl ⟨stated, of_decide_eq_true differs, ?_⟩
    rw [revise_get?, stated, Option.some_or]
  · split at label
    · obtain ⟨stated, differs⟩ := Option.filter_eq_some_iff.1 label
      refine .inr (.inr ⟨‹_›, Ne.symm (of_decide_eq_true differs), ?_⟩)
      rw [revise_label, stated, Option.getD_some]
    · cases label
  · split at kind
    · obtain ⟨stated, differs⟩ := Option.filter_eq_some_iff.1 kind
      refine .inr (.inl ⟨‹_›, Ne.symm (of_decide_eq_true differs), ?_⟩)
      rw [revise_kind, stated, Option.getD_some]
    · cases kind

-- A node that was there before is told of by its change: no more than what is different, and no less.
structure Revises (roster : Roster) (said : Declaration) (declared : Declared) (before after : Member) : Prop where
  was : roster.member? declared.id = some before
  became : declared.roster.member? declared.id = some after
  explicit : after.explicit = true
  order : after.order = before.order
  complete : said.attrs.Unreserved → after.node = before.node.merge declared.change
  minimal : ∀ key value, declared.change.get? key = some value → Alters said before.node after.node key value

theorem declare_revises (sound : roster.Sound) (known : (roster.declare said).created = none) :
    ∃ before after, Revises roster said (roster.declare said) before after := by
  cases found : roster.subject? said with
  | none =>
    rw [declare, found] at known
    cases known
  | some member =>
    have holds := revised_holds sound found
    have answer : (roster.declare said).id = member.node.id ∧
        (roster.declare said).change = (revise member.node said).change := by
      rw [declare, found]
      exact ⟨rfl, rfl⟩
    have listed := holds.listed
    rw [revise_id] at listed
    refine ⟨member, { member with node := (revise member.node said).node, explicit := true }, ?_, ?_, rfl, rfl, ?_, ?_⟩
    · rw [answer.1]
      exact subject?_member sound found
    · rw [answer.1]
      exact listed
    · intro unreserved
      rw [answer.2, merge_revise unreserved]
    · intro key value changed
      rw [answer.2] at changed
      exact revise_alters changed

theorem performAll_declare_twice (defaultKind : String) (calls : List Call) (said : Declaration) :
    let roster := (empty defaultKind).performAll calls
    let first := roster.declare said
    first.roster.declare said = ⟨first.id, none, Table.empty, first.roster⟩ ∧
      (first.created = none → ∃ before after, Revises roster said first before after) := by
  intro roster first
  have sound : roster.Sound := (performAll_sorted (empty_sorted defaultKind) calls).1.sound
  exact ⟨declare_twice sound said, declare_revises sound⟩

-- The second name leads to a node that was only mentioned; the next time it is the first name that does.
theorem performAll_declare_twice_renamed :
    let calls : List Call := [.mention "db" (Table.ofList [("color", "red")]), .mention "web" Table.empty]
    let said : Declaration := ⟨"Store", some "database", some "db", some "db", Table.ofList [("color", "blue")], 3⟩
    let roster := (empty genericKind).performAll calls
    let first := roster.declare said
    first.id = "db" ∧ first.created = none ∧
      first.change = Table.ofList [("kind", "database"), ("color", "blue")] ∧
        first.roster.declare said = ⟨"db", none, Table.empty, first.roster⟩ ∧
          ∃ before after, Revises roster said first before after := by
  intro calls said roster first
  obtain ⟨again, revises⟩ := performAll_declare_twice genericKind calls said
  exact ⟨by decide, by decide, by decide, again, revises (by decide)⟩

end DiagramStream.Roster
