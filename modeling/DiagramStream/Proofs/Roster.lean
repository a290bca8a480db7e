import DiagramStream.Roster
import DiagramStream.Proofs.Table

/-!
Rosters that every run of mentions and declarations leads to. Main statements: each bound name leads to a
member, each member goes by its own id, and one call adds at most one member, whose id was not taken.
-/

namespace DiagramStream
namespace Roster
variable {roster : Roster} {name id : String}

-- `named` is what keeps a new member from taking the place of an old one: an id that was ever given
-- out stays bound, to whatever node, so it is never given out again.
structure Sound (roster : Roster) : Prop where
  leads : ∀ name id, roster.id? name = some id → id ∈ roster.members.keys
  own : ∀ id member, roster.member? id = some member → member.node.id = id
  named : ∀ id ∈ roster.members.keys, id ∈ roster.names.keys

theorem empty_sound (defaultKind : String) : (empty defaultKind).Sound := by
  refine ⟨?_, ?_, ?_⟩
  · intro name id bound; cases bound
  · intro id member found; cases found
  · intro id listed; cases listed

theorem Sound.member (sound : Sound roster) (bound : roster.id? name = some id) :
    ∃ member, roster.member? id = some member ∧ member.node.id = id := by
  obtain ⟨member, found⟩ := (Table.mem_keys_iff _ _).1 (sound.leads name id bound)
  exact ⟨member, found, sound.own id member found⟩

theorem Sound.fresh (sound : Sound roster) (unbound : roster.id? name = none) :
    name ∉ roster.members.keys := fun listed =>
  (Table.get?_eq_none_iff _ _).1 unbound (sound.named name listed)

theorem Sound.find? (sound : Sound roster) (bound : roster.id? name = some id) :
    ∃ member, roster.find? name = some member ∧ member.node.id = id := by
  obtain ⟨member, found, own⟩ := sound.member bound
  exact ⟨member, by simp [Roster.find?, bound, found], own⟩

-- Enrolling

@[simp] theorem enroll_id (roster : Roster) (name kind : String) (label : Option String) (attrs : Attrs)
    (explicit : Bool) : (roster.enroll name kind label attrs explicit).1.node.id = name := rfl

theorem enroll_id? (roster : Roster) (name other kind : String) (label : Option String) (attrs : Attrs)
    (explicit : Bool) : (roster.enroll name kind label attrs explicit).2.id? other =
      if other = name then some name else roster.id? other := Table.get?_set _ _ _ _

theorem enroll_keys (fresh : name ∉ roster.members.keys) (kind : String)
    (label : Option String) (attrs : Attrs) (explicit : Bool) :
    (roster.enroll name kind label attrs explicit).2.members.keys = roster.members.keys ++ [name] :=
  Table.keys_set_of_not_mem fresh _

theorem enroll_sound (sound : roster.Sound) (name kind : String) (label : Option String)
    (attrs : Attrs) (explicit : Bool) : (roster.enroll name kind label attrs explicit).2.Sound := by
  refine ⟨?_, ?_, ?_⟩
  · intro other id bound
    rw [enroll_id?] at bound
    refine (Table.mem_keys_set _ _ _ _).2 ?_
    split at bound
    · exact .inl (Option.some.inj bound).symm
    · exact .inr (sound.leads other id bound)
  · intro id member found
    have found := (Table.get?_set _ _ _ _).symm.trans found
    split at found
    · rename_i same
      cases Option.some.inj found
      exact same.symm
    · exact sound.own id member found
  · intro id listed
    refine (Table.mem_keys_set _ _ _ _).2 ?_
    rcases (Table.mem_keys_set _ _ _ _).1 listed with same | old
    · exact .inl same
    · exact .inr (sound.named id old)

-- Binding

@[simp] theorem bind_members (roster : Roster) (name id : String) :
    (roster.bind name id).members = roster.members := rfl

@[simp] theorem bindGiven_members (roster : Roster) (name : Option String) (id : String) :
    (roster.bindGiven name id).members = roster.members := by
  unfold bindGiven
  split <;> rfl

theorem bind_id? (roster : Roster) (name other id : String) :
    (roster.bind name id).id? other = if other = name then some id else roster.id? other :=
  Table.get?_set _ _ _ _

theorem bind_sound (sound : roster.Sound) (name : String)
    (listed : id ∈ roster.members.keys) : (roster.bind name id).Sound := by
  refine ⟨?_, sound.own, ?_⟩
  · intro other bound found
    rw [bind_id?] at found
    split at found
    · cases Option.some.inj found; exact listed
    · exact sound.leads other bound found
  · intro member enrolled
    exact (Table.mem_keys_set _ _ _ _).2 (.inr (sound.named member enrolled))

-- Revising

@[simp] theorem Revision.kind_id (revision : Revision) (kind : Option String) :
    (revision.kind kind).node.id = revision.node.id := by
  unfold Revision.kind
  split
  · rfl
  · split <;> rfl

@[simp] theorem Revision.label_id (revision : Revision) (label : Option String) :
    (revision.label label).node.id = revision.node.id := by
  unfold Revision.label
  split
  · rfl
  · split <;> rfl

@[simp] theorem Revision.attr_id (revision : Revision) (entry : String × String) :
    (revision.attr entry).node.id = revision.node.id := by
  unfold Revision.attr
  split <;> rfl

@[simp] theorem Revision.attrs_id (revision : Revision) (attrs : Attrs) :
    (revision.attrs attrs).node.id = revision.node.id := by
  unfold Revision.attrs
  generalize attrs.entries = entries
  induction entries generalizing revision with
  | nil => rfl
  | cons entry rest ih => simp [ih]

@[simp] theorem revise_id (node : Node) (said : Declaration) : (revise node said).node.id = node.id := by
  simp [revise]

theorem revised_sound (sound : roster.Sound)
    (listed : id ∈ roster.members.keys) (member : Member) (own : member.node.id = id)
    (notices : List Notice) :
    ({ roster with members := roster.members.set id member, notices := notices } : Roster).Sound := by
  have keys := Table.keys_set_of_mem listed member
  refine ⟨?_, ?_, ?_⟩
  · intro name bound found
    exact (congrArg (bound ∈ ·) keys).mpr (sound.leads name bound found)
  · intro other found at_
    have at_ := (Table.get?_set _ _ _ _).symm.trans at_
    split at at_
    · rename_i same
      cases Option.some.inj at_
      exact own.trans same.symm
    · exact sound.own other found at_
  · intro other enrolled
    exact sound.named other ((congrArg (other ∈ ·) keys).mp enrolled)

-- One call

-- What a mention and a declaration have in common: they answer with the id of a member, and create at
-- most that one, with an id that no member had.
structure Grows (roster : Roster) (id : String) (created : Option Member) (after : Roster) : Prop where
  sound : after.Sound
  listed : id ∈ after.members.keys
  keys : after.members.keys = roster.members.keys ++ created.toList.map (·.node.id)
  fresh : ∀ member, created = some member → member.node.id = id ∧ id ∉ roster.members.keys

theorem Grows.of_known {after : Roster} (sound : after.Sound)
    (listed : id ∈ roster.members.keys) (keys : after.members.keys = roster.members.keys) :
    Grows roster id none after :=
  ⟨sound, keys ▸ listed, by simpa using keys, by simp⟩

theorem enroll_grows (sound : roster.Sound) (unbound : roster.id? name = none) (kind : String)
    (label : Option String) (attrs : Attrs) (explicit : Bool) :
    let enrolled := roster.enroll name kind label attrs explicit
    Grows roster name (some enrolled.1) enrolled.2 := by
  have fresh := sound.fresh unbound
  have keys := enroll_keys fresh kind label attrs explicit
  refine ⟨enroll_sound sound name kind label attrs explicit, by simp [keys], keys, ?_⟩
  intro member same
  cases Option.some.inj same
  exact ⟨rfl, fresh⟩

theorem Grows.bind {after : Roster} {created : Option Member} (grows : Grows roster id created after)
    (name : String) : Grows roster id created (after.bind name id) :=
  ⟨bind_sound grows.sound name grows.listed, grows.listed, grows.keys, grows.fresh⟩

theorem Grows.bindGiven {after : Roster} {created : Option Member} (grows : Grows roster id created after)
    (name : Option String) : Grows roster id created (after.bindGiven name id) := by
  unfold Roster.bindGiven
  split
  · exact grows
  · exact grows.bind _

theorem mention_known (sound : roster.Sound)
    (bound : roster.id? name = some id) (attrs : Attrs) :
    roster.mention name attrs = ⟨id, none, roster⟩ := by
  obtain ⟨member, found, own⟩ := sound.find? bound
  simp [mention, found, own]

theorem mention_new (unbound : roster.id? name = none) (attrs : Attrs) :
    roster.mention name attrs =
      let enrolled := roster.enroll name roster.defaultKind none attrs false
      ⟨name, some enrolled.1, enrolled.2⟩ := by
  simp [mention, find?, unbound]

theorem mention_grows (sound : roster.Sound) (name : String) (attrs : Attrs) :
    let said := roster.mention name attrs
    Grows roster said.id said.created said.roster := by
  cases bound : roster.id? name with
  | none =>
    rw [mention_new bound]
    exact enroll_grows sound bound _ _ _ _
  | some id =>
    rw [mention_known sound bound]
    exact .of_known sound (sound.leads name id bound) rfl

-- After a mention its name is bound to the answered id, and every name that was bound stays so.
theorem mention_id? (sound : roster.Sound) (name : String) (attrs : Attrs) :
    (roster.mention name attrs).roster.id? name = some (roster.mention name attrs).id := by
  cases bound : roster.id? name with
  | none => simp [mention_new bound, enroll_id?]
  | some id => simp [mention_known sound bound, bound]

theorem mention_keeps (sound : roster.Sound) {other : String}
    (bound : roster.id? other = some id) (name : String) (attrs : Attrs) :
    (roster.mention name attrs).roster.id? other = some id := by
  cases known : roster.id? name with
  | none =>
    have differs : other ≠ name := by rintro rfl; cases known.symm.trans bound
    simp [mention_new known, enroll_id?, differs, bound]
  | some found => simp [mention_known sound known, bound]

theorem subject?_member (sound : roster.Sound) {said : Declaration} {member : Member}
    (found : roster.subject? said = some member) : roster.member? member.node.id = some member := by
  have held : ∀ name, roster.find? name = some member → roster.member? member.node.id = some member := by
    intro name at_
    obtain ⟨id, bound, held⟩ := Option.bind_eq_some_iff.1 at_
    exact (sound.own id member held).symm ▸ held
  unfold subject? at found
  split at found
  · rename_i id bound
    exact held said.name (by simp [find?, bound, found])
  · obtain ⟨through, _⟩ := Option.filter_eq_some_iff.1 found
    obtain ⟨other, _, at_⟩ := Option.bind_eq_some_iff.1 through
    exact held other at_

theorem subject?_listed (sound : roster.Sound) {said : Declaration} {member : Member}
    (found : roster.subject? said = some member) : member.node.id ∈ roster.members.keys :=
  Table.mem_keys_of_get? (subject?_member sound found)

theorem subject?_none (sound : roster.Sound) {said : Declaration}
    (nobody : roster.subject? said = none) : roster.id? said.name = none := by
  cases bound : roster.id? said.name with
  | none => rfl
  | some id =>
    obtain ⟨member, found, _⟩ := sound.member bound
    simp [subject?, bound, found] at nobody

theorem declare_grows (sound : roster.Sound) (said : Declaration) :
    let declared := roster.declare said
    Grows roster declared.id declared.created declared.roster := by
  unfold declare
  split
  · rename_i nobody
    exact (enroll_grows sound (subject?_none sound nobody) _ _ _ _).bindGiven _
  · rename_i member found
    have listed := subject?_listed sound found
    have revised := revised_sound sound listed
      { member with node := (revise member.node said).node, explicit := true }
      (revise_id _ _) (roster.notices ++ ((conflict? member said).map Notice.redeclared).toList)
    have known : Grows roster member.node.id none _ :=
      .of_known revised listed (Table.keys_set_of_mem listed _)
    exact (known.bind said.name).bindGiven said.otherName

-- The kind of nodes that nobody declared stays what it is

theorem mention_defaultKind (roster : Roster) (name : String) (attrs : Attrs) :
    (roster.mention name attrs).roster.defaultKind = roster.defaultKind := by
  unfold mention
  split <;> rfl

theorem bindGiven_defaultKind (roster : Roster) (name : Option String) (id : String) :
    (roster.bindGiven name id).defaultKind = roster.defaultKind := by
  unfold bindGiven
  split <;> rfl

theorem declare_defaultKind (roster : Roster) (said : Declaration) :
    (roster.declare said).roster.defaultKind = roster.defaultKind := by
  unfold declare
  split <;> exact bindGiven_defaultKind ..

-- What becomes of the members

-- A member that has just been enrolled: it stands last, and only the node without a name has no label.
structure Newcomer (roster : Roster) (member : Member) : Prop where
  order : member.order = roster.size
  label : member.node.label = "" → member.node.id = ""

theorem enroll_newcomer (roster : Roster) (name kind : String) (label : Option String) (attrs : Attrs)
    (explicit : Bool) : Newcomer roster (roster.enroll name kind label attrs explicit).1 := by
  refine ⟨rfl, ?_⟩
  intro empty
  change (given label).getD name = "" at empty
  change name = ""
  cases stated : given label with
  | none => simpa [stated] using empty
  | some text =>
    have some_ : text ≠ "" := by simpa using (Option.filter_eq_some_iff.1 stated).2
    exact absurd (by simpa [stated] using empty) some_

theorem mention_members (roster : Roster) (name : String) (attrs : Attrs) :
    let said := roster.mention name attrs
    match said.created with
    | none => said.roster = roster
    | some member => Newcomer roster member ∧ said.roster.members = roster.members.set member.node.id member := by
  unfold mention
  cases roster.find? name with
  | none => exact ⟨enroll_newcomer .., rfl⟩
  | some member => rfl

-- A declaration enrolls its member, or revises one that is there.
theorem declare_members (sound : roster.Sound) (said : Declaration) :
    let declared := roster.declare said
    (∃ member, Newcomer roster member ∧ declared.created = some member ∧ declared.id = member.node.id ∧
      declared.roster.members = roster.members.set member.node.id member) ∨
    ∃ member, roster.member? member.node.id = some member ∧ declared.created = none ∧
      declared.id = member.node.id ∧ declared.change = (revise member.node said).change ∧
      declared.roster.members = roster.members.set member.node.id
        { member with node := (revise member.node said).node, explicit := true } := by
  unfold declare
  cases subject : roster.subject? said with
  | none => exact .inl ⟨_, enroll_newcomer .., rfl, rfl, bindGiven_members ..⟩
  | some member => exact .inr ⟨member, subject?_member sound subject, rfl, rfl, rfl, bindGiven_members ..⟩

end Roster

-- Numbers

-- Numbered as they were enrolled.
def Ranked (members : Table Member) : Prop := members.values.map Member.order = List.range members.size

theorem Ranked.enroll {roster : Roster} (ranked : Ranked roster.members) {member : Member}
    (newcomer : Roster.Newcomer roster member) (fresh : member.node.id ∉ roster.members.keys) :
    Ranked (roster.members.set member.node.id member) := by
  have order : member.order = roster.members.size := newcomer.order
  unfold Ranked at ranked ⊢
  rw [Table.values_set_of_not_mem fresh, Table.size_eq, Table.keys_set_of_not_mem fresh, List.map_append, ranked,
    List.length_append, ← Table.size_eq, List.length_singleton, List.range_succ, ← order]
  rfl

theorem Ranked.revise {members : Table Member} (ranked : Ranked members) {id : String} {before after : Member}
    (listed : members.get? id = some before) (same : after.order = before.order) : Ranked (members.set id after) := by
  unfold Ranked at ranked ⊢
  rw [Table.map_values_set listed same, ranked, Table.size_eq, Table.size_eq,
    Table.keys_set_of_mem (Table.mem_keys_of_get? listed)]

end DiagramStream
