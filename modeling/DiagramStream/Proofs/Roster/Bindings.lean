import DiagramStream.Proofs.Roster

/-!
Names over a run of calls. Main statement: whatever is mentioned and declared, in whatever order, each name leads to
a member, members keep their ids and their numbers, and a name moves from one node to another only as the second name
of a declaration, which is when a notice is given.
-/

namespace DiagramStream.Roster

-- Something that is said to a roster.
inductive Call where
  | mention (name : String) (attrs : Attrs)
  | declare (said : Declaration)

def Call.name : Call → String
  | .mention name _ => name
  | .declare said => said.name

def Call.otherName? : Call → Option String
  | .mention .. => none
  | .declare said => given said.otherName

structure Answer where
  id : String
  roster : Roster

def perform (roster : Roster) : Call → Answer
  | .mention name attrs => ⟨(roster.mention name attrs).id, (roster.mention name attrs).roster⟩
  | .declare said => ⟨(roster.declare said).id, (roster.declare said).roster⟩

def performAll (roster : Roster) (calls : List Call) : Roster :=
  calls.foldl (fun roster call => (roster.perform call).roster) roster

-- A name that stood for another node before.
structure Rebinding where
  name : String
  before : String
  after : String
deriving DecidableEq

def Notice.rebinding? : Notice → Option Rebinding
  | .rebound name before after => some ⟨name, before, after⟩
  | .redeclared _ => none

def rebindings (roster : Roster) : List Rebinding := roster.notices.filterMap Notice.rebinding?

-- What a roster is like: no name leads nowhere, and members are told apart by ids that are names as well.
structure Orderly (roster : Roster) : Prop where
  leads : ∀ name id, roster.id? name = some id → ∃ member, roster.member? id = some member
  own : ∀ id member, roster.member? id = some member → member.node.id = id
  distinct : (roster.members.values.map (·.node.id)).Nodup
  named : ∀ member ∈ roster.members.values, roster.knows member.node.id = true
  numbered : ∀ (index : Nat) (member : Member), roster.members.values[index]? = some member → member.order = index

-- Members that are there to stay.
def Keeps (before after : Roster) : Prop :=
  ∀ id member, before.member? id = some member →
    ∃ later, after.member? id = some later ∧ later.node.id = member.node.id ∧ later.order = member.order

-- What a call does to names: its own two lead to the answered id, and the others stay.
structure Binds (before : Roster) (call : Call) (answer : Answer) : Prop where
  name : answer.roster.id? call.name = some answer.id
  otherName : ∀ other, call.otherName? = some other → answer.roster.id? other = some answer.id
  others : ∀ other, other ≠ call.name → call.otherName? ≠ some other → answer.roster.id? other = before.id? other
  moved : ∀ name old, before.id? name = some old → answer.roster.id? name ≠ some old → call.otherName? = some name
  told : ∃ rebound : Option Rebinding, answer.roster.rebindings = before.rebindings ++ rebound.toList ∧
    ∀ name old new, rebound = some ⟨name, old, new⟩ ↔
      before.id? name = some old ∧ answer.roster.id? name = some new ∧ old ≠ new

-- Members

variable {roster before after : Roster} {name id : String}

theorem Keeps.refl (roster : Roster) : Keeps roster roster := fun _ member found => ⟨member, found, rfl, rfl⟩

theorem Keeps.trans {middle : Roster} (first : Keeps before middle) (second : Keeps middle after) :
    Keeps before after := by
  intro id member found
  obtain ⟨next, here, sameId, sameOrder⟩ := first id member found
  obtain ⟨last, there, lastId, lastOrder⟩ := second id next here
  exact ⟨last, there, lastId.trans sameId, lastOrder.trans sameOrder⟩

theorem Keeps.enroll {member : Member} (fresh : member.node.id ∉ before.members.keys)
    (members : after.members = before.members.set member.node.id member) : Keeps before after := by
  intro id old found
  have other : id ≠ member.node.id := by
    rintro rfl
    exact fresh (Table.mem_keys_of_get? found)
  refine ⟨old, ?_, rfl, rfl⟩
  rw [member?, members, Table.get?_set, if_neg other]
  exact found

theorem Keeps.revise {old new : Member} (listed : before.member? old.node.id = some old)
    (members : after.members = before.members.set old.node.id new) (sameId : new.node.id = old.node.id)
    (sameOrder : new.order = old.order) : Keeps before after := by
  intro id member found
  by_cases same : id = old.node.id
  · subst same
    cases listed.symm.trans found
    exact ⟨new, by rw [member?, members, Table.get?_set_self], sameId, sameOrder⟩
  · refine ⟨member, ?_, rfl, rfl⟩
    rw [member?, members, Table.get?_set, if_neg same]
    exact found

-- What every run keeps.
structure Sorted (roster : Roster) : Prop where
  sound : roster.Sound
  ranked : Ranked roster.members

theorem Sorted.orderly (sorted : Sorted roster) : Orderly roster := by
  have ids : roster.members.values.map (fun member => member.node.id) = roster.members.keys :=
    Table.map_values sorted.sound.own
  refine ⟨?_, sorted.sound.own, ids ▸ roster.members.keys_nodup, ?_, ?_⟩
  · intro name id bound
    obtain ⟨member, found, -⟩ := sorted.sound.member bound
    exact ⟨member, found⟩
  · intro member listed
    refine (Table.contains_iff _ _).2 (sorted.sound.named _ ?_)
    rw [← ids]
    exact List.mem_map_of_mem listed
  · intro index member here
    have numbered := congrArg (fun orders : List Nat => orders[index]?) sorted.ranked
    simp only [List.getElem?_map, here, Option.map_some] at numbered
    obtain ⟨_, same⟩ := List.getElem?_eq_some_iff.1 numbered.symm
    simpa using same.symm

theorem mention_sorted (sorted : Sorted before) (name : String) (attrs : Attrs) :
    Sorted (before.mention name attrs).roster ∧ Keeps before (before.mention name attrs).roster := by
  have grows := mention_grows sorted.sound name attrs
  have members := mention_members before name attrs
  cases created : (before.mention name attrs).created with
  | none =>
    simp only [created] at members
    rw [members]
    exact ⟨sorted, .refl _⟩
  | some member =>
    simp only [created] at members
    obtain ⟨newcomer, members⟩ := members
    have fresh : member.node.id ∉ before.members.keys := by
      obtain ⟨same, new⟩ := grows.fresh member created
      rwa [same]
    refine ⟨⟨grows.sound, ?_⟩, .enroll fresh members⟩
    rw [members]
    exact sorted.ranked.enroll newcomer fresh

theorem declare_sorted (sorted : Sorted before) (said : Declaration) :
    Sorted (before.declare said).roster ∧ Keeps before (before.declare said).roster := by
  have grows := declare_grows sorted.sound said
  rcases declare_members sorted.sound said with
    ⟨member, newcomer, created, id, members⟩ | ⟨member, listed, -, -, -, members⟩
  · have fresh : member.node.id ∉ before.members.keys := by
      rw [← id]
      exact (grows.fresh member created).2
    refine ⟨⟨grows.sound, ?_⟩, .enroll fresh members⟩
    rw [members]
    exact sorted.ranked.enroll newcomer fresh
  · refine ⟨⟨grows.sound, ?_⟩, .revise listed members (revise_id _ _) rfl⟩
    rw [members]
    exact sorted.ranked.revise listed rfl

theorem perform_sorted (sorted : Sorted before) (call : Call) :
    Sorted (before.perform call).roster ∧ Keeps before (before.perform call).roster := by
  cases call with
  | mention name attrs => exact mention_sorted sorted name attrs
  | declare said => exact declare_sorted sorted said

theorem performAll_sorted (sorted : Sorted before) (calls : List Call) :
    Sorted (before.performAll calls) ∧ Keeps before (before.performAll calls) := by
  induction calls generalizing before with
  | nil => exact ⟨sorted, .refl _⟩
  | cons call rest ih =>
    obtain ⟨next, kept⟩ := perform_sorted sorted call
    obtain ⟨last, later⟩ := ih next
    exact ⟨last, kept.trans later⟩

theorem empty_sorted (defaultKind : String) : Sorted (empty defaultKind) := ⟨empty_sound defaultKind, rfl⟩

-- Names

-- A call as far as its own name is concerned. That one is never taken from a node.
structure Names (before : Roster) (name id : String) (after : Roster) : Prop where
  bound : after.id? name = some id
  others : ∀ other, other ≠ name → after.id? other = before.id? other
  steady : ∀ old, before.id? name = some old → old = id
  quiet : after.rebindings = before.rebindings

theorem enroll_names (unbound : before.id? name = none) (kind : String) (label : Option String) (attrs : Attrs)
    (explicit : Bool) : Names before name name (before.enroll name kind label attrs explicit).2 := by
  refine ⟨?_, ?_, ?_, rfl⟩
  · rw [enroll_id?, if_pos rfl]
  · intro other differs
    rw [enroll_id?, if_neg differs]
  · intro old bound
    cases unbound.symm.trans bound

theorem mention_names (sound : before.Sound) (name : String) (attrs : Attrs) :
    Names before name (before.mention name attrs).id (before.mention name attrs).roster := by
  cases bound : before.id? name with
  | none =>
    rw [mention_new bound]
    exact enroll_names bound _ _ _ _
  | some id =>
    rw [mention_known sound bound]
    exact ⟨bound, fun _ _ => rfl, fun old found => Option.some.inj (found.symm.trans bound), rfl⟩

def rebinding? (roster : Roster) (name id : String) : Option Rebinding :=
  (roster.id? name).bind fun old => if old = id then none else some ⟨name, old, id⟩

theorem rebinding?_eq_some_iff {other old new : String} :
    roster.rebinding? name id = some ⟨other, old, new⟩ ↔
      name = other ∧ roster.id? name = some old ∧ id = new ∧ old ≠ new := by
  unfold rebinding?
  cases roster.id? name with
  | none => simp
  | some bound => by_cases same : bound = id <;> grind

theorem bind_rebindings (roster : Roster) (name id : String) :
    (roster.bind name id).rebindings = roster.rebindings ++ (roster.rebinding? name id).toList := by
  unfold bind rebinding? rebindings
  cases roster.id? name with
  | none => simp
  | some old => by_cases same : old = id <;> simp [same, Notice.rebinding?]

theorem declare_names (sound : before.Sound) (said : Declaration) :
    ∃ named, Names before said.name (before.declare said).id named ∧
      (before.declare said).roster = named.bindGiven said.otherName (before.declare said).id := by
  unfold declare
  cases subject : before.subject? said with
  | none => exact ⟨_, enroll_names (subject?_none sound subject) _ _ _ _, rfl⟩
  | some member =>
    have steady : ∀ old, before.id? said.name = some old → old = member.node.id := by
      intro old bound
      simp only [subject?, bound] at subject
      exact (sound.own old member subject).symm
    refine ⟨_, ⟨?_, ?_, steady, ?_⟩, rfl⟩
    · rw [bind_id?, if_pos rfl]
    · intro other differs
      rw [bind_id?, if_neg differs]
      rfl
    · have settled : rebinding? { before with
          members := before.members.set member.node.id
            { member with node := (revise member.node said).node, explicit := true }
          notices := before.notices ++ ((conflict? member said).map Notice.redeclared).toList }
          said.name member.node.id = none := by
        refine Option.bind_eq_none_iff.2 ?_
        intro old bound
        exact if_pos (steady old bound)
      rw [bind_rebindings, settled]
      cases conflict? member said <;> simp [rebindings, Notice.rebinding?]

theorem perform_names (sound : before.Sound) (call : Call) :
    ∃ named, Names before call.name (before.perform call).id named ∧
      (before.perform call).roster =
        call.otherName?.elim named (fun other => named.bind other (before.perform call).id) := by
  cases call with
  | mention name attrs => exact ⟨_, mention_names sound name attrs, rfl⟩
  | declare said =>
    obtain ⟨named, names, whole⟩ := declare_names sound said
    refine ⟨named, names, whole.trans ?_⟩
    unfold bindGiven
    simp only [Call.otherName?, perform]
    cases given said.otherName <;> rfl

-- No name is taken from its node until the second name is bound.
theorem Names.still {named : Roster} (names : Names before name id named) {other old : String}
    (bound : before.id? other = some old) : named.id? other = some old := by
  by_cases own : other = name
  · subst own
    rw [names.bound, names.steady old bound]
  · rw [names.others other own, bound]

theorem Names.was {named : Roster} (names : Names before name id named) {other old : String}
    (bound : named.id? other = some old) (differs : old ≠ id) : before.id? other = some old := by
  by_cases own : other = name
  · subst own
    exact absurd (Option.some.inj (bound.symm.trans names.bound)) differs
  · rw [← names.others other own, bound]

theorem Names.bind_still {named : Roster} (names : Names before name id named) {other second old : String}
    (bound : before.id? other = some old) (unlike : other ≠ second) :
    (named.bind second id).id? other = some old := by
  rw [bind_id?, if_neg unlike, names.still bound]

theorem Names.rebinds_iff {named : Roster} (names : Names before name id named) (second : String)
    {other old new : String} :
    named.rebinding? second id = some ⟨other, old, new⟩ ↔
      before.id? other = some old ∧ (named.bind second id).id? other = some new ∧ old ≠ new := by
  rw [rebinding?_eq_some_iff]
  constructor
  · rintro ⟨rfl, bound, rfl, differs⟩
    exact ⟨names.was bound differs, by rw [bind_id?, if_pos rfl], differs⟩
  · rintro ⟨bound, found, differs⟩
    have same : other = second := by
      refine Decidable.byContradiction ?_
      intro unlike
      exact differs (Option.some.inj ((names.bind_still bound unlike).symm.trans found))
    subst same
    rw [bind_id?, if_pos rfl] at found
    exact ⟨rfl, names.still bound, Option.some.inj found, differs⟩

theorem perform_binds (sound : before.Sound) (call : Call) : Binds before call (before.perform call) := by
  obtain ⟨named, names, whole⟩ := perform_names sound call
  cases second : call.otherName? with
  | none =>
    rw [second, Option.elim_none] at whole
    refine ⟨whole ▸ names.bound, by simp [second], ?_, ?_, none, ?_, ?_⟩
    · intro other differs _
      rw [whole, names.others other differs]
    · intro name old bound moved
      exact absurd (whole ▸ names.still bound) moved
    · rw [whole, names.quiet]
      exact (List.append_nil _).symm
    · intro name old new
      rw [whole]
      refine iff_of_false (by simp) ?_
      rintro ⟨bound, found, differs⟩
      exact differs (Option.some.inj ((names.still bound).symm.trans found))
  | some other =>
    rw [second, Option.elim_some] at whole
    have leads : (before.perform call).roster.id? other = some (before.perform call).id := by
      rw [whole, bind_id?, if_pos rfl]
    refine ⟨?_, ?_, ?_, ?_, named.rebinding? other (before.perform call).id, ?_, ?_⟩
    · by_cases own : call.name = other
      · rw [own, leads]
      · rw [whole, bind_id?, if_neg own, names.bound]
    · intro name stated
      cases second.symm.trans stated
      exact leads
    · intro name own differs
      have unlike : name ≠ other := fun equal => differs (by rw [second, equal])
      rw [whole, bind_id?, if_neg unlike, names.others name own]
    · intro name old bound moved
      by_cases equal : name = other
      · rw [second, equal]
      · exact absurd (whole ▸ names.bind_still bound equal) moved
    · rw [whole, bind_rebindings, names.quiet]
    · intro name old new
      rw [whole]
      exact names.rebinds_iff other

-- Every run

theorem performAll_append (roster : Roster) (first later : List Call) :
    roster.performAll (first ++ later) = (roster.performAll first).performAll later := List.foldl_append

theorem performAll_binds (defaultKind : String) (calls later : List Call) (call : Call) :
    let roster := (empty defaultKind).performAll calls
    Orderly roster ∧ Keeps roster ((empty defaultKind).performAll (calls ++ later)) ∧
      Binds roster call (roster.perform call) := by
  intro roster
  obtain ⟨sorted, -⟩ := performAll_sorted (empty_sorted defaultKind) calls
  have kept : Keeps roster (roster.performAll later) := (performAll_sorted sorted later).2
  refine ⟨sorted.orderly, ?_, perform_binds sorted.sound call⟩
  rw [performAll_append]
  exact kept

end DiagramStream.Roster
